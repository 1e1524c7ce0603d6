/-!
The dialects a walk over an operation tree knows, each with the operation classes that
it can dispatch on.
-/

namespace Polyloom

structure Dialect where
  /-- The dialect part of an operation name, its components joined by underscores. -/
  key : String
  /-- The key in camel case, as class names use it. -/
  title : String
  ops : List String
  deriving DecidableEq, Repr

namespace Dialect

/-- The classes are named by their operations, with `Op` behind. -/
def of (key title : String) (ops : List String) : Dialect := ⟨key, title, ops.map (· ++ "Op")⟩

def affine : Dialect := .of "affine" "Affine"
  ["AffineApply", "AffineFor", "AffineIf", "AffineLoad", "AffineMax", "AffineMin", "AffineParallel",
   "AffinePrefetch", "AffineStore", "AffineVectorLoad", "AffineVectorStore", "AffineYield"]

def arith : Dialect := .of "arith" "Arith"
  ["AddF", "AddI", "AddUIExtended", "AndI", "Bitcast", "CeilDivSI", "CeilDivUI", "CmpF", "CmpI",
   "Constant", "DivF", "DivSI", "DivUI", "ExtF", "ExtSI", "ExtUI", "FPToSI", "FPToUI", "FloorDivSI",
   "IndexCast", "IndexCastUI", "MaxF", "MaxSI", "MaxUI", "MinF", "MinSI", "MinUI", "MulF", "MulI",
   "MulSIExtended", "MulUIExtended", "NegF", "OrI", "RemF", "RemSI", "RemUI", "SIToFP", "Select",
   "ShLI", "ShRSI", "ShRUI", "SubF", "SubI", "TruncF", "TruncI", "UIToFP", "XOrI"]

def asynchronous : Dialect := .of "async" "Async"
  ["AddToGroup", "AwaitAll", "Await", "Call", "CoroBegin", "CoroEnd", "CoroFree", "CoroId",
   "CoroSave", "CoroSuspend", "CreateGroup", "Execute", "Func", "Return", "RuntimeAddRef",
   "RuntimeAddToGroup", "RuntimeAwaitAndResume", "RuntimeAwait", "RuntimeCreateGroup",
   "RuntimeCreate", "RuntimeDropRef", "RuntimeIsError", "RuntimeLoad", "RuntimeNumWorkerThreads",
   "RuntimeResume", "RuntimeSetAvailable", "RuntimeSetError", "RuntimeStore", "Yield"]

def bufferization : Dialect := .of "bufferization" "Bufferization"
  ["AllocTensor", "Clone", "DeallocTensor", "ToMemref", "ToTensor"]

def builtin : Dialect := .of "builtin" "Builtin" ["Module", "UnrealizedConversionCast"]

def cf : Dialect := .of "cf" "Cf" ["Assert", "Branch", "CondBranch", "Switch"]

def complex : Dialect := .of "complex" "Complex"
  ["Abs", "Add", "Angle", "Atan2", "Conj", "Constant", "Cos", "Create", "Div", "Equal", "Exp",
   "Expm1", "Im", "Log1p", "Log", "Mul", "Neg", "NotEqual", "Pow", "Re", "Rsqrt", "Sign", "Sin",
   "Sqrt", "Sub", "Tan", "Tanh"]

def function : Dialect := .of "func" "Func" ["CallIndirect", "Call", "Constant", "Func", "Return"]

def gpu : Dialect := .of "gpu" "Gpu"
  ["AllReduce", "Alloc", "Barrier", "BlockDim", "BlockId", "Dealloc", "GPUFunc", "GPUModule",
   "GlobalId", "GridDim", "HostRegister", "LaneId", "LaunchFunc", "Launch", "Memcpy", "Memset",
   "ModuleEnd", "NumSubgroups", "Printf", "Return", "SetDefaultDevice", "Shuffle", "SubgroupId",
   "SubgroupMmaCompute", "SubgroupMmaConstantMatrix", "SubgroupMmaElementwise",
   "SubgroupMmaLoadMatrix", "SubgroupMmaStoreMatrix", "SubgroupReduce", "SubgroupSize",
   "Terminator", "ThreadId", "Wait", "Yield"]

def linalg : Dialect := .of "linalg" "Linalg"
  ["BatchMatmul", "BatchMatmulTransposeB", "BatchMatvec", "BatchReduceMatmul", "Broadcast",
   "Conv1DNcwFcw", "Conv1DNwcWcf", "Conv1D", "Conv2DNchwFchw", "Conv2DNgchwFgchw", "Conv2DNhwcFhwc",
   "Conv2DNhwcHwcf", "Conv2DNhwcHwcfQ", "Conv2D", "Conv3DNdhwcDhwcf", "Conv3DNdhwcDhwcfQ", "Conv3D",
   "Copy", "DepthwiseConv1DNwcWc", "DepthwiseConv1DNwcWcm", "DepthwiseConv2DNchwChw",
   "DepthwiseConv2DNhwcHwc", "DepthwiseConv2DNhwcHwcQ", "DepthwiseConv2DNhwcHwcm",
   "DepthwiseConv2DNhwcHwcmQ", "DepthwiseConv3DNdhwcDhwc", "DepthwiseConv3DNdhwcDhwcm", "Dot",
   "ElemwiseBinary", "ElemwiseUnary", "Fill", "FillRng2D", "Generic", "Index", "Map", "Matmul",
   "MatmulTransposeB", "MatmulUnsigned", "Matvec", "Mmt4D", "PoolingNchwMax", "PoolingNchwSum",
   "PoolingNcwMax", "PoolingNcwSum", "PoolingNdhwcMax", "PoolingNdhwcMin", "PoolingNdhwcSum",
   "PoolingNhwcMax", "PoolingNhwcMaxUnsigned", "PoolingNhwcMin", "PoolingNhwcMinUnsigned",
   "PoolingNhwcSum", "PoolingNwcMax", "PoolingNwcMaxUnsigned", "PoolingNwcMin",
   "PoolingNwcMinUnsigned", "PoolingNwcSum", "QuantizedBatchMatmul", "QuantizedMatmul", "Reduce",
   "Transpose", "Vecmat", "Yield"]

def llvm : Dialect := .of "llvm" "Llvm"
  ["AShr", "AccessGroupMetadata", "Add", "AddrSpaceCast", "AddressOf", "AliasScopeDomainMetadata",
   "AliasScopeMetadata", "Alloca", "And", "AtomicCmpXchg", "AtomicRMW", "Bitcast", "Br", "Call",
   "CondBr", "Constant", "ExtractElement", "ExtractValue", "FAdd", "FCmp", "FDiv", "FMul", "FNeg",
   "FPExt", "FPToSI", "FPToUI", "FPTrunc", "FRem", "FSub", "Fence", "Freeze", "GEP", "GlobalCtors",
   "GlobalDtors", "Global", "ICmp", "InlineAsm", "InsertElement", "InsertValue", "IntToPtr",
   "Invoke", "LLVMFunc", "LShr", "Landingpad", "Load", "Metadata", "Mul", "Null", "Or", "PtrToInt",
   "Resume", "Return", "SDiv", "SExt", "SIToFP", "SRem", "Select", "Shl", "ShuffleVector", "Store",
   "Sub", "Switch", "TBAARootMetadata", "TBAATag", "TBAATypeDescriptor", "Trunc", "UDiv", "UIToFP",
   "URem", "Undef", "Unreachable", "XOr", "ZExt"]

def math : Dialect := .of "math" "Math"
  ["AbsF", "AbsI", "Atan2", "Atan", "Cbrt", "Ceil", "CopySign", "Cos", "CountLeadingZeros",
   "CountTrailingZeros", "CtPop", "Erf", "Exp2", "ExpM1", "Exp", "FPowI", "Floor", "Fma", "IPowI",
   "Log10", "Log1p", "Log2", "Log", "PowF", "RoundEven", "Round", "Rsqrt", "Sin", "Sqrt", "Tan",
   "Tanh", "Trunc"]

def memref : Dialect := .of "memref" "Memref"
  ["Alloc", "Alloca", "AllocaScope", "AllocaScopeReturn", "AssumeAlignment", "AtomicRMW",
   "AtomicYield", "Cast", "CollapseShape", "Copy", "Dealloc", "Dim", "DmaStart", "DmaWait",
   "ExpandShape", "ExtractAlignedPointerAsIndex", "ExtractStridedMetadata", "GenericAtomicRMW",
   "GetGlobal", "Global", "Load", "MemorySpaceCast", "Prefetch", "Rank", "Realloc",
   "ReinterpretCast", "Reshape", "Store", "SubView", "TensorStore", "Transpose", "View"]

def mlProgram : Dialect := .of "ml_program" "MlProgram"
  ["Func", "GlobalLoadConst", "GlobalLoadGraph", "GlobalLoad", "Global", "GlobalStoreGraph",
   "GlobalStore", "Output", "Return", "Subgraph", "Token"]

def omp : Dialect := .of "omp" "Omp"
  ["AtomicCapture", "AtomicRead", "AtomicUpdate", "AtomicWrite", "Barrier", "Cancel",
   "CancellationPoint", "CriticalDeclare", "Critical", "Data", "EnterData", "ExitData", "Flush",
   "Master", "Ordered", "OrderedRegion", "Parallel", "ReductionDeclare", "Reduction", "Section",
   "Sections", "SimdLoop", "Single", "Target", "TaskGroup", "TaskLoop", "Task", "Taskwait",
   "Taskyield", "Terminator", "Threadprivate", "WsLoop", "Yield"]

def pdl : Dialect := .of "pdl" "Pdl"
  ["ApplyNativeConstraint", "ApplyNativeRewrite", "Attribute", "Erase", "Operand", "Operands",
   "Operation", "Pattern", "Range", "Replace", "Result", "Results", "Rewrite", "Type", "Types"]

def scf : Dialect := .of "scf" "Scf"
  ["Condition", "ExecuteRegion", "For", "Forall", "If", "InParallel", "IndexSwitch", "Parallel",
   "Reduce", "ReduceReturn", "While", "Yield"]

def shape : Dialect := .of "shape" "Shape"
  ["Add", "Any", "AssumingAll", "Assuming", "AssumingYield", "Broadcast", "Concat", "ConstShape",
   "ConstSize", "ConstWitness", "CstrBroadcastable", "CstrEq", "CstrRequire", "DebugPrint", "Dim",
   "Div", "FromExtentTensor", "FromExtents", "Func", "FunctionLibrary", "GetExtent", "IndexToSize",
   "IsBroadcastable", "Max", "Meet", "Min", "Mul", "NumElements", "Rank", "Reduce", "Return",
   "ShapeEq", "ShapeOf", "SizeToIndex", "SplitAt", "ToExtentTensor", "ValueAsShape", "ValueOf",
   "With", "Yield"]

def sparseTensor : Dialect := .of "sparse_tensor" "SparseTensor"
  ["Binary", "Compress", "Concatenate", "Convert", "Expand", "Foreach", "GetStorageSpecifier",
   "Insert", "Load", "New", "NumberOfEntries", "Out", "Pack", "PushBack", "Reduce", "Select",
   "SetStorageSpecifier", "SortCoo", "Sort", "StorageSpecifierInit", "ToCoordinatesBuffer",
   "ToCoordinates", "ToPositions", "ToSliceOffset", "ToSliceStride", "ToValues", "Unary", "Unpack",
   "Yield"]

def tensor : Dialect := .of "tensor" "Tensor"
  ["Cast", "CollapseShape", "Dim", "Empty", "ExpandShape", "Extract", "ExtractSlice",
   "FromElements", "Gather", "Generate", "Insert", "InsertSlice", "Pack", "Pad",
   "ParallelInsertSlice", "Rank", "Reshape", "Scatter", "Splat", "UnPack", "Yield"]

def tosa : Dialect := .of "tosa" "Tosa"
  ["Abs", "Add", "ApplyScale", "ArgMax", "ArithmeticRightShift", "AvgPool2d", "BitwiseAnd",
   "BitwiseNot", "BitwiseOr", "BitwiseXor", "Cast", "Ceil", "Clamp", "Clz", "Concat", "Const",
   "Conv2D", "Conv3D", "Custom", "DepthwiseConv2D", "Div", "Equal", "Exp", "FFT2d", "Floor",
   "FullyConnected", "Gather", "GreaterEqual", "Greater", "Identity", "If", "Log", "LogicalAnd",
   "LogicalLeftShift", "LogicalNot", "LogicalOr", "LogicalRightShift", "LogicalXor", "MatMul",
   "MaxPool2d", "Maximum", "Minimum", "Mul", "Negate", "Pad", "Pow", "RFFT2d", "Reciprocal",
   "ReduceAll", "ReduceAny", "ReduceMax", "ReduceMin", "ReduceProd", "ReduceSum", "Rescale",
   "Reshape", "Resize", "Reverse", "Rsqrt", "Scatter", "Select", "Sigmoid", "Slice", "Sub", "Table",
   "Tanh", "Tile", "TransposeConv2D", "Transpose", "While", "Yield"]

def transform : Dialect := ⟨"transform", "Transform",
  ["AlternativesOp", "CastOp", "ForeachOp", "GetClosestIsolatedParentOp", "GetConsumersOfResult",
   "GetDefiningOp", "GetProducerOfOperand", "GetResultOp", "MergeHandlesOp", "PDLMatchOp",
   "PrintOp", "ReplicateOp", "SequenceOp", "SplitHandlesOp", "WithPDLPatternsOp", "YieldOp"]⟩

def transformLoop : Dialect := .of "transform_loop" "TransformLoop"
  ["GetParentFor", "LoopCoalesce", "LoopOutline", "LoopPeel", "LoopPipeline", "LoopUnroll"]

def transformStructured : Dialect := .of "transform_structured" "TransformStructured"
  ["BufferizeToAllocation", "ConvertConv2DToImg2Col", "Decompose", "FuseIntoContaining", "Fuse",
   "Generalize", "HoistPad", "HoistRedundantTensorSubsets", "HoistRedundantVectorTransfers",
   "Interchange", "LowerPack", "LowerUnPack", "MaskedVectorize", "Match", "MultiTileSizes",
   "PackGreedily", "Pack", "PackTranspose", "Pad", "Promote", "Replace",
   "RewriteInDestinationPassingStyle", "Scalarize", "Split", "SplitReduction", "Tile",
   "TileReductionUsingForall", "TileReductionUsingScf", "TileToForall", "TileToScfFor", "Vectorize"]

def vector : Dialect := .of "vector" "Vector"
  ["BitCast", "Broadcast", "CompressStore", "ConstantMask", "Contraction", "CreateMask",
   "ExpandLoad", "ExtractElement", "Extract", "ExtractStridedSlice", "FMA", "FlatTranspose",
   "Gather", "InsertElement", "Insert", "InsertStridedSlice", "Load", "Mask", "MaskedLoad",
   "MaskedStore", "Matmul", "MultiDimReduction", "OuterProduct", "Print", "Reduction", "Reshape",
   "ScalableExtract", "ScalableInsert", "Scan", "Scatter", "ShapeCast", "Shuffle", "Splat", "Store",
   "TransferRead", "TransferWrite", "Transpose", "TypeCast", "VectorScale", "WarpExecuteOnLane0",
   "Yield"]

def all : List Dialect :=
  [affine, arith, asynchronous, bufferization, builtin, cf, complex, function, gpu, linalg, llvm,
   math, memref, mlProgram, omp, pdl, scf, shape, sparseTensor, tensor, tosa, transform,
   transformLoop, transformStructured, vector]

def visitorName (d : Dialect) : String :=
  d.title ++ "DialectVisitor"

def find? (key : String) : Option Dialect :=
  all.find? fun d => d.key == key

end Dialect

end Polyloom
