import Polyloom.Ir.Definition

/-!
Operations of the low-level target dialect.
-/

namespace Polyloom.OpDefinition

namespace Llvm

def fastmath : Field := .attr? "fastmathFlags" "LLVM_FastmathFlagsAttr"

def accessFields : List Field :=
  [.attr? "access_groups" "SymbolRefArrayAttr", .attr? "alias_scopes" "SymbolRefArrayAttr",
   .attr? "noalias_scopes" "SymbolRefArrayAttr",
   .int? "alignment", .flag "volatile_", .flag "nontemporal"]

def binary (cls name : String) (more : List Field := []) : OpDefinition :=
  { cls, name, results := [.like "res"], fields := .one "lhs" :: .one "rhs" :: more }

def conversion (cls name : String) : OpDefinition :=
  { cls, name, results := [.one "res"], fields := [.one "arg"] }

end Llvm

open Llvm in
def llvmOps : List OpDefinition := inDialect "llvm" [
  binary "AShrOp" "ashr",
  of "AccessGroupMetadataOp" "access_group" [.symbol],
  binary "AddOp" "add",
  conversion "AddrSpaceCastOp" "addrspacecast",
  of "AddressOfOp" "mlir.addressof" [.attr "global_name" "FlatSymbolRefAttr"] [.one "res"],
  of "AliasScopeDomainMetadataOp" "alias_scope_domain" [.symbol, .text? "description"],
  of "AliasScopeMetadataOp" "alias_scope" [.symbol,
    .attr "domain" "FlatSymbolRefAttr", .text? "description"],
  of "AllocaOp" "alloca" [.one "arraySize", .int? "alignment",
    .attr? "elem_type" "TypeAttr"] [.one "res"],
  binary "AndOp" "and",
  of "AtomicCmpXchgOp" "cmpxchg" [.one "ptr", .one "cmp", .one "val",
    .attr "success_ordering" "AtomicOrdering", .attr "failure_ordering" "AtomicOrdering"]
    [.inferred "res"],
  of "AtomicRMWOp" "atomicrmw" [.attr "bin_op" "AtomicBinOp", .one "ptr", .one "val",
    .attr "ordering" "AtomicOrdering"] [.inferred "res"],
  conversion "BitcastOp" "bitcast",
  { of "BrOp" "br" [.many "destOperands"] with successors := [("dest", .one)] },
  of "CallOp" "call" [.unnamedMany "_gen_arg_1", .attr? "callee" "FlatSymbolRefAttr",
    fastmath, .attr? "branch_weights" "ElementsAttr"] [.maybe "result"],
  { of "CondBrOp" "cond_br" [.one "condition", .many "trueDestOperands",
    .many "falseDestOperands", .attr? "branch_weights" "ElementsAttr"] with
    successors := [("trueDest", .one), ("falseDest", .one)], segmented := true },
  of "ConstantOp" "mlir.constant" [.attr "value" "AnyAttr" (.mandatory "Attribute")] [.one "res"],
  of "ExtractElementOp" "extractelement" [.one "vector", .one "position"] [.inferred "res"],
  of "ExtractValueOp" "extractvalue" [.one "container",
    .attr "position" "DenseI64ArrayAttr"] [.one "res"],
  binary "FAddOp" "fadd" [fastmath],
  of "FCmpOp" "fcmp" [.attr "predicate" "FCmpPredicate", .one "lhs", .one "rhs",
    fastmath] [.inferred "res"],
  binary "FDivOp" "fdiv" [fastmath],
  binary "FMulOp" "fmul" [fastmath],
  of "FNegOp" "fneg" [.one "operand", fastmath] [.like "res"],
  conversion "FPExtOp" "fpext",
  conversion "FPToSIOp" "fptosi",
  conversion "FPToUIOp" "fptoui",
  conversion "FPTruncOp" "fptrunc",
  binary "FRemOp" "frem" [fastmath],
  binary "FSubOp" "fsub" [fastmath],
  of "FenceOp" "fence" [.attr "ordering" "AtomicOrdering", .text "syncscope"],
  of "FreezeOp" "freeze" [.one "val"] [.like "res"],
  { of "GEPOp" "getelementptr" [.one "base", .many "dynamicIndices",
    .stored "inbounds" .flag] [.one "res"] with constructible := false },
  of "GlobalCtorsOp" "mlir.global_ctors" [.attr "ctors" "FlatSymbolRefArrayAttr",
    .attr "priorities" "I32ArrayAttr"],
  of "GlobalDtorsOp" "mlir.global_dtors" [.attr "dtors" "FlatSymbolRefArrayAttr",
    .attr "priorities" "I32ArrayAttr"],
  { of "GlobalOp" "mlir.global" [.attr "global_type" "TypeAttr", .flag "constant",
    .text "sym_name", .attr "linkage" "Linkage", .flag "dso_local", .flag "thread_local_",
    .attr? "value" "AnyAttr" (.optional "Attribute"), .int? "alignment",
    .attr? "addr_space" "I32Attr" (.mandatory "IntegerAttr"), .attr? "unnamed_addr" "UnnamedAddr",
    .text? "section"] with regions := ["initializer"] },
  of "ICmpOp" "icmp" [.attr "predicate" "ICmpPredicate", .one "lhs", .one "rhs"] [.inferred "res"],
  of "InlineAsmOp" "inline_asm" [.many "operands_", .text "asm_string",
    .text "constraints", .flag "has_side_effects", .flag "is_align_stack",
    .attr? "asm_dialect" "AsmATTOrIntel", .attr? "operand_attrs" "ArrayAttr"] [.maybe "res"],
  of "InsertElementOp" "insertelement" [.one "vector", .one "value", .one "position"]
    [.inferred "res"],
  of "InsertValueOp" "insertvalue" [.one "container", .one "value",
    .attr "position" "DenseI64ArrayAttr"] [.inferred "res"],
  conversion "IntToPtrOp" "inttoptr",
  { of "InvokeOp" "invoke" [.many "callee_operands", .many "normalDestOperands",
    .many "unwindDestOperands", .attr? "callee" "FlatSymbolRefAttr",
    .attr? "branch_weights" "ElementsAttr"] [.unread (.many "result")] with
    successors := [("normalDest", .one), ("unwindDest", .one)], segmented := true },
  { of "LLVMFuncOp" "func" [.stored "sym_name" (.mandatory "StringAttr"),
    .stored "dso_local" .flag, .stored "garbageCollector" (.optional "StringAttr"),
    .stored "function_entry_count" (.optional "IntegerAttr")] with
    regions := ["body"], constructible := false },
  binary "LShrOp" "lshr",
  of "LandingpadOp" "landingpad" [.unnamedMany "_gen_arg_1", .flag "cleanup"] [.one "res"],
  of "LoadOp" "load" (.one "addr" :: accessFields) [.one "res"],
  { of "MetadataOp" "metadata" [.stored "sym_name" (.mandatory "StringAttr")] with
    regions := ["body"], constructible := false },
  binary "MulOp" "mul",
  of "NullOp" "mlir.null" [] [.one "res"],
  binary "OrOp" "or",
  conversion "PtrToIntOp" "ptrtoint",
  of "ResumeOp" "resume" [.one "value"],
  of "ReturnOp" "return" [.maybe "arg"],
  binary "SDivOp" "sdiv",
  conversion "SExtOp" "sext",
  conversion "SIToFPOp" "sitofp",
  binary "SRemOp" "srem",
  of "SelectOp" "select" [.one "condition", .one "trueValue", .one "falseValue"] [.inferred "res"],
  binary "ShlOp" "shl",
  of "ShuffleVectorOp" "shufflevector" [.one "v1", .one "v2",
    .attr "mask" "DenseI32ArrayAttr"] [.one "res"],
  of "StoreOp" "store" (.one "value" :: .one "addr" :: accessFields),
  binary "SubOp" "sub",
  { of "SwitchOp" "switch" [.one "value", .many "defaultOperands",
    .many "caseOperands", .attr? "case_values" "ElementsAttr",
    .attr "case_operand_segments" "DenseI32ArrayAttr", .attr? "branch_weights" "ElementsAttr"] with
    successors := [("defaultDestination", .one), ("caseDestinations", .many)], segmented := true },
  of "TBAARootMetadataOp" "tbaa_root" [.symbol, .text "identity"],
  of "TBAATagOp" "tbaa_tag" [.symbol, .attr "base_type" "FlatSymbolRefAttr",
    .attr "access_type" "FlatSymbolRefAttr", .attr "offset" "I64Attr" (.mandatory "IntegerAttr"),
    .flag "constant"],
  of "TBAATypeDescriptorOp" "tbaa_type_desc" [.symbol, .text? "identity",
    .attr "members" "FlatSymbolRefArrayAttr", .attr "offsets" "DenseI64ArrayAttr"],
  conversion "TruncOp" "trunc",
  binary "UDivOp" "udiv",
  conversion "UIToFPOp" "uitofp",
  binary "URemOp" "urem",
  of "UndefOp" "mlir.undef" [] [.one "res"],
  of "UnreachableOp" "unreachable",
  binary "XOrOp" "xor",
  conversion "ZExtOp" "zext"]

end Polyloom.OpDefinition
