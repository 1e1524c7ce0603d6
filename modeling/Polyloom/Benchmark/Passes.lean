/-!
The pipeline that sparse benchmarks are compiled with.
-/

namespace Polyloom.Benchmark

def sparseOptions : List (String × Option String) :=
  [("parallelization-strategy", some "dense-outer-loop"), ("enable-amx", none), ("vl", some "16"),
   ("reassociate-fp-reductions", some "1"), ("enable-index-optimizations", some "1")]

def optionText : String × Option String → String
  | (name, some value) => name ++ "=" ++ value
  | (name, none) => name

def sparsePipeline : String :=
  "builtin.module(sparse-compiler\x7b" ++ " ".intercalate (sparseOptions.map optionText) ++ "\x7d)"

end Polyloom.Benchmark
