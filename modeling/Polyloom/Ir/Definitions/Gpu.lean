import Polyloom.Ir.Definition

/-!
Functions and modules of device code.
-/

namespace Polyloom.OpDefinition

def gpuFunc : OpDefinition :=
  { of "gpu_base.FuncOp" "gpu.func" [.symbol, .attr "function_type" "anonymous_394",
    .text? "sym_visibility", .attr? "arg_attrs" "DictArrayAttr",
    .attr? "res_attrs" "DictArrayAttr"] with
    regions := ["body"] }

def gpuModule : OpDefinition :=
  { of "gpu_base.ModuleOp" "gpu.module" [.stored "sym_name" (.optional "StringAttr"),
    .stored "sym_visibility" (.optional "StringAttr")] with
    regions := ["bodyRegion"], constructible := false }

end Polyloom.OpDefinition
