import Polyloom.Ir.Definition

/-!
Operations of loops and accesses with affine bounds and indices.
-/

namespace Polyloom.OpDefinition

def affineApply : OpDefinition :=
  of "affine_gen.AffineApplyOp" "affine.apply" [.raw "map", .many "mapOperands"]
    [.unread (.one "result")]

def affineLoad : OpDefinition :=
  of "affine_gen.AffineLoadOp" "affine.load" [.one "memref", .many "indices", .raw "map"]
    [.one "result"]

def affineStore : OpDefinition :=
  { of "affine_gen.AffineStoreOp" "affine.store" [.one "value", .one "memref", .many "indices"] with
    constructible := false }

def affineYield : OpDefinition :=
  of "affine_gen.AffineYieldOp" "affine.yield" [.many "operands_"]

def affineOps : List OpDefinition :=
  [affineApply, affineLoad, affineStore, affineYield] ++ inDialect "affine" [
  { of "AffineForOp" "for" [] [.many "results_"] with
    regions := ["region"], constructible := false },
  { of "AffineIfOp" "if" [] [.many "results_"] with
    regions := ["thenRegion", "elseRegion"], constructible := false },
  of "AffineMaxOp" "max" [.raw "map", .many "operands_"] [.unread (.one "result")],
  of "AffineMinOp" "min" [.raw "map", .many "operands_"] [.unread (.one "result")],
  { of "AffineParallelOp" "parallel" [.raw "reductions", .raw "lowerBoundsMap",
    .raw "lowerBoundsGroups" (.mandatory "DenseIntElementsAttr"), .raw "upperBoundsMap",
    .raw "upperBoundsGroups" (.mandatory "DenseIntElementsAttr"), .raw "steps", .many "mapOperands"]
    [.many "results_"] with regions := ["region"] },
  of "AffinePrefetchOp" "prefetch" [.one "memref", .many "indices",
    .raw "isWrite" (.mandatory "BoolAttr"), .raw "localityHint" (.mandatory "IntegerAttr"),
    .raw "isDataCache" (.mandatory "BoolAttr")],
  of "AffineVectorLoadOp" "vector_load" [.one "memref", .many "indices"] [.one "result"],
  { of "AffineVectorStoreOp" "vector_store" [.one "value", .one "memref", .many "indices"] with
    constructible := false }]

end Polyloom.OpDefinition
