import Polyloom.Ir.Build

/-!
Operations of the core dialects, which have constructors of their own.

The results of most of them follow from the arguments: they have the type of an operand, a
fixed type, or the types that lead the arguments.
-/

namespace Polyloom.Build

def nativeWith (dialect cls : String) (args : List Value) (named : List (String × Value))
    (results : List String) (regions : Nat) (attributes : List (String × Value)) : Build Value := do
  let how := Creation.native (← nowAll args) (← nowNamed named)
  let path := dialect ++ "." ++ cls
  let id ← createOp path path args attributes results regions how
  return .op id path

def listedTypes (v : Value) : Build (Option (List String)) := do
  match v with
  | .list _ | .listed _ | .tuple _ =>
    let vs ← items v
    if vs.isEmpty || !vs.all Value.isType then return none
    else return some (← typeTexts vs)
  | _ => return none

def leadingTypes : List Value → Build (List String)
  | [] => return []
  | .type t :: rest => return t :: (← leadingTypes rest)
  | v :: rest => do
    match ← listedTypes v with
    | some ts => return ts ++ (← leadingTypes rest)
    | none => return []

def typedByFirst : List String :=
  ["AddFOp", "AddIOp", "SubFOp", "SubIOp", "MulFOp", "MulIOp", "NegFOp", "AbsFOp", "CeilOp",
   "FloorOp", "AllReduceOp"]

def argumentType (args : List Value) (position : Nat) : Build String := do
  match args[position]? with
  | some v => typeOf v
  | none => throw .wrongKind

def elementOf (v : Value) : Build String := do
  match TypeText.element? (← typeOf v) with
  | some t => return t
  | none => throw .rejected

def sizeText : Value → String
  | .int n => TypeText.sizeText n
  | v => v.text

def rankedType (kind : String) (sizes element : Value) : Build String := do
  let vs ← items sizes
  return TypeText.ranked kind (vs.map sizeText) (← typeText element)

def nativeResults (cls : String) (args : List Value) : Build (List String) := do
  if typedByFirst.contains cls then return [← argumentType args 0]
  match cls with
  | "CmpFOp" | "CmpIOp" => return ["i1"]
  | "SelectOp" => return [← argumentType args 1]
  | "DimOp" | "BlockIdOp" => return ["index"]
  | "LoadOp" | "ExtractOp" =>
    match args with
    | source :: _ => return [← elementOf source]
    | [] => throw .wrongKind
  | "EmptyOp" =>
    match args with
    | sizes :: element :: _ => return [← rankedType "tensor" sizes element]
    | _ => throw .wrongKind
  | "GeneralizeOp" => return [TypeText.handle none]
  | _ => leadingTypes args

def native (dialect cls : String) (args : List Value) (named : List (String × Value) := []) :
    Build Value := do
  let results ← nativeResults cls args
  nativeWith dialect cls args named results (if cls = "PadOp" then 1 else 0) []

/-! ## Constants -/

def constantOp (type value : Value) : Build Value := native "arith" "ConstantOp" [type, value]

def indexConstantOp (value : Value) : Build Value := constantOp (.type "index") value

/-! ## Operations with regions -/

/-- A branch: its first region has a block at once, its second only with an else part. -/
def ifOp (condition : Value) (hasElse : Bool) : Build Value := do
  let made ← nativeWith "scf" "IfOp" [condition] [("hasElse", .bool hasElse)] [] 2 []
  let id ← opId made
  let _ ← appendBlock id 0 []
  if hasElse then
    let _ ← appendBlock id 1 []
  return made

def forOp (lower upper step : Value) (carried : List Value) : Build Value := do
  let types ← carried.mapM typeOf
  let args := [lower, upper, step] ++ (if carried.isEmpty then [] else [.listed carried])
  let made ← nativeWith "scf" "ForOp" args [] types 1 []
  let _ ← appendBlock (← opId made) 0 ("index" :: types)
  return made

def functionType (type : Value) : Build Value := do
  match type with
  | .tuple [inputs, results] =>
    return .type (TypeText.function (← typeTexts (← items inputs)) (← typeTexts (← items results)))
  | .tuple _ => throw .outOfRange
  | v => return v

def funcOp (name type visibility : Value) : Build Value := do
  let type ← functionType type
  nativeWith "func" "FuncOp" [] [("name", name), ("type", type), ("visibility", visibility)] [] 1
    [("sym_name", .attribute "StringAttr" name), ("function_type", .attribute "TypeAttr" type)]

def callOp (callee : Value) (args : List Value) : Build Value := do
  let results ← match callee with
    | .op id _ =>
      match (← op id).attributes.lookup "function_type" with
      | some t => pure (TypeText.signature (← typeText t.payload)).2
      | none => throw .noAttribute
    | .none => pure []
    | v => typeTexts (← items v)
  nativeWith "func" "CallOp" (callee :: args) [] results 0 []

def sequenceOp (mode results target : Value) : Build Value := do
  let type ← match target with
    | .type t => pure t
    | v => typeOf v
  let made ← nativeWith "transform" "SequenceOp"
    [mode, results, target] [] (← leadingTypes [results]) 1 []
  let _ ← appendBlock (← opId made) 0 [type]
  return made

def matchOpNames (target names : Value) : Build Value :=
  nativeWith "transform.structured" "MatchOp" [target, names] [("match_op_names", .bool true)]
    [TypeText.handle none] 0 []

def moduleOp : Build Value := do
  let made ← nativeWith "_builtin_ops_gen" "ModuleOp" [] [] [] 1 []
  let _ ← appendBlock (← opId made) 0 []
  return made

def program (source : Value) : Build Value := do
  let id ← createOp "builtin.module" "builtin.ModuleOp" [] [] [] 1 (.module (← now source))
  let _ ← appendBlock id 0 []
  return .module id

end Polyloom.Build
