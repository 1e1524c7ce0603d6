import Polyloom.Ir.AttributeBuilder
import Polyloom.Ir.Generic

/-!
Definitions of operations.

A definition lists the results, operands, attributes, regions and successors of an operation.
It decides how the operation is constructed, how each part is read by name, and which
attributes may be changed or taken away.
-/

namespace Polyloom

inductive Arity where
  | one
  | optional
  | many
  deriving DecidableEq, Repr

def Arity.segment : Arity → Segment
  | .one => .single
  | .optional => .optional
  | .many => .variadic

inductive ResultSource where
  | given (arity : Arity)
  | sameAsFirst
  | inferred
  deriving DecidableEq, Repr

inductive AttributeInput where
  | raw
  | required (builder : String)
  | optional (builder : String)
  | flag
  | absent
  deriving DecidableEq, Repr

inductive AttributeReader where
  | hidden
  | mandatory (cls : String)
  | optional (cls : String)
  | flag
  deriving DecidableEq, Repr

structure ResultField where
  name : String
  source : ResultSource
  readable : Bool := true
  deriving DecidableEq, Repr

inductive Field where
  | operand (name : String) (arity : Arity) (readable : Bool)
  | attribute (name parameter : String) (input : AttributeInput) (reader : AttributeReader)
  deriving DecidableEq, Repr

structure OpDefinition where
  cls : String
  name : String
  results : List ResultField := []
  fields : List Field := []
  regions : List String := []
  successors : List (String × Arity) := []
  segmented : Bool := false
  constructible : Bool := true
  /-- The context that attributes are built in; some definitions give none that is one. -/
  hasContext : Bool := true
  deriving DecidableEq, Repr

namespace ResultField

/-! ## Writing definitions -/

def one (name : String) : ResultField := ⟨name, .given .one, true⟩

def maybe (name : String) : ResultField := ⟨name, .given .optional, true⟩

def many (name : String) : ResultField := ⟨name, .given .many, true⟩

def like (name : String) : ResultField := ⟨name, .sameAsFirst, true⟩

def inferred (name : String) : ResultField := ⟨name, .inferred, true⟩

def unread (r : ResultField) : ResultField := { r with readable := false }

end ResultField

namespace Field

def one (name : String) : Field := .operand name .one true

def maybe (name : String) : Field := .operand name .optional true

def many (name : String) : Field := .operand name .many true

def unnamedMany (name : String) : Field := .operand name .many false

def raw (name : String) (reader : AttributeReader := .hidden) : Field :=
  .attribute name name .raw reader

def attr (name builder : String) (reader : AttributeReader := .hidden) : Field :=
  .attribute name name (.required builder) reader

def attr? (name builder : String) (reader : AttributeReader := .hidden) : Field :=
  .attribute name name (.optional builder) reader

def text (name : String) : Field := attr name "StrAttr" (.mandatory "StringAttr")

def text? (name : String) : Field := attr? name "StrAttr" (.optional "StringAttr")

def int? (name : String) : Field := attr? name "I64Attr" (.optional "IntegerAttr")

def bool? (name : String) : Field := attr? name "BoolAttr" (.mandatory "BoolAttr")

def symbol : Field := attr "sym_name" "SymbolNameAttr" (.mandatory "StringAttr")

def flag (name : String) : Field := .attribute name name .flag .flag

def stored (name : String) (reader : AttributeReader) : Field := .attribute name name .absent reader

/-! ## Parameters -/

def requiredParam? : Field → Option Param
  | .operand name .one _ | .operand name .many _ => some (.required name)
  | .attribute _ parameter .raw _ | .attribute _ parameter (.required _) _ =>
    some (.required parameter)
  | _ => none

def optionalParam? : Field → Option Param
  | .operand name .optional _ => some (.keyword name)
  | .attribute _ parameter (.optional _) _ | .attribute _ parameter .flag _ =>
    some (.keyword parameter)
  | _ => none

def operand? : Field → Option (String × Arity × Bool)
  | .operand name arity readable => some (name, arity, readable)
  | _ => none

end Field

namespace OpDefinition

def of (cls name : String) (fields : List Field := []) (results : List ResultField := []) :
    OpDefinition :=
  { cls, name, fields, results }

/-- Definitions of a dialect, whose classes and names start with it. -/
def inDialect (dialect : String) (ds : List OpDefinition) : List OpDefinition :=
  ds.map fun d => { d with cls := dialect ++ "_gen." ++ d.cls, name := dialect ++ "." ++ d.name }

open Build

/-- Results that are typed by an argument, then all that is required, then what is optional. -/
def params (d : OpDefinition) : List Param :=
  (d.results.filterMap fun r => match r.source with
    | .given _ => some (Param.required r.name)
    | _ => none)
  ++ d.fields.filterMap Field.requiredParam?
  ++ d.successors.map (fun (name, _) => .required name)
  ++ d.fields.filterMap Field.optionalParam?
  ++ [.keyword "loc", .keyword "ip"]

def operandFields (d : OpDefinition) : List (String × Arity × Bool) :=
  d.fields.filterMap Field.operand?

def kind (d : OpDefinition) : OpKind :=
  { name := d.name, cls := d.cls, regions := d.regions.length,
    segments := if d.segmented then some (d.operandFields.map fun (_, arity, _) => arity.segment)
      else none }

def context (d : OpDefinition) : Value :=
  if d.hasContext then AttributeBuilder.defaultContext else .ref "context"

/-! ## Construction -/

def operandsOf (d : OpDefinition) (arity : Arity) (v : Value) : Build (List Value) := do
  match arity, v with
  | .one, v => return [← asValue v]
  | .optional, .none => return if d.segmented then [.none] else []
  | .optional, v => return [← asValue v]
  | .many, v =>
    let vs ← asValues v
    return if d.segmented then [.listed vs] else vs

def collectOperands (d : OpDefinition) (args : List (String × Value)) :
    List (String × Arity × Bool) → Build (List Value)
  | [] => return []
  | (name, arity, _) :: rest => do
    let vs ← d.operandsOf arity ((args.lookup name).getD .none)
    return vs ++ (← collectOperands d args rest)

def attributeOf (d : OpDefinition) (input : AttributeInput) (v : Value) : Build (Option Value) := do
  match input with
  | .raw => return some v
  | .required builder => return some (← AttributeBuilder.make builder v d.context)
  | .optional builder =>
    if v.isNone then return none
    return some (← AttributeBuilder.make builder v d.context)
  | .flag =>
    if ← truth v then
      AttributeBuilder.checkContext d.context
      return some AttributeBuilder.unit
    return none
  | .absent => return none

def collectAttributes (d : OpDefinition) (args : List (String × Value)) :
    List Field → Build (List (String × Value))
  | [] => return []
  | .attribute name parameter input _ :: rest => do
    match ← d.attributeOf input ((args.lookup parameter).getD .none) with
    | some v => return (name, v) :: (← collectAttributes d args rest)
    | none => collectAttributes d args rest
  | _ :: rest => collectAttributes d args rest

def resultTypes (operands : List Value) (source : ResultSource)
    (v : Value) : Build (List Value) := do
  match source with
  | .given .one => return [v]
  | .given .optional => return if v.isNone then [] else [v]
  | .given .many => items v
  | .sameAsFirst =>
    match operands with
    | first :: _ => return [.type (← typeOf first)]
    | [] => throw .outOfRange
  | .inferred => return [.type "?"]

def collectResults (operands : List Value) (args : List (String × Value)) :
    List ResultField → Build (List Value)
  | [] => return []
  | r :: rest => do
    let ts ← resultTypes operands r.source ((args.lookup r.name).getD .none)
    return ts ++ (← collectResults operands args rest)

def checkSuccessors (args : List (String × Value)) : List (String × Arity) → Build Unit
  | [] => return ()
  | (name, .many) :: rest => do
    let _ ← items ((args.lookup name).getD .none)
    checkSuccessors args rest
  | _ :: rest => checkSuccessors args rest

def build (d : OpDefinition) (args : List (String × Value)) : Build Value := do
  let operands ← d.collectOperands args d.operandFields
  let attributes ← d.collectAttributes args d.fields
  let results ← collectResults operands args d.results
  checkSuccessors args d.successors
  generic d.kind operands attributes results

/-- Construct an operation from the arguments of a call.  Without a constructor of its own,
the definition is a view of an operation that is there. -/
def construct (d : OpDefinition) (call : CallArgs Value) : Build Value := do
  if d.constructible then
    let values ← settle (bindParams d.params call)
    d.build ((d.params.map Param.name).zip values)
  else
    match call.positional, call.named with
    | [.op id _], [] => return .op id d.cls
    | [_], [] => throw .rejected
    | _, _ => throw .wrongKind

def buildGeneric (d : OpDefinition) (call : CallArgs Value) : Build Value := do
  let values ← settle (bindParams
    [.keyword "attributes", .keyword "operands", .keyword "results", .keyword "successors",
     .keyword "regions", .keyword "loc", .keyword "ip"] call)
  match values with
  | [attributes, operands, results, _, regions, _, _] =>
    let entries := match attributes with
      | .dict entries => entries.map fun (k, v) => (k.text, v)
      | _ => []
    let operands ← if operands.isNone then pure [] else items operands
    let results ← if results.isNone then pure [] else items results
    let regions := match regions with
      | .int n => n.toNat
      | _ => d.kind.regions
    let made ← generic { d.kind with regions } operands entries results
    return .op (← opId made) "Operation"
  | _ => throw .wrongKind

/-! ## Reading -/

def variadicPart (vs : List Value) (start fields : Nat) : List Value :=
  (vs.drop start).take (vs.length + 1 - fields)

def readPlain (vs : List Value) (index fields : Nat) (arity : Arity) : Build Value := do
  match arity with
  | .one =>
    match vs[index]? with
    | some v => return v
    | none => throw .outOfRange
  | .optional => return (vs[index]?).getD .none
  | .many => return .listed (variadicPart vs index fields)

def groupSizes (o : OpRecord) : Build (List Nat) := do
  match o.attributes.lookup segmentSizes with
  | some v =>
    return (← items v.payload).map fun n => (n.int?.getD 0).toNat
  | none => throw .noKey

def readGroup (o : OpRecord) (index : Nat) (arity : Arity) : Build Value := do
  let sizes ← groupSizes o
  match sizes[index]? with
  | none => throw .outOfRange
  | some size =>
    let group := (o.operands.drop ((sizes.take index).foldr (· + ·) 0)).take size
    match arity with
    | .one =>
      match group with
      | v :: _ => return v
      | [] => throw .outOfRange
    | .optional => return group.head?.getD .none
    | .many => return .listed group

def position? {β : Type} (name : String) (nameOf : β → String) (readable : β → Bool)
    (fields : List β) : Option (Nat × β) :=
  (fields.zipIdx.find? fun (f, _) => nameOf f = name && readable f).map fun (f, i) => (i, f)

def attributeReader? (d : OpDefinition) (name : String) : Option AttributeReader :=
  d.fields.findSome? fun
    | .attribute n _ _ reader => if n = name && reader ≠ .hidden then some reader else none
    | _ => none

def castAttribute (cls : String) (v : Value) : Value := .attribute cls v.payload

def readAttribute (o : OpRecord) (name : String) (reader : AttributeReader) : Build Value := do
  let found := o.attributes.lookup name
  match reader with
  | .mandatory cls =>
    match found with
    | some v => return castAttribute cls v
    | none => throw .noKey
  | .optional cls => return (found.map (castAttribute cls)).getD .none
  | .flag => return .bool found.isSome
  | .hidden => throw .noAttribute

def resultArity : ResultSource → Arity
  | .given arity => arity
  | _ => .one

def read? (d : OpDefinition) (id : Nat) (name : String) : Build (Option Value) := do
  let o ← op id
  match position? name Prod.fst (fun f => f.2.2) d.operandFields with
  | some (i, _, arity, _) =>
    if d.segmented then return some (← readGroup o i arity)
    else return some (← readPlain o.operands i d.operandFields.length arity)
  | none =>
  match d.attributeReader? name with
  | some reader => return some (← readAttribute o name reader)
  | none =>
  match position? name ResultField.name ResultField.readable d.results with
  | some (i, r) =>
    return some (← readPlain (o.results.map TypedId.value) i d.results.length
      (resultArity r.source))
  | none =>
  match d.regions.idxOf? name with
  | some i =>
    if i < o.regions.length then return some (.region id i) else throw .outOfRange
  | none => return none

/-! ## Changing -/

def writeAttribute (id : Nat) (name : String) (reader : AttributeReader)
    (v : Value) : Build Unit := do
  let drop : Build Unit := do
    if ((← op id).attributes.lookup name).isSome then delAttribute id name
  match reader with
  | .mandatory _ =>
    if v.isNone then throw (.badValue "'None' not allowed as value for mandatory attributes")
    setAttribute id name v
  | .optional _ => if v.isNone then drop else setAttribute id name v
  | .flag => if ← truth v then setAttribute id name AttributeBuilder.unit else drop
  | .hidden => throw .noAttribute

def deleteAttribute (id : Nat) (name : String) : AttributeReader → Build Unit
  | .optional _ | .flag => delAttribute id name
  | _ => throw .noAttribute

end OpDefinition

end Polyloom
