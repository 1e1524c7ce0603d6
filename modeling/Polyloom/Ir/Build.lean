import Polyloom.Ir.Session

/-!
Steps of a build: making values, operations and blocks, entering and leaving insertion
points, and keeping lists and objects.

Every step records what it hands over.  A step that fails keeps what it did.
-/

namespace Polyloom.Build

/-! ## Recording and failing -/

def record (e : Event) : Build Unit := modify fun s => { s with events := s.events ++ [e] }

def settle {α : Type} (outcome : Except Fault α) : Build α := MonadExcept.ofExcept outcome

def attempt {α : Type} (step : Build α) : Build (Except Fault α) := liftM step.run

def now (v : Value) : Build Value := return (← get).frozen v

def nowAll (vs : List Value) : Build (List Value) := do
  let s ← get
  return vs.map s.frozen

def nowNamed (vs : List (String × Value)) : Build (List (String × Value)) := do
  let s ← get
  return vs.map fun (k, v) => (k, s.frozen v)

def require (condition : Bool) (text : String) : Build Unit :=
  if condition then return () else throw (.assertion text)

/-! ## Lists and objects -/

def newList (items : List Value) : Build Value := do
  let s ← get
  set { s with lists := s.lists ++ [items] }
  return .list s.lists.length

def setList (cell : Nat) (items : List Value) : Build Unit :=
  modify fun s => { s with lists := s.lists.set cell items }

def items? (v : Value) : Build (Option (List Value)) := do
  match v.payload with
  | .list cell => return some ((← get).listItems cell)
  | .listed items | .tuple items => return some items
  | .str s => return some (s.toList.map fun c => .str c.toString)
  | .dict entries => return some (entries.map Prod.fst)
  | _ => return none

def items (v : Value) : Build (List Value) := do
  match ← items? v with
  | some vs => return vs
  | none => throw .wrongKind

def length (v : Value) : Build Nat := return (← items v).length

def newObject (o : Object) : Build Value := do
  let s ← get
  set { s with objects := s.objects ++ [o] }
  return .object s.objects.length

def object (id : Nat) : Build Object := return ((← get).objects[id]?).getD default

def setObject (id : Nat) (o : Object) : Build Unit :=
  modify fun s => { s with objects := s.objects.set id o }

def truth (v : Value) : Build Bool := do
  match v with
  | .none => return false
  | .bool b => return b
  | .int n => return n ≠ 0
  | .real bits => return bits <<< 1 ≠ 0
  | .str s => return s ≠ ""
  | .list _ | .listed _ | .tuple _ | .dict _ => return (← length v) ≠ 0
  | _ => return true

/-! ## Values, blocks and operations -/

def freshId (type : String) : Build TypedId := do
  let s ← get
  set { s with values := s.values + 1 }
  return ⟨s.values, type⟩

def freshIds : List String → Build (List TypedId)
  | [] => return []
  | type :: rest => do
    let v ← freshId type
    return v :: (← freshIds rest)

def op (id : Nat) : Build OpRecord := return (← get).op id

def modifyOp (id : Nat) (f : OpRecord → OpRecord) : Build Unit :=
  modify fun s => { s with ops := s.ops.modify id f }

def createOp (name cls : String) (operands : List Value) (attributes : List (String × Value))
    (results : List String) (regions : Nat) (how : Creation) : Build Nat := do
  let ids ← freshIds results
  let s ← get
  let number := s.ops.length
  let made : OpRecord :=
    { name, cls, parent := s.current, operands, results := ids, attributes,
      regions := List.replicate regions [] }
  set { s with
    ops := s.ops ++ [made]
    blocks := match s.current with
      | some b => s.blocks.modify b fun block => { block with ops := block.ops ++ [number] }
      | none => s.blocks }
  record (.create number name s.current (ids.map TypedId.value) how)
  return number

def appendBlock (op region : Nat) (types : List String) : Build Nat := do
  let args ← freshIds types
  let s ← get
  let number := s.blocks.length
  let made : BlockRecord := ⟨op, region, args, []⟩
  set { s with
    blocks := s.blocks ++ [made]
    ops := s.ops.modify op fun o =>
      { o with regions := o.regions.modify region (· ++ [number]) } }
  record (.block number op region (args.map TypedId.value))
  return number

def blockAt (op region index : Nat) : Build Nat := do
  match ((← get).regionBlocks op region)[index]? with
  | some b => return b
  | none => throw .outOfRange

def blockArgs (block : Nat) : Build (List Value) :=
  return ((← get).blockOf block).args.map TypedId.value

def setAttribute (id : Nat) (name : String) (value : Value) : Build Unit :=
  modifyOp id fun o => { o with attributes := Table.put name value o.attributes }

def delAttribute (id : Nat) (name : String) : Build Unit := do
  if ((← op id).attributes.lookup name).isNone then throw .noKey
  modifyOp id fun o => { o with attributes := o.attributes.filter fun (k, _) => k ≠ name }

/-! ## Insertion points -/

def newPoint (block : Nat) : Build InsertionPoint := do
  let s ← get
  set { s with points := s.points + 1 }
  return ⟨s.points, block⟩

def enter (p : InsertionPoint) : Build Unit := do
  modify fun s => { s with stack := p :: s.stack }
  record (.enter p)

/-- Leave a point.  Whichever point is asked, the innermost open one is closed. -/
def leave (p : InsertionPoint) : Build Unit := do
  match (← get).stack with
  | [] => throw .rejected
  | closed :: outer =>
    modify fun s => { s with stack := outer }
    record (.exit p closed)

/-- Run a step inside of a block and leave it again, also when the step fails. -/
def within {α : Type} (block : Nat) (step : Build α) : Build α := do
  let p ← newPoint block
  enter p
  let outcome ← attempt step
  leave p
  settle outcome

/-! ## Operands -/

def asValue : Value → Build Value
  | .ssa id type view => return .ssa id type view
  | .op id _ => do
    match (← op id).results with
    | [r] => return r.value
    | _ => throw .rejected
  | _ => throw .rejected

def asValueAll : List Value → Build (List Value)
  | [] => return []
  | v :: rest => do
    let w ← asValue v
    return w :: (← asValueAll rest)

def asValues (v : Value) : Build (List Value) := do
  match v with
  | .op id _ => return (← op id).results.map TypedId.value
  | v =>
    match ← items? v with
    | some vs => asValueAll vs
    | none => throw .rejected

def typeOf (v : Value) : Build String := do
  match ← asValue v with
  | .ssa _ type _ => return type
  | _ => throw .rejected

def typeText : Value → Build String
  | .type text => return text
  | _ => throw .rejected

def typeTexts : List Value → Build (List String)
  | [] => return []
  | v :: rest => do
    let t ← typeText v
    return t :: (← typeTexts rest)

def cast (view : View) : Value → Build Value
  | .ssa id type _ => return .ssa id type view
  | _ => throw .rejected

def castAll (view : View) : List Value → Build (List Value)
  | [] => return []
  | v :: rest => do
    let w ← cast view v
    return w :: (← castAll view rest)

def result : Value → Build Value
  | .op id cls => asValue (.op id cls)
  | _ => throw .noAttribute

def results : Value → Build (List Value)
  | .op id _ => return (← op id).results.map TypedId.value
  | _ => throw .noAttribute

def firstResult (made : Value) : Build Value := do
  match (← results made).head? with
  | some v => return v
  | none => throw .outOfRange

def memberType : Value → Build Value
  | .ssa _ t _ => return .type t
  | _ => throw .noAttribute

def opId : Value → Build Nat
  | .op id _ => return id
  | .module id => return id
  | _ => throw .noAttribute

/-! ## Arguments -/

def bindParams (params : List Param) (call : CallArgs Value) : Except Fault (List Value) := do
  let places := params.filter fun p => !p.keywordOnly
  if places.length < call.positional.length then throw .wrongKind
  let given := (places.zip call.positional).map fun (p, v) => (p.name, v)
  if call.named.any fun (k, _) =>
      (given.lookup k).isSome || !(params.any fun p => p.name = k) then throw .wrongKind
  params.mapM fun p =>
    match given.lookup p.name with
    | some v => .ok v
    | none => match call.named.lookup p.name with
        | some v => .ok v
        | none => match p.default with
            | some v => .ok v
            | none => .error .wrongKind

end Polyloom.Build
