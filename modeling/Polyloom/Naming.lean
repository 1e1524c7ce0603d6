/-!
Distinct names for values that print alike.

A printer may give the same name to many values.  The table remembers, for every
printed name, the values that were asked for under it and the name each was given:
the first keeps the printed name, the next ones get one tick more each.
-/

namespace Polyloom

/-- For every printed name, in the order of the first request, its values and their names. -/
abbrev NameTable (ι : Type) := List (String × List (ι × String))

namespace NameTable

variable {ι : Type} [BEq ι]

/-- The name that the `k`-th value under one printed name is given. -/
def ticked (printed : String) (k : Nat) : String :=
  printed ++ String.ofList (List.replicate k '\'')

def entries (table : NameTable ι) (printed : String) : List (ι × String) :=
  (table.lookup printed).getD []

def store (printed : String) (values : List (ι × String)) : NameTable ι → NameTable ι
  | [] => [(printed, values)]
  | (p, vs) :: rest =>
    if p = printed then (p, values) :: rest else (p, vs) :: store printed values rest

def request (table : NameTable ι) (value : ι) (printed : String) : String × NameTable ι :=
  let known := table.entries printed
  match known.lookup value with
  | some name => (name, table)
  | none =>
    let name := ticked printed known.length
    (name, table.store printed (known ++ [(value, name)]))

/-- Requests one after the other; a gap among them forgets all names. -/
def requestAll (table : NameTable ι) :
    List (Option (ι × String)) → List (Option String) × NameTable ι
  | [] => ([], table)
  | none :: rest =>
    let (given, table) := requestAll [] rest
    (none :: given, table)
  | some (value, printed) :: rest =>
    let (name, table) := table.request value printed
    let (given, table) := requestAll table rest
    (some name :: given, table)

def names (table : NameTable ι) : List (String × List String) :=
  table.map fun (printed, values) => (printed, values.map Prod.snd)

end NameTable

end Polyloom
