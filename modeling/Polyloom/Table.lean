/-!
Tables: lists of keys and values, in the order in which the keys were first put.
-/

namespace Polyloom.Table

variable {κ β : Type} [DecidableEq κ]

/-- A later value for a key takes the place of the earlier one. -/
def put (key : κ) (value : β) : List (κ × β) → List (κ × β)
  | [] => [(key, value)]
  | (k, v) :: rest => if k = key then (k, value) :: rest else (k, v) :: put key value rest

def putAll (table entries : List (κ × β)) : List (κ × β) :=
  entries.foldl (fun t (k, v) => put k v t) table

end Polyloom.Table
