import Polyloom.Term.Order

/-!
Sums in normal form: nested sums are flattened, numbers added up and multiples of the same
term collected.
-/

namespace Polyloom.Term

def addMultiple (t : Term) (c : Rat) : List (Term × Rat) → List (Term × Rat)
  | [] => [(t, c)]
  | (u, d) :: rest => if u = t then (u, d + c) :: rest else (u, d) :: addMultiple t c rest

def multiple (c : Rat) (t : Term) : Term :=
  if c = 1 then t
  else match t with
    | .prod factors => .prod (.num c :: factors)
    | t => .prod [.num c, t]

def collect : List Term → Rat × List (Term × Rat)
  | [] => (0, [])
  | t :: rest =>
    let (constant, multiples) := collect rest
    match t with
    | .num q => (constant + q, multiples)
    | t => (constant, addMultiple t.coefficient.2 t.coefficient.1 multiples)

def ofMembers (members : List Term) : Term :=
  match arrange members with
  | [] => zero
  | [t] => t
  | ts => .sum ts

def members (constant : Rat) (multiples : List (Term × Rat)) : List Term :=
  (if constant = 0 then [] else [.num constant])
    ++ (multiples.filter fun (_, c) => c ≠ 0).map fun (t, c) => multiple c t

def add (terms : List Term) : Term :=
  let flat := terms.flatMap summands
  let finite := flat.filter (· ≠ .infinity)
  if flat.contains .undefined then .undefined
  else
    let (constant, multiples) := collect finite
    match flat.length - finite.length with
    | 0 => ofMembers (members constant multiples)
    | 1 => ofMembers (.infinity :: members 0 multiples)
    | _ => .undefined

def scaleMember (c : Rat) : Term → Term
  | .num q => .num (c * q)
  | t => multiple (c * t.coefficient.1) t.coefficient.2

end Polyloom.Term
