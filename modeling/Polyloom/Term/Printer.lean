import Polyloom.Term.Relation

/-!
Terms as text on one line, with as few brackets as the precedence of the operators allows.
-/

namespace Polyloom.Term

def precedence : Term → Nat
  | .num q => if q < 0 then 40 else if q.den = 1 then 1000 else 50
  | .sym _ | .infinity | .undefined => 1000
  | .sum _ => 40
  | .prod (.num c :: _) => if c < 0 then 40 else 50
  | .prod _ => 50
  | .pow _ _ => 60
  | .floor _ | .mod _ _ => 1000

def bracketed (text : String) (doIt : Bool) : String :=
  if doIt then "(" ++ text ++ ")" else text

def numText (q : Rat) : String :=
  if q.den = 1 then q.num.repr else q.num.repr ++ "/" ++ q.den.repr

def joinSum : List (String × Bool) → String
  | [] => ""
  | first :: rest =>
    let signed : String × Bool → Bool × String := fun (text, brackets) =>
      match text.toList with
      | '-' :: body => (true, bracketed (String.ofList body) brackets)
      | _ => (false, bracketed text brackets)
    let (negative, head) := signed first
    rest.foldl (fun acc part =>
        let (minus, body) := signed part
        acc ++ (if minus then " - " else " + ") ++ body)
      ((if negative then "-" else "") ++ head)

def joinFraction (above below : List String) : String :=
  let top := "*".intercalate (if above.isEmpty then ["1"] else above)
  match below with
  | [] => top
  | [b] => top ++ "/" ++ b
  | bs => top ++ "/(" ++ "*".intercalate bs ++ ")"

def textWithin : Nat → Term → String
  | 0, _ => ""
  | fuel + 1, t =>
    match t with
    | .num q => numText q
    | .sym s => s
    | .infinity => "zoo"
    | .undefined => "nan"
    | .floor a => "floor(" ++ textWithin fuel a ++ ")"
    | .mod a b => "Mod(" ++ textWithin fuel a ++ ", " ++ textWithin fuel b ++ ")"
    | .sum ts =>
      joinSum ((writtenTerms ts).map fun s =>
        (textWithin fuel s, s.precedence < 40 || (match s with
          | .sum _ => true
          | _ => false)))
    | .prod ts =>
      let (c, rest) := match ts with
        | .num c :: rest => (c, rest)
        | rest => (1, rest)
      let factors := writtenFactors rest
      let isDivisor : Term → Bool := fun s => match s with
        | .pow _ (.num e) => e < 0
        | .pow _ (.prod (.num e :: _)) => e < 0
        | _ => false
      let tight (s : Term) : String := bracketed (textWithin fuel s) (s.precedence ≤ 50)
      let flipped (s : Term) : Term := match s with
        | .pow b e => power b (neg e)
        | s => s
      let above := (if c.num.natAbs = 1 then [] else [c.num.natAbs.repr])
        ++ (factors.filter (!isDivisor ·)).map tight
      let below := (if c.den = 1 then [] else [c.den.repr])
        ++ (factors.filter isDivisor).map fun s => tight (flipped s)
      (if c < 0 then "-" else "") ++ joinFraction above below
    | .pow b e =>
      let base := bracketed (textWithin fuel b) (b.precedence ≤ 60)
      match e with
      | .num q =>
        if q = -1 then "1/" ++ base
        else if q = 1 / 2 then "sqrt(" ++ textWithin fuel b ++ ")"
        else if q = -1 / 2 then "1/sqrt(" ++ textWithin fuel b ++ ")"
        else base ++ "**" ++ bracketed (numText q) ((Term.num q).precedence < 60)
      | e => base ++ "**" ++ bracketed (textWithin fuel e) (e.precedence < 60)

def text (t : Term) : String :=
  textWithin (2 * t.size) t

end Polyloom.Term

namespace Polyloom

def Proposition.text : Proposition → String
  | .truth b => if b then "True" else "False"
  | .compare op l r =>
    match op with
    | .eq => "Eq(" ++ l.text ++ ", " ++ r.text ++ ")"
    | .ne => "Ne(" ++ l.text ++ ", " ++ r.text ++ ")"
    | .le => l.text ++ " <= " ++ r.text
    | .lt => l.text ++ " < " ++ r.text
    | .ge => l.text ++ " >= " ++ r.text
    | .gt => l.text ++ " > " ++ r.text

end Polyloom
