/-!
Names of symbols as they are written in formulas: Greek letters for their names, and parts
after an underscore or digits at the end as subscripts.
-/

namespace Polyloom.Text

def greekLetters : List (String × String) :=
  [("alpha", "α"), ("beta", "β"), ("gamma", "γ"), ("delta", "δ"), ("epsilon", "ε"), ("zeta", "ζ"),
   ("eta", "η"), ("theta", "θ"), ("iota", "ι"), ("kappa", "κ"), ("lamda", "λ"), ("lambda", "λ"),
   ("mu", "μ"), ("nu", "ν"), ("xi", "ξ"), ("omicron", "ο"), ("pi", "π"), ("rho", "ρ"),
   ("sigma", "σ"), ("tau", "τ"), ("upsilon", "υ"), ("phi", "φ"), ("chi", "χ"), ("psi", "ψ"),
   ("omega", "ω"),
   ("Alpha", "Α"), ("Beta", "Β"), ("Gamma", "Γ"), ("Delta", "Δ"), ("Epsilon", "Ε"), ("Zeta", "Ζ"),
   ("Eta", "Η"), ("Theta", "Θ"), ("Iota", "Ι"), ("Kappa", "Κ"), ("Lamda", "Λ"), ("Lambda", "Λ"),
   ("Mu", "Μ"), ("Nu", "Ν"), ("Xi", "Ξ"), ("Omicron", "Ο"), ("Pi", "Π"), ("Rho", "Ρ"),
   ("Sigma", "Σ"), ("Tau", "Τ"), ("Upsilon", "Υ"), ("Phi", "Φ"), ("Chi", "Χ"), ("Psi", "Ψ"),
   ("Omega", "Ω")]

def subscripts : List (Char × Char) :=
  [('0', '₀'), ('1', '₁'), ('2', '₂'), ('3', '₃'), ('4', '₄'), ('5', '₅'), ('6', '₆'), ('7', '₇'),
   ('8', '₈'), ('9', '₉'), ('a', 'ₐ'), ('e', 'ₑ'), ('h', 'ₕ'), ('i', 'ᵢ'), ('j', 'ⱼ'), ('k', 'ₖ'),
   ('l', 'ₗ'), ('m', 'ₘ'), ('n', 'ₙ'), ('o', 'ₒ'), ('p', 'ₚ'), ('r', 'ᵣ'), ('s', 'ₛ'), ('t', 'ₜ'),
   ('u', 'ᵤ'), ('v', 'ᵥ'), ('x', 'ₓ')]

def letterName (s : String) : String := (greekLetters.lookup s).getD s

def splitSymbol (s : String) : String × List String :=
  match s.splitOn "_" with
  | [] => (s, [])
  | name :: subs =>
    let cs := name.toList
    let digits := (cs.reverse.takeWhile Char.isDigit).reverse
    let letters := cs.take (cs.length - digits.length)
    if digits ≠ [] ∧ letters ≠ [] ∧ letters.all Char.isAlpha then
      (String.ofList letters, String.ofList digits :: subs)
    else (name, subs)

def subscript? (s : String) : Option String :=
  (s.toList.mapM fun c => subscripts.lookup c).map String.ofList

def prettySymbol (s : String) : String :=
  let (name, subs) := splitSymbol s
  match subs.mapM subscript? with
  | some below => letterName name ++ " ".intercalate below
  | none => letterName name ++ "_" ++ "_".intercalate (subs.map letterName)

end Polyloom.Text
