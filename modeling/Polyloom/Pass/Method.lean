import Polyloom.Pass.Pipeline
import Polyloom.Text.Margin

/-!
Methods for passes: made from a table of passes and their options, called on a pipeline, and
written out as text.

An option of the table is a flag, a number, a text or a choice.  All but flags also take
lists, which are written with commas.
-/

namespace Polyloom

structure PassMethod where
  pass : String
  options : List PassOption
  deriving DecidableEq, Repr, Inhabited

namespace PassMethod

def identifier (name : String) : String := Text.replace name "-" "_"

def valueKinds : List String :=
  ["<long>", "<ulong>", "<number>", "<uint>", "<int>", "<string>", "<pass-manager>"]

def parameterName (name : String) : String :=
  identifier (if name = "global" then "global_" else name)

def sides (text : String) : Except Fault (String × String) :=
  match Text.splitOn text "=" with
  | [name, kind] => .ok (name, kind)
  | _ => .error (.badValue "")

def option : Datum → Except Fault PassOption
  | .str text =>
    if Text.contains text "=" then do
      let (name, kind) ← sides text
      if kind ∈ valueKinds then return ⟨parameterName name, true⟩ else throw (.failure text)
    else .ok ⟨parameterName text, false⟩
  | .map [(key, _)] =>
    match key with
    | .str text => do
      let (name, _) ← sides text
      return ⟨identifier name, true⟩
    | _ => .error .noAttribute
  | _ => .error (.assertion "")

def optionsOf : Datum → Except Fault (List PassOption)
  | .null => .ok []
  | d => match d.elements? with
      | some items => items.mapM option
      | none => .error .wrongKind

def ofEntry (entry : Datum × Datum) : Except Fault PassMethod := do
  let options ← optionsOf entry.2
  match entry.1 with
  | .str pass => return ⟨pass, options⟩
  | _ => throw .noAttribute

def ofTable : Datum → Except Fault (List PassMethod)
  | .map entries => entries.mapM ofEntry
  | _ => .error .noAttribute

def call (m : PassMethod) (args : CallArgs Datum) : PipelineCall Unit :=
  Pipeline.callMethod m.pass m.options args

/-! ## Text -/

def margin (depth : Nat) : List Char := List.replicate (4 * depth) ' '

def printed (depth : Nat) (text : String) : List Char :=
  Text.indent (margin depth) text.toList ++ ['\n']

def joinText (name : String) : List Char :=
  printed 2 ("if " ++ name ++ " is not None and isinstance(" ++ name ++ ", (list, tuple)):")
    ++ printed 3 (name ++ " = ','.join(map(str, " ++ name ++ "))")

def blockText (depth : Nat) (lines : List String) : List Char :=
  printed depth (String.ofList (Text.dedent ("\n".intercalate lines).toList))

def render (m : PassMethod) : List Char :=
  let name := identifier m.pass
  let quotedPass := "\"" ++ m.pass ++ "\""
  if m.options.isEmpty then
    blockText 1
      ["            def " ++ name ++ "(self):",
       "               self._add_pass(" ++ quotedPass ++ ")",
       "               return self",
       "        "]
  else
    let params := ", ".intercalate (m.options.map fun o => o.name ++ "=None")
    let passed := ", ".intercalate (m.options.map fun o => o.name ++ "=" ++ o.name)
    printed 1 ("def " ++ name ++ "(self, " ++ params ++ "):")
      ++ ((m.options.filter PassOption.takesList).map fun o => joinText o.name).flatten
      ++ blockText 2
        ["               self._add_pass(" ++ quotedPass ++ ", " ++ passed ++ ")",
         "               return self",
         "        "]

def renderTable (table : Datum) : Except Fault String := do
  return String.ofList ((← ofTable table).map render).flatten

end PassMethod

end Polyloom
