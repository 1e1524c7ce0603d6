import Polyloom.Help.Align
import Polyloom.Text.WordChar
import Polyloom.Yaml.Load

/-!
The listing of passes as a document.

Passes stand at the left edge after two dashes, their options two columns deeper, and the
choices of an option deeper still.  With a few marks exchanged the listing is a document that
maps every pass to the list of its options; explanations become comments.
-/

namespace Polyloom.Help

def markPass (line : List Char) : List Char :=
  match line with
  | '-' :: '-' :: rest =>
    let isNameChar := fun c => Text.isWord c || c = '-'
    let name := rest.takeWhile isNameChar
    if name.isEmpty then line else name ++ ':' :: rest.dropWhile isNameChar
  | _ => line

def exchangeStart (start new line : List Char) : List Char :=
  if start.isPrefixOf line then new ++ line.drop start.length else line

def markLine (line : List Char) : List Char :=
  let line := Text.replaceAll " - ".toList " # ".toList line
  let line := markPass line
  let line := exchangeStart "  --".toList " - ".toList line
  let line := exchangeStart "       =".toList "     - ".toList line
  Text.replaceAll "=<value>".toList "=<value>:".toList line

def document (lines : List (List Char)) : List Char :=
  ((Text.fullLines (Text.dedent lines.flatten)).map markLine).flatten

def read (lines : List (List Char)) : Except Fault Datum :=
  match lineUp lines 0 with
  | (_, some fault) => .error fault
  | (aligned, none) => Yaml.load (document aligned)

end Polyloom.Help
