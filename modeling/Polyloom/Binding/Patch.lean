import Polyloom.Fault
import Polyloom.Text.Pieces
import Polyloom.Text.Quoted

/-!
Patching the sources of a native binding.

Header files get an export marker in front of the classes they define; other files lose the
module-local option of their registrations.  A file is patched once: its backup is both the
way back and the sign that the work was done.
-/

namespace Polyloom.Binding

def exportMarker : List Char := "PYBIND11_EXPORT".toList

def classHead? (line : List Char) : Option (List Char) :=
  let opening := "class ".toList
  let closing := " \x7b".toList
  if opening.isPrefixOf line && closing.isSuffixOf (line.drop opening.length) then
    some ((line.drop opening.length).take (line.length - opening.length - closing.length))
  else none

def markLine (line : List Char) : List Char :=
  match classHead? line with
  | some head =>
    if exportMarker.isPrefixOf head then line
    else "class ".toList ++ exportMarker ++ ' ' :: head ++ " \x7b".toList
  | none => line

def contextClass : List Char := "class DefaultingPyMlirContext".toList

def markedContextClass : List Char := "class PYBIND11_EXPORT DefaultingPyMlirContext".toList

def exportClasses (text : List Char) : List Char :=
  Text.replaceAll contextClass markedContextClass
    (['\n'].intercalate ((Text.pieces ['\n'] text).map markLine))

def dropModuleLocal (text : List Char) : List Char :=
  Text.replaceAll ", py::module_local()".toList [] text

inductive PatchKind where
  | exports
  | moduleLocal
  deriving DecidableEq, Repr

def PatchKind.apply : PatchKind → List Char → List Char
  | .exports => exportClasses
  | .moduleLocal => dropModuleLocal

structure PatchedFile where
  text : List Char
  backup : Option (List Char)
  deriving DecidableEq, Repr

def PatchedFile.patch (kind : PatchKind) (file : PatchedFile) : PatchedFile :=
  match file.backup with
  | some _ => file
  | none =>
    let text := Text.universalNewlines file.text
    ⟨kind.apply text, some text⟩

def PatchedFile.patchTimes (kind : PatchKind) (file : PatchedFile) : Nat → PatchedFile
  | 0 => file
  | n + 1 => (file.patchTimes kind n).patch kind

def kindOfName (name : String) : Except Fault PatchKind :=
  if Text.endsWith name "IRModule.h" || Text.endsWith name "PybindUtils.h" then .ok .exports
  else if Text.endsWith name "IRCore.cpp" || Text.endsWith name "IRAffine.cpp" then .ok .moduleLocal
  else .error (.unsupported ("unknown fp fp=" ++ Text.quoted name))

def backupName (name : String) : String :=
  name ++ ".bkup"

end Polyloom.Binding
