import Polyloom.Binding.Patch

/-!
The command line: patch the source of a native binding in place, once.
-/

open Polyloom Binding

def readIfPresent (name : String) : IO (Option String) := do
  try return some (← IO.FS.readFile name) catch _ => return none

def patchOnDisk (kind : PatchKind) (name : String) : IO Unit := do
  let text ← IO.FS.readFile name
  let kept ← readIfPresent (backupName name)
  let file := PatchedFile.patch kind ⟨text.toList, kept.map String.toList⟩
  if kept.isNone then
    IO.FS.writeFile (backupName name) (String.ofList (file.backup.getD []))
    IO.FS.writeFile name (String.ofList file.text)

def main (args : List String) : IO UInt32 := do
  match args with
  | [] =>
    IO.eprintln "a file name is needed"
    return 1
  | name :: _ =>
    match kindOfName name with
    | .ok kind =>
      patchOnDisk kind name
      return 0
    | .error fault =>
      IO.eprintln (fault.message.getD "")
      return 1
