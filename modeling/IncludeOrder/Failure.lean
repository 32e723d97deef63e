import IncludeOrder.Glob
import IncludeOrder.Path

/-!
# IncludeOrder.Failure

What can go wrong, by cause. `FileFault` is what the file system answers, `Failure` is what the
program ends with.

* `Failure.message`  — the text shown for a failure.
* `Failure.exitCode` — the exit code of a run that ends with it.
-/

namespace IncludeOrder

inductive FileFault where
  | notFound
  | denied
  | alreadyThere
  | notDirectory
  | isDirectory
  | tooManyLinks
  /-- The bytes of the file are no text. -/
  | notText
  /-- Any other fault, in the words of the system. -/
  | other (text : Text)
deriving DecidableEq, Repr

namespace FileFault

def message : FileFault → Text
  | notFound => Text.ofString "No such file or directory (os error 2)"
  | denied => Text.ofString "Permission denied (os error 13)"
  | alreadyThere => Text.ofString "File exists (os error 17)"
  | notDirectory => Text.ofString "Not a directory (os error 20)"
  | isDirectory => Text.ofString "Is a directory (os error 21)"
  | tooManyLinks => Text.ofString "Too many levels of symbolic links (os error 40)"
  | notText => Text.ofString "stream did not contain valid UTF-8"
  | other text => text

end FileFault

inductive Failure where
  | pathNotFound (path : Path)
  | unsupportedFile (path : Path)
  /-- A check found files out of order. -/
  | notSorted (count : Nat)
  /-- A run met files that it could not process. -/
  | filesFailed (count : Nat)
  /-- A file could not be read or written. -/
  | fileAccess (path : Path) (fault : FileFault)
  | invalidPattern (error : Glob.Error)
  /-- The settings file is no valid document, or not one of settings. -/
  | settingsInvalid (path : Path) (reason : Text)
  | unknownKey (key : Text)
  | system (fault : FileFault)
deriving DecidableEq, Repr

namespace Failure

def message : Failure → Text
  | pathNotFound p => Text.ofString "Path does not exist: " ++ p.shown
  | unsupportedFile p => Text.ofString "Not a C/C++ source or header: " ++ p.shown
  | notSorted n => Text.ofNat n ++ Text.ofString " file(s) have unsorted includes"
  | filesFailed n => Text.ofNat n ++ Text.ofString " file(s) could not be processed"
  | fileAccess p f => p.shown ++ [':', ' '] ++ f.message
  | invalidPattern e => Text.ofString "Invalid exclude pattern: " ++ e.message
  | settingsInvalid p reason =>
    Text.ofString "Failed to parse config " ++ p.shown ++ [':', ' '] ++ reason
  | unknownKey k => Text.ofString "Unknown config key: " ++ k
  | system f => Text.ofString "IO error: " ++ f.message

def exitCode : Failure → Nat
  | notSorted _ => 2
  | pathNotFound _ => 3
  | unsupportedFile _ => 4
  | _ => 1

end Failure
end IncludeOrder
