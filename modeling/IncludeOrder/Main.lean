import IncludeOrder.CommandLine.Session

/-!
# IncludeOrder.Main

The program. It takes a picture of the part of the file system that a command looks at, runs the
command on the picture, and carries out what has changed in it.

Of a link the picture shows the place where it ends; one that ends nowhere leads to itself. Files that
are no targets are shown without content, a file with several names as several files, and the directories
above the working directory as if they could be searched. The texts of the argument parser are left out.
-/

namespace IncludeOrder
namespace Program

open CommandLine

def bytesOf (s : String) : Bytes :=
  Utf8.encode s.toList

def stringOf (b : Bytes) : String :=
  String.ofList (Utf8.lossy b)

/-- The absolute path of a place. -/
def spelled (p : Place) : String :=
  "/" ++ "/".intercalate (p.reverse.map stringOf)

/-- The place of an absolute path. -/
def placeOf (s : String) : Place :=
  (Path.mk (bytesOf s)).names.reverse

/-! ## Taking the picture -/

/-- What to show: the content of which files, and which names not to look below. -/
structure Focus where
  shows : Path → Bool
  skips : Name → Bool

inductive Kind where
  | file
  | directory
  | link
  | missing

def kindAt (s : String) : IO Kind := do
  try
    -- Only the real path of the parent is needed to look at an entry without following it.
    match (← (← IO.FS.realPath (spelled (placeOf s).tail)) / stringOf ((placeOf s).headD [])
        |>.symlinkMetadata).type with
    | .dir => return .directory
    | .symlink => return .link
    | _ => return .file
  catch _ => return .missing

/-- Whether a file can be changed; opening it at its end changes nothing. -/
def isWritable (s : String) : IO Bool := do
  try
    let _ ← IO.FS.Handle.mk s .append
    return true
  catch _ => return false

def fileAt (s : String) : IO Entry := do
  let write ← isWritable s
  try
    return .file ⟨true, write, true⟩ (← IO.FS.readBinFile s).toList
  catch _ => return .file ⟨false, write, true⟩ []

def namesAt (s : String) : IO (Option (List Name)) := do
  try
    let entries ← (← IO.FS.realPath s).readDir
    return some (entries.toList.map fun e => bytesOf e.fileName)
  catch _ => return none

mutual

/-- Shows the entry at a place, and what is below it if `deep`. -/
partial def showEntry (focus : Focus) (deep : Bool) (p : Place) (rest : List Name)
    (t : FileTree) : IO FileTree := do
  match ← kindAt (spelled p) with
  | .missing => return t
  | .file =>
    if focus.shows ⟨p.headD []⟩ then return t.put p (← fileAt (spelled p))
    else return t.put p (.file .full [])
  | .directory =>
    let t := if t.isDirectoryAt p then t else t.put p (.directory .full)
    showNames focus deep p rest t
  | .link =>
    try
      let target := (← IO.FS.realPath (spelled p)).toString
      let t := t.put p (.link ⟨bytesOf target⟩)
      showNames { focus with shows := fun _ => true } deep [] ((placeOf target).reverse ++ rest) t
    catch _ => return t.put p (.link ⟨bytesOf (spelled p)⟩)

/-- Shows the entries on a path that starts at a place. -/
partial def showNames (focus : Focus) (deep : Bool) (p : Place) (names : List Name)
    (t : FileTree) : IO FileTree := do
  match names with
  | [] => if deep then showBelow focus p t else return t
  | n :: rest =>
    if n = Path.here then showNames focus deep p rest t
    else if n = Path.up then showNames focus deep p.tail rest t
    else showEntry focus deep (n :: p) rest t

/-- Shows what is in a directory. Links in it are not followed. -/
partial def showBelow (focus : Focus) (p : Place) (t : FileTree) : IO FileTree := do
  match ← namesAt (spelled p) with
  | none => return t.put p (.directory ⟨false, true, true⟩)
  | some names =>
    let mut t := t
    for n in names do
      unless focus.skips n do
        match ← kindAt (spelled (n :: p)) with
        | .link => t := t.put (n :: p) (.link ⟨bytesOf (spelled (n :: p))⟩)
        | _ => t ← showEntry focus true (n :: p) [] t
    return t

end

def showPath (focus : Focus) (deep : Bool) (t : FileTree) (q : Path) : IO FileTree :=
  showNames focus deep (FileTree.startOf t.here q) q.names t

/-- A place with the directories above it, and nothing else. -/
def startingAt : Place → FileTree
  | [] => .empty
  | n :: p => { (startingAt p).put (n :: p) (.directory .full) with here := n :: p }

/-! ## Running -/

/-- The paths that a command looks at, and the patterns that it is given. -/
def pathsOf : Command → List Path × List Text
  | .fmt ps _ _ exclude => (orHere ps, exclude)
  | _ => ([], [])

def readsInput : Command → Bool
  | .stdin _ => true
  | _ => false

def everything : Focus := ⟨fun _ => true, fun _ => false⟩

def focusOf (s : Selection) : Focus :=
  ⟨s.targets, fun n => s.excludes (Utf8.lossy n)⟩

def picture (s : Surroundings) (i : Invocation) (t : FileTree) : IO FileTree := do
  let base := baseOf s i
  let t ← showPath everything false t base
  let t ← showPath everything false t (Settings.file base)
  match Settings.load t base with
  | .error _ => return t
  | .ok settings =>
    match settings.selection (pathsOf i.command).2 with
    | .error _ => return t
    | .ok selection =>
      (pathsOf i.command).1.foldlM (showPath (focusOf selection) true) t

/-- Carries out the changes between two pictures. -/
def carryOut (before after : FileTree) : IO Unit := do
  for (p, e) in after.entries do
    if before.entry? p ≠ some e then
      match e with
      | .file _ b => IO.FS.writeBinFile (spelled p) ⟨b.toArray⟩
      | .directory _ => IO.FS.createDir (spelled p)
      | .link _ => pure ()

def valueOf (name : String) : IO (Option Bytes) := do
  return (← IO.getEnv name).map bytesOf

partial def inputFrom (s : IO.FS.Stream) (read : ByteArray) : IO ByteArray := do
  let more ← s.read 65536
  if more.isEmpty then return read else inputFrom s (read ++ more)

def surroundings : IO Surroundings := do
  let terminal ← (← IO.getStdout).isTty
  let colors := Paint.isOn terminal (← valueOf "CLICOLOR_FORCE") (← valueOf "NO_COLOR")
    (← valueOf "CLICOLOR")
  return ⟨colors, ← valueOf "HOME", ← valueOf "INCSORT_BASE", [], .empty⟩

def run (arguments : List Bytes) : IO UInt32 := do
  let s ← surroundings
  let start := startingAt (placeOf (← IO.currentDir).toString)
  let (s, before) ←
    match read s.base? arguments with
    | .error _ => pure (s, start)
    | .ok i =>
      let input ← if readsInput i.command then inputFrom (← IO.getStdin) .empty else pure .empty
      pure ({ s with input := input.toList }, ← picture s i start)
  let e := perform s arguments before
  carryOut before e.tree
  (← IO.getStdout).putStr (String.ofList e.console.output)
  (← IO.getStderr).putStr (String.ofList e.console.errors)
  return e.code.toUInt32

end Program
end IncludeOrder

def main (arguments : List String) : IO UInt32 :=
  IncludeOrder.Program.run (arguments.map IncludeOrder.Program.bytesOf)
