import IncludeOrder.FileTree.Resolve

/-!
# IncludeOrder.FileTree.Files

Reading and changing the tree. Whatever fails leaves the tree as it was, but for the directories that
`makeDirectories` has already made. A write replaces the whole content.

* `FileTree.readText`        — the text of a file.
* `FileTree.write`           — new content for a file, which is made if it is not there.
* `FileTree.makeDirectory`   — a new directory.
* `FileTree.makeDirectories` — a directory and those above it, as far as they are missing.
-/

namespace IncludeOrder
namespace FileTree

def readBytes (t : FileTree) (q : Path) : Except FileFault Bytes :=
  match t.find q with
  | .error e => .error e
  | .ok p =>
    match t.entry? p with
    | some (.file a b) => if a.read then .ok b else .error .denied
    | some (.directory a) => if a.read then .error .isDirectory else .error .denied
    | _ => .error .notFound

def readText (t : FileTree) (q : Path) : Except FileFault Text :=
  match t.readBytes q with
  | .error e => .error e
  | .ok b =>
    match Utf8.decode? b with
    | none => .error .notText
    | some text => .ok text

/-- Entries can be added to the directory at a place. -/
def writableAt (t : FileTree) (p : Place) : Bool :=
  match t.entry? p with
  | some (.directory a) => a.write
  | _ => false

/-- A missing last name, also one that a link leads to, is made in its directory. -/
def write (t : FileTree) (q : Path) (b : Bytes) : Except FileFault FileTree :=
  match t.land q with
  | .error e => .error e
  | .ok l =>
    if l.slash then .error .isDirectory
    else
      match t.entry? l.place with
      | some (.file a _) => if a.write then .ok (t.refill l.place b) else .error .denied
      | some _ => .error .isDirectory
      | none =>
        if t.writableAt l.place.tail then .ok (t.put l.place (.file t.granted b))
        else .error .denied

/-- The directory that the names but the last lead to, and the last name. The tree has no entry
without a name but its outermost directory. -/
def landAbove (t : FileTree) (q : Path) : Except FileFault Place :=
  if q.isEmpty then .error .notFound
  else
    match landWithin t linkLimit (startOf t.here q) q.names.dropLast false with
    | .error e => .error e
    | .ok l =>
      match t.enter l.place with
      | .error e => .error e
      | .ok () => .ok l.place

/-- Puts a new entry at a path whose last name is not followed. -/
def add (t : FileTree) (q : Path) (e : Entry) : Except FileFault FileTree :=
  match t.landAbove q with
  | .error f => .error f
  | .ok p =>
    match q.names.getLast? with
    | none => .error .alreadyThere
    | some n =>
      if n = Path.here || n = Path.up then .error .alreadyThere
      else if (t.entry? (n :: p)).isSome then .error .alreadyThere
      else if t.writableAt p then .ok (t.put (n :: p) e)
      else .error .denied

def makeDirectory (t : FileTree) (q : Path) : Except FileFault FileTree :=
  t.add q (.directory t.granted)

/-- The outcome of a change that may stop half way, and the tree after it. -/
abbrev Changed (α : Type) := Except FileFault α × FileTree

/-- A directory that is already there is as good as a new one. -/
def settle (t : FileTree) (q : Path) (e : FileFault) : Changed Unit :=
  if t.isDirectory q then (.ok (), t) else (.error e, t)

/-- Makes the first of some paths, each of which lies in the one behind it: where that fails for
want of the directory above, the others first. -/
def makeUpwards (t : FileTree) : List Path → Changed Unit
  | [] => (.ok (), t)
  | q :: above =>
    match t.makeDirectory q with
    | .ok t' => (.ok (), t')
    | .error .notFound =>
      match t.makeUpwards above with
      | (.error e, t') => (.error e, t')
      | (.ok (), t') =>
        match t'.makeDirectory q with
        | .ok t'' => (.ok (), t'')
        | .error e => t'.settle q e
    | .error e => t.settle q e

/-- The paths of some names, the last name first, and of the names above them. -/
def pathsUpwards (absolute : Bool) : List Name → List Path
  | [] => []
  | n :: r => Path.ofParts absolute (n :: r).reverse :: pathsUpwards absolute r

/-- A path and the paths above it. The empty path and the outermost directory need not be made. -/
def lineage (q : Path) : List Path :=
  match q.parts.reverse with
  | [] => []
  | _ :: r => q :: pathsUpwards q.isAbsolute r

def makeDirectories (t : FileTree) (q : Path) : Changed Unit :=
  t.makeUpwards (lineage q)

end FileTree
end IncludeOrder
