import IncludeOrder.Path

/-!
# IncludeOrder.FileTree.Basic

A tree of files as a finite map from places to entries. A place is the list of names that lead to an
entry, the innermost name first, so the tail of a place is the directory that holds it. The outermost
directory is always there.

A file that has several names has an entry under each of them, and `shared` says which places are names
of one file. There are files, directories and links and nothing else, names and paths may be of any
length, and nobody else changes the tree.

* `FileTree.entry?`  — the entry at a place.
* `FileTree.put`     — the tree with another entry at a place.
* `FileTree.refill`  — the tree with another content of a file, under all its names.
* `FileTree.namesIn` — the names of the entries in a directory, in the order of their bytes.
-/

namespace IncludeOrder

abbrev Place := List Name

/-- What the owner of an entry may do: read a file or list a directory, change it, and reach what is
in it. -/
structure Access where
  read : Bool
  write : Bool
  search : Bool
deriving DecidableEq, Repr

def Access.full : Access := ⟨true, true, true⟩

inductive Entry where
  | file (access : Access) (content : Bytes)
  | directory (access : Access)
  | link (target : Path)
deriving DecidableEq, Repr

/-- The entry with another content, if it is a file. -/
def Entry.refill (b : Bytes) : Entry → Entry
  | .file a _ => .file a b
  | e => e

/-- Relative paths start from the place `here`. -/
structure FileTree where
  entries : List (Place × Entry)
  here : Place
  /-- The files with more than one name: the places of each. -/
  shared : List (List Place) := []
  /-- What the owner may do with an entry that is made. -/
  granted : Access := .full

namespace FileTree

def empty : FileTree where
  entries := []
  here := []

def entry? (t : FileTree) (p : Place) : Option Entry :=
  match t.entries.lookup p with
  | some e => some e
  | none => if p = [] then some (.directory .full) else none

/-- Replaces the entry at a place, or adds one. -/
def putIn (p : Place) (e : Entry) : List (Place × Entry) → List (Place × Entry)
  | [] => [(p, e)]
  | (q, f) :: r => if q = p then (q, e) :: r else (q, f) :: putIn p e r

def put (t : FileTree) (p : Place) (e : Entry) : FileTree :=
  { t with entries := putIn p e t.entries }

/-- What is at the two places is one file. -/
def sameFile (t : FileTree) (p q : Place) : Bool :=
  p = q || t.shared.any fun ps => ps.contains p && ps.contains q

/-- Another content for the file at a place. Each of its names shows it. -/
def refill (t : FileTree) (p : Place) (b : Bytes) : FileTree :=
  { t with entries := t.entries.map fun e =>
      (e.1, if t.sameFile p e.1 then e.2.refill b else e.2) }

/-- The name of an entry, if the entry is in the directory at `p`. -/
def nameIn? (p : Place) : Place → Option Name
  | [] => none
  | n :: q => if q = p then some n else none

def namesIn (t : FileTree) (p : Place) : List Name :=
  (t.entries.filterMap fun e => nameIn? p e.1).mergeSort fun m n => m ≤ n

/-- No entry lies deeper than this. -/
def depth (t : FileTree) : Nat :=
  (t.entries.map fun e => e.1.length).foldr max 0

def isDirectoryAt (t : FileTree) (p : Place) : Bool :=
  match t.entry? p with
  | some (.directory _) => true
  | _ => false

def isFileAt (t : FileTree) (p : Place) : Bool :=
  match t.entry? p with
  | some (.file _ _) => true
  | _ => false

/-- What is in the directory at a place can be reached from there. -/
def searchableAt (t : FileTree) (p : Place) : Bool :=
  match t.entry? p with
  | some (.directory a) => a.search
  | _ => false

/-- Every directory above a place can be searched. -/
def reachable (t : FileTree) : Place → Bool
  | [] => true
  | _ :: p => t.searchableAt p && t.reachable p

end FileTree
end IncludeOrder
