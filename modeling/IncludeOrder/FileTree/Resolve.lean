import IncludeOrder.Failure
import IncludeOrder.FileTree.Basic

/-!
# IncludeOrder.FileTree.Resolve

Where a path leads. Its names are taken one after the other; each is looked up in a directory, which
must allow that, and a link is replaced by its target. At most forty links are followed.

* `FileTree.land`      — where a path ends, links followed. Its last name may be missing there, but all
  before it are directories.
* `FileTree.find`      — the entry that a path leads to; it is a file or a directory.
* `FileTree.canonical` — the place of a file, where it can be spelled from the outermost directory.
* `FileTree.key`       — what two paths of the same file have in common.
-/

namespace IncludeOrder

/-- The end of a path. After a slash it can only be a directory. -/
structure Landing where
  place : Place
  slash : Bool
deriving DecidableEq, Repr

namespace FileTree

/-- How many links are followed on one path. -/
def linkLimit : Nat := 40

/-- Names can be looked up in the directory at a place. -/
def enter (t : FileTree) (p : Place) : Except FileFault Unit :=
  match t.entry? p with
  | none => .error .notFound
  | some (.directory a) => if a.search then .ok () else .error .denied
  | some _ => .error .notDirectory

/-- Follows names from a place; `follow` continues at a link, from the directory that holds it and
with the names behind it. -/
def landFrom (t : FileTree) (follow : Place → Path → List Name → Bool → Except FileFault Landing) :
    Place → List Name → Bool → Except FileFault Landing
  | p, [], slash => .ok ⟨p, slash⟩
  | p, n :: rest, slash =>
    match t.enter p with
    | .error e => .error e
    | .ok () =>
      if n = Path.here then landFrom t follow p rest slash
      else if n = Path.up then landFrom t follow p.tail rest slash
      else
        match t.entry? (n :: p), rest with
        | none, [] => .ok ⟨n :: p, slash⟩
        | none, _ :: _ => .error .notFound
        | some (.link target), _ => follow p target rest slash
        | some _, _ => landFrom t follow (n :: p) rest slash

/-- Where a path starts. -/
def startOf (p : Place) (q : Path) : Place :=
  if q.isAbsolute then [] else p

/-- The same with at most `links` links followed. -/
def landWithin (t : FileTree) :
    (links : Nat) → Place → List Name → Bool → Except FileFault Landing
  | 0 => landFrom t fun _ _ _ _ => .error .tooManyLinks
  | k + 1 => landFrom t fun p target rest slash =>
    landWithin t k (startOf p target) (target.names ++ rest)
      (slash || (rest.isEmpty && target.endsInSlash))

def land (t : FileTree) (q : Path) : Except FileFault Landing :=
  if q.isEmpty then .error .notFound
  else landWithin t linkLimit (startOf t.here q) q.names q.endsInSlash

def find (t : FileTree) (q : Path) : Except FileFault Place :=
  match t.land q with
  | .error e => .error e
  | .ok l =>
    match t.entry? l.place with
    | none => .error .notFound
    | some (.directory _) => .ok l.place
    | some _ => if l.slash then .error .notDirectory else .ok l.place

/-- The place of the file that a path leads to. It is spelled from the outermost directory, and each
name of it looked up on the way, so a relative path needs the directories above the working directory
too. -/
def canonical (t : FileTree) (q : Path) : Except FileFault Place :=
  if q.isAbsolute || t.reachable t.here then t.find q else .error .denied

/-- The place of a file, or where there is none to be had the path, by the parts that count for
comparing paths. -/
inductive Key where
  | place (p : Place)
  | unresolved (absolute : Bool) (parts : List Name)
deriving DecidableEq, Repr

def key (t : FileTree) (q : Path) : Key :=
  match t.canonical q with
  | .ok p => .place p
  | .error _ => .unresolved q.isAbsolute q.parts

def pathExists (t : FileTree) (q : Path) : Bool :=
  match t.find q with
  | .ok _ => true
  | .error _ => false

def isFile (t : FileTree) (q : Path) : Bool :=
  match t.find q with
  | .ok p => t.isFileAt p
  | .error _ => false

def isDirectory (t : FileTree) (q : Path) : Bool :=
  match t.find q with
  | .ok p => t.isDirectoryAt p
  | .error _ => false

end FileTree
end IncludeOrder
