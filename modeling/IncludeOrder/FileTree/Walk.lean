import IncludeOrder.FileTree.Resolve

/-!
# IncludeOrder.FileTree.Walk

The files below a directory, depth first, the names of a directory in the order of their bytes. Links
are neither files nor followed. A name that `skips` holds of is passed over, and all below it. A
directory that cannot be listed is an entry of the walk and hides what is in it.

* `FileTree.walk` — the walk from a path that leads to a directory.
-/

namespace IncludeOrder
namespace FileTree

inductive Found where
  | file (path : Path)
  | unlisted (path : Path) (fault : FileFault)
deriving DecidableEq, Repr

/-- The names in the directory that a path leads to. -/
def list (t : FileTree) (q : Path) : Except FileFault (List Name) :=
  match t.find q with
  | .error e => .error e
  | .ok p =>
    match t.entry? p with
    | none => .error .notFound
    | some (.directory a) => if a.read then .ok (t.namesIn p) else .error .denied
    | some _ => .error .notDirectory

/-- The walk from a place that is shown as the path `q`, down to `fuel` levels below it. What kind of
entry a name has is known from the directory, and the directory below it is opened by its path. -/
def walkFrom (t : FileTree) (skips : Name → Bool) : (fuel : Nat) → Place → Path → List Found
  | 0, _, _ => []
  | fuel + 1, p, q =>
    match t.list q with
    | .error e => [.unlisted q e]
    | .ok ns =>
      ns.flatMap fun n =>
        if skips n then []
        else
          match t.entry? (n :: p) with
          | some (.file _ _) => [.file (q.join n)]
          | some (.directory _) => walkFrom t skips fuel (n :: p) (q.join n)
          | _ => []

/-- No place is deeper than the tree, so its depth is enough. -/
def walk (t : FileTree) (skips : Name → Bool) (p : Place) (q : Path) : List Found :=
  t.walkFrom skips (t.depth + 1) p q

end FileTree
end IncludeOrder
