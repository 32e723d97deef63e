import IncludeOrder.FileTree.Walk
import IncludeOrder.Outcome
import IncludeOrder.Selection

/-!
# IncludeOrder.Collection

The files that some paths stand for. A path of a file stands for that file, which must be a target; a
path of a directory stands for the targets below it that are not excluded. The first path that is
missing or no target is the failure of them all.

* `collect` — the files under some paths, each one once, and the directories that could not be listed.
-/

namespace IncludeOrder

structure Collection where
  files : List Path
  /-- The directories that could not be listed. -/
  unlisted : List Outcome

namespace Collection

def empty : Collection := ⟨[], []⟩

/-- Adds a file, unless it is already there under this or another path. -/
def addFile (t : FileTree) (c : Collection) (p : Path) : Collection :=
  if (c.files.map t.key).contains (t.key p) then c else { c with files := c.files ++ [p] }

def addFound (t : FileTree) (s : Selection) (c : Collection) : FileTree.Found → Collection
  | .file p => if s.targets p then c.addFile t p else c
  | .unlisted p e => { c with unlisted := c.unlisted ++ [⟨p, .failed (.unlisted p e)⟩] }

/-- Adds what a path stands for: itself, or the files below it. -/
def addPath (t : FileTree) (s : Selection) (c : Collection) (p : Path) :
    Except Failure Collection :=
  match t.find p with
  | .error _ => .error (.pathNotFound p)
  | .ok place =>
    if t.isFileAt place then
      if s.targets p then .ok (c.addFile t p) else .error (.unsupportedFile p)
    else .ok ((t.walk (fun n => s.excludes (Utf8.lossy n)) place p).foldl (addFound t s) c)

def addPaths (t : FileTree) (s : Selection) (c : Collection) :
    List Path → Except Failure Collection
  | [] => .ok c
  | p :: ps =>
    match c.addPath t s p with
    | .error e => .error e
    | .ok c' => c'.addPaths t s ps

end Collection

def collect (t : FileTree) (s : Selection) (ps : List Path) : Except Failure Collection :=
  Collection.empty.addPaths t s ps

end IncludeOrder
