import IncludeOrder.Glob
import IncludeOrder.Path

/-!
# IncludeOrder.Selection

A selection says which files are sorted and which names are passed over: a file is a target by its
extension, without regard to the case of ASCII letters, and a file or directory is excluded by its
name.

* `Selection.ofLists` — the selection of some extensions and patterns, if the patterns are valid.
* `Selection.exclude` — one more pattern.
* `Selection.targets`, `Selection.excludes` — the tests.
-/

namespace IncludeOrder

structure Selection where
  extensions : List Text
  patterns : List Glob

namespace Selection

def defaultExtensions : List Text :=
  ["h", "c", "cpp", "hpp"].map Text.ofString

def defaultExcludes : List Text :=
  [".git", "build", "target", "node_modules"].map Text.ofString

/-- Dots before an extension do not count. A path without an extension has none of the list, and
one whose name ends in a dot has the empty one. -/
def hasExtension (extensions : List Text) (p : Path) : Bool :=
  match p.extension? with
  | none => false
  | some n => extensions.any fun e => Text.sameIgnoringCase (e.dropWhile (· = '.')) (Utf8.lossy n)

/-- The patterns of some texts; the first text that is no pattern is the fault. -/
def parseAll : List Text → Except Glob.Error (List Glob)
  | [] => .ok []
  | t :: ts =>
    match Glob.parse t with
    | .error e => .error e
    | .ok g =>
      match parseAll ts with
      | .error e => .error e
      | .ok gs => .ok (g :: gs)

def ofLists (extensions excludes : List Text) : Except Glob.Error Selection :=
  match parseAll excludes with
  | .error e => .error e
  | .ok gs => .ok ⟨extensions, gs⟩

def exclude (s : Selection) (t : Text) : Except Glob.Error Selection :=
  match Glob.parse t with
  | .error e => .error e
  | .ok g => .ok { s with patterns := s.patterns ++ [g] }

def excludeAll (s : Selection) : List Text → Except Glob.Error Selection
  | [] => .ok s
  | t :: ts =>
    match s.exclude t with
    | .error e => .error e
    | .ok s' => s'.excludeAll ts

/-- The default patterns hold no special character, so each stands for itself. -/
def default : Selection :=
  ⟨defaultExtensions, defaultExcludes.map fun t => ⟨t.map .char⟩⟩

def targets (s : Selection) (p : Path) : Bool :=
  hasExtension s.extensions p

def excludes (s : Selection) (name : Text) : Bool :=
  s.patterns.any (·.accepts name)

end Selection
end IncludeOrder
