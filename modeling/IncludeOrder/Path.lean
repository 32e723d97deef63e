import IncludeOrder.Text.Utf8

/-!
# IncludeOrder.Path

A path is a sequence of bytes, names separated by slashes. It is kept and shown as it was given;
nothing is normalised.

* `names`      — the names of a path, among them `.` and `..`, without the empty ones.
* `fileName?`  — the last name; `.` does not count, and after `..` there is none.
* `stem?` and `extension?` — the file name before and behind its last dot; a dot at its start
  splits nothing.
* `join`       — a path below another one.
-/

namespace IncludeOrder

abbrev Name := Bytes

structure Path where
  bytes : Bytes
deriving DecidableEq, Repr

namespace Path

def slash : UInt8 := 0x2F

def dot : UInt8 := 0x2E

/-- The name of a directory in itself. -/
def here : Name := [dot]

/-- The name of the directory above. -/
def up : Name := [dot, dot]

def ofText (t : Text) : Path :=
  ⟨Utf8.encode t⟩

/-- The path as text; bytes that are no text become replacement characters. -/
def shown (p : Path) : Text :=
  Utf8.lossy p.bytes

def isAbsolute (p : Path) : Bool :=
  p.bytes.head? = some slash

def names (p : Path) : List Name :=
  (p.bytes.splitOn slash).filter fun n => n ≠ []

/-- Something must stand before the final slash: it makes a file name a directory name. -/
def endsInSlash (p : Path) : Bool :=
  p.bytes.getLast? = some slash

/-- The names that count for taking a path apart: `.` only as the first name of a relative path. -/
def parts (p : Path) : List Name :=
  match p.names with
  | [] => []
  | n :: r =>
    if n = here && !p.isAbsolute then n :: r.filter (· ≠ here)
    else (n :: r).filter (· ≠ here)

def fileName? (p : Path) : Option Name :=
  match p.parts.getLast? with
  | none => none
  | some n => if n = here || n = up then none else some n

/-- The name before and behind its last dot, if something stands before that dot. -/
def splitName (n : Name) : Name × Option Name :=
  let behind := (n.reverse.takeWhile (· ≠ dot)).reverse
  match (n.reverse.dropWhile (· ≠ dot)).reverse.dropLast with
  | [] => (n, none)
  | before => (before, some behind)

def stem? (p : Path) : Option Name :=
  p.fileName?.map fun n => (splitName n).1

def extension? (p : Path) : Option Name :=
  match p.fileName? with
  | none => none
  | some n => (splitName n).2

def ofParts (absolute : Bool) (ns : List Name) : Path :=
  ⟨(if absolute then [slash] else []) ++ [slash].intercalate ns⟩

def isEmpty (p : Path) : Bool :=
  p.bytes = []

/-- The path `q` below `p`: an absolute `q` stands for itself, and one slash separates them. -/
def join (p : Path) (q : Bytes) : Path :=
  if (Path.mk q).isAbsolute || p.bytes = [] then ⟨q⟩
  else if p.endsInSlash then ⟨p.bytes ++ q⟩
  else ⟨p.bytes ++ slash :: q⟩

end Path
end IncludeOrder
