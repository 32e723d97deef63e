import IncludeOrder.Text.Basic

/-!
# IncludeOrder.Toml.Document

TOML documents, and how lines add to them. A document is a table: a list of keys with their nodes. A
table remembers how it came about, because that decides what may be added to it later.

* `define`    — `a.b.c = node`: a key at the end of a path, whose tables are made on the way.
* `openTable` — `[a.b]`: the table that the following lines belong to.
* `openRow`   — `[[a.b]]`: one more row of an array of tables.

Each of them has no result where the line contradicts an earlier one.
-/

namespace IncludeOrder
namespace Toml

inductive Origin where
  /-- By its own header. -/
  | header
  /-- On the way to the table of another header. -/
  | implied
  /-- On the way to a key. -/
  | dotted
  /-- As a value, to which nothing can be added. -/
  | value
deriving DecidableEq, Repr

/-- Fractional numbers and dates are kept as they are written. -/
inductive Node where
  | text (t : Text)
  | integer (n : Int)
  | fraction (written : Text)
  | truth (b : Bool)
  | date (written : Text)
  | array (ns : List Node)
  | table (origin : Origin) (entries : List (Text × Node))
  /-- An array of tables: its last row and the ones before, in reverse. -/
  | rows (last : List (Text × Node)) (before : List (List (Text × Node)))

abbrev Entries := List (Text × Node)

def replace (key : Text) (n : Node) : Entries → Entries
  | [] => []
  | (k, m) :: r => if k = key then (k, n) :: r else (k, m) :: replace key n r

/-- The last table of the path must be new or made by such paths alone. -/
def define : (path : List Text) → (key : Text) → Node → Entries → Option Entries
  | [], key, n, es =>
    match es.lookup key with
    | some _ => none
    | none => some (es ++ [(key, n)])
  | k :: ks, key, n, es =>
    match es.lookup k with
    | none => (define ks key n []).map fun sub => es ++ [(k, .table .dotted sub)]
    | some (.table .dotted sub) =>
      (define ks key n sub).map fun sub' => replace k (.table .dotted sub') es
    | some (.table .implied sub) =>
      if ks.isEmpty then none
      else (define ks key n sub).map fun sub' => replace k (.table .implied sub') es
    | some (.rows last before) =>
      if ks.isEmpty then none
      else (define ks key n last).map fun last' => replace k (.rows last' before) es
    | some _ => none

/-- Changes the table at the end of a path; of an array of tables that is the last row. -/
def within (change : Entries → Option Entries) : (path : List Text) → Entries → Option Entries
  | [], es => change es
  | k :: ks, es =>
    match es.lookup k with
    | none => (within change ks []).map fun sub => es ++ [(k, .table .implied sub)]
    | some (.table .value _) => none
    | some (.table origin sub) =>
      (within change ks sub).map fun sub' => replace k (.table origin sub') es
    | some (.rows last before) =>
      (within change ks last).map fun last' => replace k (.rows last' before) es
    | some _ => none

/-- A table can have one header, and none if keys have made it. -/
def openLast (key : Text) (es : Entries) : Option Entries :=
  match es.lookup key with
  | none => some (es ++ [(key, .table .header [])])
  | some (.table .implied sub) => some (replace key (.table .header sub) es)
  | some _ => none

def openTable (path : List Text) (es : Entries) : Option Entries :=
  match path.getLast? with
  | none => none
  | some key => within (openLast key) path.dropLast es

def openLastRow (key : Text) (es : Entries) : Option Entries :=
  match es.lookup key with
  | none => some (es ++ [(key, .rows [] [])])
  | some (.rows last before) => some (replace key (.rows [] (last :: before)) es)
  | some _ => none

def openRow (path : List Text) (es : Entries) : Option Entries :=
  match path.getLast? with
  | none => none
  | some key => within (openLastRow key) path.dropLast es

end Toml
end IncludeOrder
