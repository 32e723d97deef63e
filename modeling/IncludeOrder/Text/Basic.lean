/-!
# IncludeOrder.Text.Basic

Text is a list of characters; its lines are the pieces between line feeds, and only a line feed
separates lines: a carriage return belongs to its line.

* `lines`  — the lines of a text; a text with `n` line feeds has `n + 1` of them.
* `joined` — lines put back together, a line feed between each two.
* `listed` — the lines as they are listed one under the other: without the last one when it is
  empty, and without the carriage return that ends a line.
-/

namespace IncludeOrder

abbrev Text := List Char

abbrev Line := List Char

abbrev Bytes := List UInt8

namespace Text

def lines (t : Text) : List Line :=
  t.splitOn '\n'

def joined (ls : List Line) : Text :=
  ['\n'].intercalate ls

/-- Drops one carriage return from the end. -/
def withoutReturn : Line → Line
  | [] => []
  | [c] => if c = '\r' then [] else [c]
  | c :: d :: r => c :: withoutReturn (d :: r)

/-- A carriage return is dropped only before a line feed, so the last line keeps its own. -/
def listedLines : List Line → List Line
  | [] => []
  | [l] => if l = [] then [] else [l]
  | l :: m :: r => withoutReturn l :: listedLines (m :: r)

def listed (t : Text) : List Line :=
  listedLines (lines t)

/-- Equality apart from the case of ASCII letters. -/
def sameIgnoringCase (s t : Text) : Bool :=
  s.map Char.toLower = t.map Char.toLower

/-- The text of a literal. -/
def ofString (s : String) : Text :=
  s.toList

/-- A number in decimal. -/
def ofNat (n : Nat) : Text :=
  Nat.toDigits 10 n

end Text

/-- `c` lies in one of the ranges, both ends included. -/
def inRanges (ranges : List (Nat × Nat)) (c : Char) : Bool :=
  ranges.any fun r => r.1 ≤ c.toNat && c.toNat ≤ r.2

end IncludeOrder
