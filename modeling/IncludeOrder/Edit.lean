import IncludeOrder.Arrangement
import IncludeOrder.Block

/-!
# IncludeOrder.Edit

An edit replaces some lines of a text. The replaced range runs from the start of its first line to
the start of the line behind its last one, or to the end of the text if there is none.

* `Edit.apply`        — the text after the edit.
* `Edit.ofText?`      — the edit that puts the include block of a text in order.
* `sortIncludes`      — the text with its include block in order.
-/

namespace IncludeOrder

structure Edit where
  firstLine : Nat
  lastLine : Nat
  newText : Text
deriving DecidableEq, Repr

namespace Edit

/-- Every line with a line feed behind it. -/
def terminated (ls : List Line) : Text :=
  ls.flatMap fun l => l ++ ['\n']

/-- Line numbers beyond the text stand for its end, and a range that ends before it starts is
empty. -/
def apply (e : Edit) (t : Text) : Text :=
  let ls := Text.lines t
  let start := min e.firstLine ls.length
  let after := max (min (e.lastLine + 1) ls.length) start
  terminated (ls.take start) ++ e.newText ++ Text.joined (ls.drop after)

/-- Applying the edit leaves the text as it is. -/
def isNoop (e : Edit) (t : Text) : Bool :=
  e.apply t = t

def ofText? (file : Path) (t : Text) : Option Edit :=
  match Block.locate (Text.lines t) with
  | none => none
  | some b =>
    match Arrangement.arranged file b.includes with
    | [] => none
    | l :: r => some ⟨b.first, b.last, Text.joined (l :: r) ++ ['\n']⟩

end Edit

def sortIncludes (file : Path) (t : Text) : Text :=
  match Edit.ofText? file t with
  | none => t
  | some e => e.apply t

end IncludeOrder
