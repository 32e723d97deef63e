import IncludeOrder.Directive

/-!
# IncludeOrder.Block

The include block of a file is its first run of include lines, with the blank lines between and
behind them. The first other line after the run ends it, and the lines before the run do not count.

* `Block.locate` — the block of some lines, if any of them is an include line.
-/

namespace IncludeOrder

/-- A run of lines, both ends counted from zero and included, and the include lines in it. -/
structure Block where
  first : Nat
  last : Nat
  includes : List Line
deriving DecidableEq, Repr

namespace Block

def isMember (l : Line) : Bool :=
  Directive.isInclude l || Text.isBlank l

/-- How many lines the block covers. -/
def span (b : Block) : Nat :=
  b.last - b.first + 1

def locate (ls : List Line) : Option Block :=
  let before := ls.takeWhile fun l => !Directive.isInclude l
  let run := (ls.drop before.length).takeWhile isMember
  match run with
  | [] => none
  | _ :: _ => some ⟨before.length, before.length + run.length - 1, run.filter Directive.isInclude⟩

end Block
end IncludeOrder
