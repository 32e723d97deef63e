import IncludeOrder.Category
import IncludeOrder.Text.Lowercase

/-!
# IncludeOrder.Arrangement

Include lines in their written order: a section for each category that occurs, in the order of the
categories, its lines sorted without regard to case and closed by an empty line. Lines that differ
only in case keep the order in which they came, and blank lines are dropped.

* `sortKey`  — what lines of a category are compared by: the bytes of the line in lower case.
* `arranged` — the lines in order, with an empty line after each section.
-/

namespace IncludeOrder
namespace Arrangement

def sortKey (l : Line) : Bytes :=
  Utf8.encode (Text.lowercase l)

def keyLe (k m : Line) : Bool :=
  sortKey k ≤ sortKey m

/-- The lines of one category, in order. -/
def sectionOf (file : Path) (ls : List Line) (c : Category) : List Line :=
  (ls.filter fun l => !Text.isBlank l && Category.ofLine file l = c).mergeSort keyLe

/-- A section that is not empty, with the empty line behind it. -/
def closed : List Line → List Line
  | [] => []
  | l :: r => l :: r ++ [[]]

def arranged (file : Path) (ls : List Line) : List Line :=
  Category.all.flatMap fun c => closed (sectionOf file ls c)

end Arrangement
end IncludeOrder
