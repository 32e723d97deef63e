import IncludeOrder.Text.Basic

/-!
# IncludeOrder.Text.Blank

White space is the Unicode property of that name. A line is blank when it holds nothing else, so
a lone carriage return is blank and a zero-width space is not.
-/

namespace IncludeOrder
namespace Text

def whiteSpaceRanges : List (Nat × Nat) :=
  [(0x9, 0xD), (0x20, 0x20), (0x85, 0x85), (0xA0, 0xA0), (0x1680, 0x1680), (0x2000, 0x200A),
   (0x2028, 0x2029), (0x202F, 0x202F), (0x205F, 0x205F), (0x3000, 0x3000)]

def isWhiteSpace (c : Char) : Bool :=
  inRanges whiteSpaceRanges c

def isBlank (l : Line) : Bool :=
  l.all isWhiteSpace

/-- Without the characters at both ends that satisfy `p`. -/
def stripped (p : Char → Bool) (t : Text) : Text :=
  ((t.dropWhile p).reverse.dropWhile p).reverse

/-- Without the white space at both ends. -/
def trimmed (t : Text) : Text :=
  stripped isWhiteSpace t

end Text
end IncludeOrder
