import IncludeOrder.Text.GraphemeExtend
import IncludeOrder.Text.Unprintable

/-!
# IncludeOrder.Text.Quoted

Text shown between double quotes. The quote, the backslash and four controls have escapes of their
own; a character that attaches to the one before it, or leaves nothing to see, is shown by its code
point.

* `quoted`     — one text between quotes.
* `quotedList` — a list of texts between brackets.
-/

namespace IncludeOrder
namespace Text

/-- A number in lower case hexadecimal. -/
def hex (n : Nat) : Text :=
  Nat.toDigits 16 n

def quotedChar (c : Char) : Text :=
  if c = '"' then ['\\', '"']
  else if c = '\\' then ['\\', '\\']
  else if c = '\n' then ['\\', 'n']
  else if c = '\r' then ['\\', 'r']
  else if c = '\t' then ['\\', 't']
  else if c = '\x00' then ['\\', '0']
  else if isGraphemeExtend c || isUnprintable c then
    ['\\', 'u', '\x7b'] ++ hex c.toNat ++ ['\x7d']
  else [c]

def quoted (t : Text) : Text :=
  '"' :: t.flatMap quotedChar ++ ['"']

def quotedList (ts : List Text) : Text :=
  '[' :: [',', ' '].intercalate (ts.map quoted) ++ [']']

end Text
end IncludeOrder
