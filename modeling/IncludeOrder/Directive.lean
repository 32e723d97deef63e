import IncludeOrder.Text.Blank

/-!
# IncludeOrder.Directive

The grammar of an include directive: the word `#include`, white space, and a header token, which is
text between angle brackets or between double quotes, with its delimiters. Between the delimiters
stands at least one character, and any but the closing one.

* `directive?`    — the header token of the directive that a line starts with.
* `isInclude`     — the line starts with a directive.
* `headerToken?`  — the header token of the first directive anywhere in a line.
-/

namespace IncludeOrder

/-- The text behind `start`, if the text begins with it. -/
def afterStart? : (start t : Text) → Option Text
  | [], t => some t
  | _ :: _, [] => none
  | a :: s, c :: r => if a = c then afterStart? s r else none

namespace Directive

def keyword : Text :=
  ['#', 'i', 'n', 'c', 'l', 'u', 'd', 'e']

/-- The token behind its opening delimiter. -/
def enclosed? (opening closing : Char) (t : Text) : Option Text :=
  match t.takeWhile (· ≠ closing), t.dropWhile (· ≠ closing) with
  | _ :: _, _ :: _ => some (opening :: t.takeWhile (· ≠ closing) ++ [closing])
  | _, _ => none

/-- The header token that a text starts with. -/
def token? : Text → Option Text
  | [] => none
  | c :: r =>
    if c = '<' then enclosed? '<' '>' r
    else if c = '"' then enclosed? '"' '"' r
    else none

def directive? (l : Line) : Option Text :=
  match afterStart? keyword l with
  | none => none
  | some r =>
    match r.takeWhile Text.isWhiteSpace with
    | [] => none
    | _ :: _ => token? (r.dropWhile Text.isWhiteSpace)

def isInclude (l : Line) : Bool :=
  (directive? l).isSome

def headerToken? : Line → Option Text
  | [] => none
  | c :: r =>
    match directive? (c :: r) with
    | some t => some t
    | none => headerToken? r

end Directive
end IncludeOrder
