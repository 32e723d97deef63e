import IncludeOrder.Directive
import IncludeOrder.Path

/-!
# IncludeOrder.Category

The categories of include lines, in the order in which they are written. A header token belongs to
the first category whose rule it meets, and the last rule is met by all; a line belongs where its
header token does, and one without a header token to the last category.

* `Category.all`      — the categories, their order being both the order of the tests and the
  order of the output.
* `Category.ofHeader` — the category of a header token, for the file it stands in.
* `Category.ofLine`   — the category of a line.
-/

namespace IncludeOrder

inductive Category where
  /-- The header of the file itself, `"foo.h"` in `foo.cpp`. -/
  | selfHeader
  /-- A word between angle brackets, `<vector>`. -/
  | system
  /-- A word with the extension `.h`, `<stdio.h>`. -/
  | systemHeader
  /-- A path between angle brackets, `<sys/types.h>`. -/
  | nested
  /-- Anything between quotes. -/
  | quoted
  | other
deriving DecidableEq, Repr

/-- What a header token has to look like, up to its delimiters. -/
inductive Shape where
  | angleWord
  | angleWordDotH
  | anglePath
  | quotes
deriving DecidableEq, Repr

inductive Rule where
  /-- Equal to the self header, apart from the case of ASCII letters. -/
  | selfHeader
  | shape (s : Shape)
  | any
deriving DecidableEq, Repr

namespace Shape

def isWordChar (c : Char) : Bool :=
  c.isAlphanum || c = '_'

/-- A word, then exactly `rest`. -/
def isWordThen (rest t : Text) : Bool :=
  match t.takeWhile isWordChar with
  | [] => false
  | _ :: _ => t.dropWhile isWordChar = rest

/-- No line feed up to the last character, which is a quote. -/
def endsInQuote : Text → Bool
  | [] => false
  | [c] => c = '"'
  | c :: d :: r => c ≠ '\n' && endsInQuote (d :: r)

/-- The header token has the shape. A line feed stops the search for a slash. -/
def holds : Shape → Text → Bool
  | _, [] => false
  | angleWord, c :: r => c = '<' && isWordThen ['>'] r
  | angleWordDotH, c :: r => c = '<' && isWordThen ['.', 'h', '>'] r
  | anglePath, c :: r => c = '<' && (r.takeWhile (· ≠ '\n')).contains '/'
  | quotes, c :: r => c = '"' && endsInQuote r

end Shape

/-- The header that belongs to a file: its stem with the extension `.h`, between quotes. -/
def selfHeader (file : Path) : Text :=
  '"' :: Utf8.lossy (file.stem?.getD []) ++ ['.', 'h', '"']

namespace Category

def all : List Category :=
  [selfHeader, system, systemHeader, nested, quoted, other]

/-- The smaller, the earlier. Some numbers are left free. -/
def priority : Category → Nat
  | selfHeader => 0
  | system => 1
  | systemHeader => 2
  | nested => 3
  | quoted => 5
  | other => 9

def name : Category → String
  | selfHeader => "self"
  | system => "system"
  | systemHeader => "system-header"
  | nested => "nested"
  | quoted => "quoted"
  | other => "other"

def description : Category → String
  | selfHeader => "Header matching the file being sorted"
  | system => "Angle-bracket header without extension or path"
  | systemHeader => "Angle-bracket .h header without path"
  | nested => "Angle-bracket header with a path separator"
  | quoted => "Quoted project header"
  | other => "Anything else"

def rule : Category → Rule
  | selfHeader => .selfHeader
  | system => .shape .angleWord
  | systemHeader => .shape .angleWordDotH
  | nested => .shape .anglePath
  | quoted => .shape .quotes
  | other => .any

end Category

namespace Rule

def holds (file : Path) (header : Text) : Rule → Bool
  | selfHeader => Text.sameIgnoringCase header (IncludeOrder.selfHeader file)
  | shape s => s.holds header
  | any => true

end Rule

namespace Category

def ofHeader (file : Path) (header : Text) : Category :=
  (all.find? fun c => c.rule.holds file header).getD other

def ofLine (file : Path) (l : Line) : Category :=
  match Directive.headerToken? l with
  | none => other
  | some header => ofHeader file header

end Category
end IncludeOrder
