import IncludeOrder.Text.Basic

/-!
# IncludeOrder.Toml.Writer

Writing strings and arrays of strings. A string is written in the first form that can hold it: between
double quotes without an escape, between single quotes, between three of either, and at last with
escapes. Line feeds call for three quotes, behind which a new line starts. An array of two elements or
more has each on a line of its own.

* `writeString` — one string.
* `writeArray`  — an array of strings.
-/

namespace IncludeOrder
namespace Toml

/-- A control that cannot be written as itself in any form. -/
def isCode (c : Char) : Bool :=
  (c.toNat < 0x20 && c ≠ '\t' && c ≠ '\n') || c.toNat = 0x7F

/-- The longest run of a character, `n` of them lying just before. -/
def longestRun (q : Char) (n : Nat) : Text → Nat
  | [] => n
  | c :: r => if c = q then longestRun q (n + 1) r else max n (longestRun q 0 r)

inductive Form where
  | basic
  | literal
  | basicLines
  | literalLines
deriving DecidableEq, Repr

def Form.of (t : Text) : Form :=
  let codes := t.any isCode
  let feeds := t.contains '\n'
  if !codes && !feeds && !t.contains '\\' && !t.contains '"' then .basic
  else if !codes && !feeds && !t.contains '\'' then .literal
  else if !codes && !t.contains '\\' && longestRun '"' 0 t ≤ 2 then .basicLines
  else if !codes && longestRun '\'' 0 t ≤ 2 then .literalLines
  else if feeds then .basicLines
  else .basic

/-- Four hexadecimal digits in upper case. -/
def fourDigits (n : Nat) : Text :=
  let digits := (Nat.toDigits 16 n).map Char.toUpper
  List.replicate (4 - digits.length) '0' ++ digits

/-- A character between double quotes, those and line feeds apart. -/
def escaped (c : Char) : Text :=
  if c = '\x08' then ['\\', 'b']
  else if c = '\t' then ['\\', 't']
  else if c = '\x0c' then ['\\', 'f']
  else if c = '\r' then ['\\', 'r']
  else if c = '\\' then ['\\', '\\']
  else if isCode c then ['\\', 'u'] ++ fourDigits c.toNat
  else [c]

/-- The string between double quotes. -/
def basicBody : Text → Text
  | [] => []
  | c :: r =>
    (if c = '"' then ['\\', '"'] else if c = '\n' then ['\\', 'n'] else escaped c) ++ basicBody r

/-- The string between three double quotes, where `quotes` of them lie just before. The third in a row
has an escape, and the count starts anew behind it. -/
def basicLinesBody (quotes : Nat) : Text → Text
  | [] => []
  | c :: r =>
    if c = '"' then
      if quotes < 2 then '"' :: basicLinesBody (quotes + 1) r
      else ['\\', '"'] ++ basicLinesBody 0 r
    else if c = '\n' then '\n' :: basicLinesBody 0 r
    else escaped c ++ basicLinesBody 0 r

def opening (t : Text) : Text :=
  if t.contains '\n' then ['\n'] else []

def writeString (t : Text) : Text :=
  match Form.of t with
  | .basic => '"' :: basicBody t ++ ['"']
  | .literal => '\'' :: t ++ ['\'']
  | .basicLines => ['"', '"', '"'] ++ opening t ++ basicLinesBody 0 t ++ ['"', '"', '"']
  | .literalLines => ['\'', '\'', '\''] ++ opening t ++ t ++ ['\'', '\'', '\'']

/-- An element on a line of its own. -/
def elementLine (t : Text) : Text :=
  [' ', ' ', ' ', ' '] ++ writeString t ++ [',', '\n']

def writeArray : List Text → Text
  | [] => ['[', ']']
  | [t] => '[' :: writeString t ++ [']']
  | ts => ['[', '\n'] ++ ts.flatMap elementLine ++ [']']

end Toml
end IncludeOrder
