import IncludeOrder.Text.Basic

/-!
# IncludeOrder.Toml.Strings

The four written forms of a string: between one or three double quotes, with escapes, and between one
or three single quotes, without. Only the forms with three quotes hold line feeds; one right behind
the opening quotes does not count.

* `readString` — the string that a text starts with, and what follows it.
-/

namespace IncludeOrder
namespace Toml

/-- Reads a part from the front of a text; the result comes with the rest of the text. -/
abbrev Reading (α : Type) := Option (α × Text)

def isSpace (c : Char) : Bool :=
  c = ' ' || c = '\t'

/-- Controls other than the tab cannot be written as themselves. -/
def isPlain (c : Char) : Bool :=
  c = '\t' || (0x20 ≤ c.toNat && c.toNat ≠ 0x7F)

/-- The text behind a line end, which is a line feed, perhaps after a carriage return. -/
def lineFeed? : Text → Option Text
  | [] => none
  | c :: r =>
    if c = '\n' then some r
    else if c = '\r' then
      match r with
      | [] => none
      | d :: r' => if d = '\n' then some r' else none
    else none

/-- Puts a character, if there is one, in front of a string still to be read. -/
def withChar : Option Char → Reading Text → Reading Text
  | some c, some (s, r) => some (c :: s, r)
  | _, _ => none

/-! ## Escapes -/

def hexDigit? (c : Char) : Option Nat :=
  if '0' ≤ c ∧ c ≤ '9' then some (c.toNat - '0'.toNat)
  else if 'a' ≤ c ∧ c ≤ 'f' then some (c.toNat - 'a'.toNat + 10)
  else if 'A' ≤ c ∧ c ≤ 'F' then some (c.toNat - 'A'.toNat + 10)
  else none

/-- The number that hexadecimal digits continue. -/
def hexNumber? : Nat → List Char → Option Nat
  | n, [] => some n
  | n, c :: r =>
    match hexDigit? c with
    | none => none
    | some d => hexNumber? (n * 16 + d) r

/-- The character of a code point; surrogates have none. -/
def charOf? (digits : List Char) : Option Char :=
  match hexNumber? 0 digits with
  | none => none
  | some n => if n.isValidChar then some (Char.ofNat n) else none

/-- The character that a letter behind a backslash stands for. -/
def shortEscape? (c : Char) : Option Char :=
  if c = 'b' then some '\x08'
  else if c = 't' then some '\t'
  else if c = 'n' then some '\n'
  else if c = 'f' then some '\x0c'
  else if c = 'r' then some '\r'
  else if c = '"' then some '"'
  else if c = '\\' then some '\\'
  else none

/-! ## One line -/

/-- A string behind its opening double quote. -/
def readBasic : Text → Reading Text
  | [] => none
  | c :: r =>
    if c = '"' then some ([], r)
    else if c = '\\' then
      match r with
      | 'u' :: a :: b :: c :: d :: r' => withChar (charOf? [a, b, c, d]) (readBasic r')
      | 'U' :: a :: b :: c :: d :: e :: f :: g :: h :: r' =>
        withChar (charOf? [a, b, c, d, e, f, g, h]) (readBasic r')
      | e :: r' => withChar (shortEscape? e) (readBasic r')
      | [] => none
    else if isPlain c then withChar (some c) (readBasic r)
    else none

/-- A string behind its opening single quote. -/
def readLiteral : Text → Reading Text
  | [] => none
  | c :: r =>
    if c = '\'' then some ([], r)
    else if isPlain c then withChar (some c) (readLiteral r)
    else none

/-! ## Several lines -/

/-- What two more quotes and the text behind them come to: the end of the string. Up to two quotes in
front of the closing three belong to the string. -/
def closing? (quote : Char) : Text → Reading Text
  | a :: b :: r =>
    if a = quote ∧ b = quote then
      some ((r.take 2).takeWhile (· = quote), r.drop ((r.take 2).takeWhile (· = quote)).length)
    else none
  | _ => none

inductive Fold where
  | none
  /-- Behind a backslash and spaces, where the line has to end. -/
  | opened
  /-- Behind that line end, where white space does not count. -/
  | skipping
deriving DecidableEq, Repr

/-- A string of several lines behind its opening double quotes. -/
def readBasicLines (fold : Fold) : Text → Reading Text
  | [] => none
  | c :: r =>
    if fold ≠ .none ∧ isSpace c then readBasicLines fold r
    else if c = '\n' then
      if fold = .none then withChar (some '\n') (readBasicLines .none r)
      else readBasicLines .skipping r
    else if c = '\r' then
      match r with
      | '\n' :: r' =>
        if fold = .none then withChar (some '\n') (readBasicLines .none r')
        else readBasicLines .skipping r'
      | _ => none
    else if fold = .opened then none
    else if c = '"' then
      match closing? '"' r with
      | some e => some e
      | none => withChar (some '"') (readBasicLines .none r)
    else if c = '\\' then
      match r with
      | 'u' :: a :: b :: c :: d :: r' => withChar (charOf? [a, b, c, d]) (readBasicLines .none r')
      | 'U' :: a :: b :: c :: d :: e :: f :: g :: h :: r' =>
        withChar (charOf? [a, b, c, d, e, f, g, h]) (readBasicLines .none r')
      | e :: r' =>
        if isSpace e then readBasicLines .opened r'
        else if e = '\n' then readBasicLines .skipping r'
        else if e = '\r' then readBasicLines .opened (e :: r')
        else withChar (shortEscape? e) (readBasicLines .none r')
      | [] => none
    else if isPlain c then withChar (some c) (readBasicLines .none r)
    else none

/-- A string of several lines behind its opening single quotes. -/
def readLiteralLines : Text → Reading Text
  | [] => none
  | c :: r =>
    if c = '\n' then withChar (some '\n') (readLiteralLines r)
    else if c = '\r' then
      match r with
      | '\n' :: r' => withChar (some '\n') (readLiteralLines r')
      | _ => none
    else if c = '\'' then
      match closing? '\'' r with
      | some e => some e
      | none => withChar (some '\'') (readLiteralLines r)
    else if isPlain c then withChar (some c) (readLiteralLines r)
    else none

/-! ## All forms -/

/-- The text without the line end that it starts with. -/
def afterLineFeed (t : Text) : Text :=
  (lineFeed? t).getD t

/-- A string of one line. -/
def readLineString : Text → Reading Text
  | [] => none
  | c :: r =>
    if c = '"' then readBasic r
    else if c = '\'' then readLiteral r
    else none

def readString (t : Text) : Reading Text :=
  match t with
  | '"' :: '"' :: '"' :: r => readBasicLines .none (afterLineFeed r)
  | '\'' :: '\'' :: '\'' :: r => readLiteralLines (afterLineFeed r)
  | _ => readLineString t

end Toml
end IncludeOrder
