import IncludeOrder.Toml.Document

/-!
# IncludeOrder.Toml.Scalar

Numbers, truth values, dates and times. Each is one word, but a space may stand between a date and
the time that belongs to it.

* `Node.ofWord?` — the node that a word is.

An integer fits in 64 bits with a sign. A fraction must not be so large that it would count as
infinite; a negative one may.
-/

namespace IncludeOrder
namespace Toml

/-! ## Digits -/

def isBinary (c : Char) : Bool := c = '0' || c = '1'

def isOctal (c : Char) : Bool := '0' ≤ c && c ≤ '7'

def isHex (c : Char) : Bool :=
  c.isDigit || ('a' ≤ c && c ≤ 'f') || ('A' ≤ c && c ≤ 'F')

/-- Digits, with single underscores between some of them. -/
def areDigits (p : Char → Bool) (t : Text) : Bool :=
  (t.splitOn '_').all fun g => !g.isEmpty && g.all p

/-- Decimal digits without a leading zero. -/
def areCountDigits (t : Text) : Bool :=
  match t with
  | [] => false
  | c :: r => areDigits Char.isDigit t && (c ≠ '0' || r.isEmpty)

def digitValue (c : Char) : Nat :=
  if c.isDigit then c.toNat - '0'.toNat else c.toLower.toNat - 'a'.toNat + 10

/-- The number that digits are; underscores do not count. -/
def valueOf (base : Nat) (t : Text) : Nat :=
  (t.filter (· ≠ '_')).foldl (fun n c => n * base + digitValue c) 0

/-- The sign of a number, `true` for a minus, and what follows it. -/
def signed : Text → Bool × Text
  | [] => (false, [])
  | c :: r => if c = '+' then (false, r) else if c = '-' then (true, r) else (false, c :: r)

/-! ## Integers -/

/-- The first natural number that does not fit in 64 bits with a sign. -/
def integerBound : Nat := Nat.pow 2 63

def ofPrefixed (p : Char → Bool) (base : Nat) (t : Text) : Option Node :=
  if areDigits p t && valueOf base t < integerBound then some (.integer (valueOf base t)) else none

def ofDecimal (t : Text) : Option Node :=
  match signed t with
  | (negative, digits) =>
    if !areCountDigits digits then none
    else if negative then
      if valueOf 10 digits ≤ integerBound then some (.integer (-(valueOf 10 digits : Int))) else none
    else if valueOf 10 digits < integerBound then some (.integer (valueOf 10 digits))
    else none

def integer? : Text → Option Node
  | '0' :: 'x' :: r => ofPrefixed isHex 16 r
  | '0' :: 'o' :: r => ofPrefixed isOctal 8 r
  | '0' :: 'b' :: r => ofPrefixed isBinary 2 r
  | t => ofDecimal t

/-! ## Fractions -/

def isDigitOrBar (c : Char) : Bool := c.isDigit || c = '_'

/-- The exponent that a text is, zero if there is none. -/
def exponent? : Text → Option Int
  | [] => some 0
  | c :: r =>
    if c = 'e' ∨ c = 'E' then
      match signed r with
      | (negative, digits) =>
        if !areDigits Char.isDigit digits then none
        else if negative then some (-(valueOf 10 digits : Int))
        else some (valueOf 10 digits)
    else none

/-- The digits behind a point, none if there is no point, and the text behind them. -/
def decimals? (t : Text) : Option (Text × Text) :=
  match t with
  | '.' :: r =>
    if areDigits Char.isDigit (r.takeWhile isDigitOrBar) then
      some (r.takeWhile isDigitOrBar, r.dropWhile isDigitOrBar)
    else none
  | _ => some ([], t)

/-- The least number that is nearer to `2 ^ 1024` than to any number of 53 bits below it. -/
def infinite : Nat := Nat.pow 2 1024 - Nat.pow 2 970

/-- `m * 10 ^ e` counts as infinite. -/
def overflows (m : Nat) (e : Int) : Bool :=
  if m = 0 then false
  else if 0 ≤ e then 400 < e || infinite ≤ m * Nat.pow 10 e.toNat
  else (-e).toNat < (Nat.toDigits 10 m).length && infinite * Nat.pow 10 (-e).toNat ≤ m

def isFiniteFraction (t : Text) : Bool :=
  match signed t with
  | (negative, r) =>
    let whole := r.takeWhile isDigitOrBar
    let behind := r.dropWhile isDigitOrBar
    match decimals? behind with
    | none => false
    | some (decimals, last) =>
      match exponent? last with
      | none => false
      | some e =>
        areCountDigits whole && !behind.isEmpty &&
          (negative || !overflows (valueOf 10 (whole ++ decimals))
            (e - (decimals.filter (· ≠ '_')).length))

def isNamedFraction (t : Text) : Bool :=
  (signed t).2 = ['i', 'n', 'f'] || (signed t).2 = ['n', 'a', 'n']

def fraction? (t : Text) : Option Node :=
  if isFiniteFraction t || isNamedFraction t then some (.fraction t) else none

/-! ## Dates and times -/

/-- A number of two digits that lies within bounds. -/
def isTwo (low high : Nat) (a b : Char) : Bool :=
  a.isDigit && b.isDigit && low ≤ valueOf 10 [a, b] && valueOf 10 [a, b] ≤ high

def daysIn (year month : Nat) : Nat :=
  if month = 2 then
    if year % 4 = 0 ∧ (year % 100 ≠ 0 ∨ year % 400 = 0) then 29 else 28
  else if month = 4 ∨ month = 6 ∨ month = 9 ∨ month = 11 then 30
  else 31

def isDate : Text → Bool
  | [a, b, c, d, '-', e, f, '-', g, h] =>
    [a, b, c, d].all Char.isDigit && isTwo 1 12 e f &&
      isTwo 1 (daysIn (valueOf 10 [a, b, c, d]) (valueOf 10 [e, f])) g h
  | _ => false

def isOffset : Text → Bool
  | [c] => c = 'Z' || c = 'z'
  | [s, a, b, ':', c, d] => (s = '+' || s = '-') && isTwo 0 23 a b && isTwo 0 59 c d
  | _ => false

/-- What may follow the seconds of a time: parts of them, and a place for an offset. -/
def isTimeEnd (offset : Text → Bool) : Text → Bool
  | '.' :: r => !(r.takeWhile Char.isDigit).isEmpty && offset (r.dropWhile Char.isDigit)
  | t => offset t

def isTime (offset : Text → Bool) : Text → Bool
  | a :: b :: ':' :: c :: d :: ':' :: e :: f :: r =>
    isTwo 0 23 a b && isTwo 0 59 c d && isTwo 0 60 e f && isTimeEnd offset r
  | _ => false

def isLocalTime (t : Text) : Bool :=
  isTime List.isEmpty t

/-- The time of a date may have an offset. -/
def isTimeOfDate (t : Text) : Bool :=
  isTime (fun r => r.isEmpty || isOffset r) t

def date? (t : Text) : Option Node :=
  if isDate t || isLocalTime t then some (.date t)
  else
    match t.drop 10 with
    | [] => none
    | c :: r =>
      if isDate (t.take 10) && (c = 'T' || c = 't') && isTimeOfDate r then some (.date t)
      else none

/-! ## Words -/

def truth? (t : Text) : Option Node :=
  if t = ['t', 'r', 'u', 'e'] then some (.truth true)
  else if t = ['f', 'a', 'l', 's', 'e'] then some (.truth false)
  else none

def Node.ofWord? (t : Text) : Option Node :=
  (truth? t).or <| (integer? t).or <| (fraction? t).or (date? t)

end Toml
end IncludeOrder
