import IncludeOrder.Text.Basic

/-!
# IncludeOrder.Text.Utf8

Text as bytes. Reading goes byte by byte: a state says how many bytes the current character still
needs and which values its next byte may have, which excludes overlong forms, surrogates and
code points past the last one.

* `encode`  — the bytes of a text.
* `decode?` — the text of some bytes, if they are the bytes of a text.
* `lossy`   — always a text: each longest piece that starts a character and cannot be continued
  becomes one replacement character, and so does each byte that starts none.
-/

namespace IncludeOrder
namespace Utf8

def encode (t : Text) : Bytes :=
  t.flatMap String.utf8EncodeChar

/-- A character of which some bytes are still missing: the bits read, the number of missing
bytes less one, and the bounds of the next byte. -/
structure Partial where
  bits : Nat
  more : Nat
  low : Nat
  high : Nat

/-- What one byte brings: finished characters or faults, and the character it leaves open. -/
abbrev Step := List (Option Char) × Option Partial

/-- A byte between characters. -/
def start (b : Nat) : Step :=
  if b < 0x80 then ([some (Char.ofNat b)], none)
  else if b < 0xC2 then ([none], none)
  else if b < 0xE0 then ([], some ⟨b - 0xC0, 0, 0x80, 0xBF⟩)
  else if b = 0xE0 then ([], some ⟨0, 1, 0xA0, 0xBF⟩)
  else if b = 0xED then ([], some ⟨0xD, 1, 0x80, 0x9F⟩)
  else if b < 0xF0 then ([], some ⟨b - 0xE0, 1, 0x80, 0xBF⟩)
  else if b = 0xF0 then ([], some ⟨0, 2, 0x90, 0xBF⟩)
  else if b < 0xF4 then ([], some ⟨b - 0xF0, 2, 0x80, 0xBF⟩)
  else if b = 0xF4 then ([], some ⟨4, 2, 0x80, 0x8F⟩)
  else ([none], none)

/-- A byte inside a character. One that cannot continue it ends it as a fault and starts anew. -/
def Partial.feed (p : Partial) (b : Nat) : Step :=
  if p.low ≤ b ∧ b ≤ p.high then
    match p.more with
    | 0 => ([some (Char.ofNat (p.bits * 64 + (b - 0x80)))], none)
    | n + 1 => ([], some ⟨p.bits * 64 + (b - 0x80), n, 0x80, 0xBF⟩)
  else
    (none :: (start b).1, (start b).2)

def step (s : Option Partial) (b : UInt8) : Step :=
  match s with
  | none => start b.toNat
  | some p => p.feed b.toNat

/-- The characters and faults of some bytes. -/
def units : Option Partial → Bytes → List (Option Char)
  | none, [] => []
  | some _, [] => [none]
  | s, b :: r => (step s b).1 ++ units (step s b).2 r

/-- All of them, if none is missing. -/
def allSome : List (Option Char) → Option Text
  | [] => some []
  | none :: _ => none
  | some c :: r =>
    match allSome r with
    | none => none
    | some t => some (c :: t)

def decode? (b : Bytes) : Option Text :=
  allSome (units none b)

def lossy (b : Bytes) : Text :=
  (units none b).map fun u => u.getD '\uFFFD'

end Utf8
end IncludeOrder
