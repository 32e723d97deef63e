import IncludeOrder.Text.Basic

/-!
# IncludeOrder.Glob

Patterns for names. `?` stands for any character, `*` for any text, and a class in brackets for one
of its characters, or with `!` for one that is not in it. `**` stands for any number of whole
components, and so it must itself be a component. There are no escapes.

* `Glob.parse`   — the pattern that a text is, or where and why it is none.
* `Glob.accepts` — the pattern stands for the whole of a text.

A search for a match is given up as soon as the text runs out where a pattern still wants a
character, because further places to start from leave even less text.
-/

namespace IncludeOrder
namespace Glob

inductive Specifier where
  | single (c : Char)
  /-- The code points from `low` to `high`, none if `high` is smaller. -/
  | range (low high : Char)
deriving DecidableEq, Repr

inductive Token where
  | char (c : Char)
  | anyChar
  | anyText
  | anyComponents
  | within (ss : List Specifier)
  | without (ss : List Specifier)
deriving DecidableEq, Repr

end Glob

structure Glob where
  tokens : List Glob.Token
deriving DecidableEq, Repr

namespace Glob

inductive Fault where
  /-- Three stars or more in a row. -/
  | manyStars
  /-- Two stars that are not a component of their own. -/
  | partOfComponent
  /-- A bracket without a class. -/
  | badClass
deriving DecidableEq, Repr

/-- A fault and the number of characters before it. -/
structure Error where
  position : Nat
  fault : Fault
deriving DecidableEq, Repr

namespace Fault

def message : Fault → String
  | manyStars => "wildcards are either regular \x60*\x60 or recursive \x60**\x60"
  | partOfComponent => "recursive wildcards must form a single path component"
  | badClass => "invalid range pattern"

end Fault

namespace Error

def message (e : Error) : Text :=
  Text.ofString "Pattern syntax error near position " ++ Text.ofNat e.position ++ [':', ' '] ++
    Text.ofString e.fault.message

end Error

/-! ## Reading a pattern -/

/-- The members of a class. A hyphen between two characters makes a range of them. -/
def specifiers : Text → List Specifier
  | [] => []
  | [a] => [.single a]
  | [a, b] => [.single a, .single b]
  | a :: b :: c :: r =>
    if b = '-' then .range a c :: specifiers r
    else .single a :: specifiers (b :: c :: r)

/-- The text up to a closing bracket, and what follows the bracket. -/
def closing? (t : Text) : Option (Text × Text) :=
  match t.dropWhile (· ≠ ']') with
  | [] => none
  | _ :: r => some (t.takeWhile (· ≠ ']'), r)

/-- The class behind an opening bracket, and what follows it. A closing bracket that comes first
is a member. -/
def class? : Text → Option (Token × Text)
  | [] => none
  | c :: r =>
    if c = '!' then
      match r with
      | [] => none
      | d :: r' =>
        match closing? r' with
        | none => none
        | some (body, rest) => some (.without (specifiers (d :: body)), rest)
    else
      match closing? r with
      | none => none
      | some (body, rest) => some (.within (specifiers (c :: body)), rest)

theorem length_closing? {t body rest : Text} (h : closing? t = some (body, rest)) :
    rest.length < t.length := by
  unfold closing? at h
  split at h
  · cases h
  · next c r heq =>
    cases h
    have hle := (List.dropWhile_sublist (l := t) (· ≠ ']')).length_le
    rw [heq, List.length_cons] at hle
    omega

theorem length_class? {t rest : Text} {k : Token} (h : class? t = some (k, rest)) :
    rest.length < t.length := by
  cases t with
  | nil => simp [class?] at h
  | cons c r =>
    simp only [class?] at h
    split at h
    · cases r with
      | nil => simp at h
      | cons d r' =>
        simp only at h
        split at h
        · cases h
        · next body rest' heq =>
          cases h
          have := length_closing? heq
          simp only [List.length_cons]
          omega
    · split at h
      · cases h
      · next body rest' heq =>
        cases h
        have := length_closing? heq
        simp only [List.length_cons]
        omega

/-- What two stars come to: a component of their own, which takes the slash behind it along, or a
fault at the neighbour that is no slash. `position` is the position of the stars. -/
def component (before : Option Char) (position : Nat) (rest : Text) : Except Error Text :=
  if before = none ∨ before = some '/' then
    match rest with
    | [] => .ok []
    | c :: r => if c = '/' then .ok r else .error ⟨position + 2, .partOfComponent⟩
  else .error ⟨position - 1, .partOfComponent⟩

theorem length_component {before : Option Char} {position : Nat} {rest r : Text}
    (h : component before position rest = .ok r) : r.length ≤ rest.length := by
  unfold component at h
  split at h
  · cases rest with
    | nil => cases h; exact Nat.le_refl _
    | cons c r' =>
      simp only at h
      split at h
      · cases h; simp
      · cases h
  · cases h

/-- Puts a token in front of what follows it. -/
def withToken (k : Token) : Except Error (List Token) → Except Error (List Token)
  | .ok ks => .ok (k :: ks)
  | .error e => .error e

/-- The tokens of a text that follows the character `before` at `position`. -/
def tokensFrom (before : Option Char) (position : Nat) (t : Text) : Except Error (List Token) :=
  match t with
  | [] => .ok []
  | c :: r =>
    if c = '?' then withToken .anyChar (tokensFrom (some c) (position + 1) r)
    else if c = '[' then
      match h : class? r with
      | none => .error ⟨position, .badClass⟩
      | some (k, rest) =>
        have := length_class? h
        withToken k (tokensFrom (some ']') (position + 1 + (r.length - rest.length)) rest)
    else if c = '*' then
      match h : r.dropWhile (· = '*'), r.takeWhile (· = '*') with
      | rest, [] =>
        have : rest.length < r.length + 1 := by
          have := (List.dropWhile_sublist (l := r) (· = '*')).length_le; rw [h] at this; omega
        withToken .anyText (tokensFrom (some '*') (position + 1) rest)
      | rest, [_] =>
        match h' : component before position rest with
        | .error e => .error e
        | .ok rest' =>
          have : rest'.length < r.length + 1 := by
            have := (List.dropWhile_sublist (l := r) (· = '*')).length_le; rw [h] at this
            have := length_component h'; omega
          withToken .anyComponents
            (tokensFrom (some '/') (position + 2 + (rest.length - rest'.length)) rest')
      | _, _ :: _ :: _ => .error ⟨position + 2, .manyStars⟩
    else withToken (.char c) (tokensFrom (some c) (position + 1) r)
termination_by t.length

/-- Of several `**` one behind the other only the first is kept. -/
def collapsed : List Token → List Token
  | [] => []
  | [k] => [k]
  | j :: k :: r =>
    if j = .anyComponents ∧ k = .anyComponents then collapsed (k :: r)
    else j :: collapsed (k :: r)

/-- The first token is always kept. -/
def parse (t : Text) : Except Error Glob :=
  match tokensFrom none 0 t with
  | .error e => .error e
  | .ok [] => .ok ⟨[]⟩
  | .ok (k :: ks) => .ok ⟨k :: collapsed ks⟩

/-! ## Matching -/

inductive Verdict where
  | matched
  /-- No match from here; further places may have one. -/
  | failed
  /-- The text ran out. -/
  | exhausted
deriving DecidableEq, Repr

namespace Specifier

def holds (c : Char) : Specifier → Bool
  | single d => c = d
  | range low high => low ≤ c && c ≤ high

end Specifier

/-- The verdict of the rest of a pattern, at the first of all suffixes where it does not fail. -/
def atEachSuffix (rest : Text → Verdict) : Text → Verdict
  | [] => rest []
  | c :: r =>
    match rest (c :: r) with
    | .failed => atEachSuffix rest r
    | v => v

/-- The same for the suffixes behind a slash, and the empty one at last. -/
def behindEachSlash (rest : Text → Verdict) : Text → Verdict
  | [] => rest []
  | c :: r =>
    if c = '/' then
      match rest r with
      | .failed => behindEachSlash rest r
      | v => v
    else behindEachSlash rest r

/-- The verdict of the rest of a pattern behind one character that satisfies `p`. -/
def behindOne (p : Char → Bool) (rest : Text → Verdict) : Text → Verdict
  | [] => .exhausted
  | c :: r => if p c then rest r else .failed

def verdict : List Token → Text → Verdict
  | [], t => if t = [] then .matched else .failed
  | .char d :: ks, t => behindOne (· = d) (verdict ks) t
  | .anyChar :: ks, t => behindOne (fun _ => true) (verdict ks) t
  | .within ss :: ks, t => behindOne (fun c => ss.any (·.holds c)) (verdict ks) t
  | .without ss :: ks, t => behindOne (fun c => !ss.any (·.holds c)) (verdict ks) t
  | .anyText :: ks, t => atEachSuffix (verdict ks) t
  | .anyComponents :: ks, t =>
    match verdict ks t with
    | .failed => behindEachSlash (verdict ks) t
    | v => v

def accepts (g : Glob) (t : Text) : Bool :=
  verdict g.tokens t = .matched

end Glob
end IncludeOrder
