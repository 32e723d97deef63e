import IncludeOrder.Proofs.Block
import Mathlib.Order.Bounds.Basic

/-!
# IncludeOrder.Proofs.Grammar

The grammar of include directives, said without the functions that read them. `Token` describes the
header tokens and `Starts` a line that starts with a directive; a directive anywhere in a line is one
that the line starts with once some characters are dropped.

* `directive?_eq_some_iff`   — a directive is read exactly where the grammar has one.
* `headerToken?_eq_some_iff` — the search finds the first one in a line.
* `grammar_exact`          — both together, and what follows for the lines of a block.
-/

namespace IncludeOrder

theorem afterStart?_append (s r : Text) : afterStart? s (s ++ r) = some r := by
  induction s with
  | nil => rfl
  | cons a s ih => simp [afterStart?, ih]

namespace Directive

open Text (isWhiteSpace)

def inAngles (w : Text) : Text :=
  '<' :: w ++ ['>']

def inQuotes (w : Text) : Text :=
  '"' :: w ++ ['"']

/-- The header tokens. What is enclosed is not empty and does not hold the closing delimiter. -/
inductive Token : Text → Prop where
  | angles {w : Text} (hne : w ≠ []) (hno : '>' ∉ w) : Token (inAngles w)
  | quotes {w : Text} (hne : w ≠ []) (hno : '"' ∉ w) : Token (inQuotes w)

/-- The line starts with a directive that has the header token `h`. -/
inductive Starts (h : Text) : Line → Prop where
  | intro {gap : Text} (rest : Text) (hne : gap ≠ []) (hgap : ∀ c ∈ gap, isWhiteSpace c = true)
      (htoken : Token h) : Starts h (keyword ++ gap ++ h ++ rest)

variable {a z : Char} {w t rest h h' : Text} {l : Line}

/-! ## Tokens -/

theorem enclosed?_eq_some_iff : enclosed? a z t = some h ↔
    ∃ w rest, w ≠ [] ∧ z ∉ w ∧ t = w ++ z :: rest ∧ h = a :: w ++ [z] := by
  constructor
  · intro ht
    obtain ⟨hsplit, hno, hstop⟩ := takeWhile_dropWhile (· ≠ z) t
    simp only [enclosed?] at ht
    split at ht
    · rename_i c r d rest hbefore hbehind
      cases ht
      rw [hbehind] at hsplit hstop
      obtain rfl : d = z := by simpa using hstop d rfl
      refine ⟨_, rest, ?_, fun hd => ?_, hsplit, rfl⟩
      · rw [hbefore]
        exact List.cons_ne_nil c r
      · simpa using hno d hd
    · cases ht
  · rintro ⟨w, rest, hne, hno, rfl, rfl⟩
    have hw : ∀ c ∈ w, decide (c ≠ z) = true :=
      fun c hc => decide_eq_true (ne_of_mem_of_not_mem hc hno)
    have hstop : ∀ c ∈ (z :: rest).head?, decide (c ≠ z) = false := by simp
    obtain ⟨htake, hdrop⟩ := takeWhile_dropWhile_iff.2 ⟨rfl, hw, hstop⟩
    obtain ⟨c, r, hw⟩ := List.exists_cons_of_ne_nil hne
    simp only [enclosed?, htake, hdrop]
    rw [hw]

theorem token?_eq_some_iff : token? t = some h ↔ Token h ∧ ∃ rest, t = h ++ rest := by
  constructor
  · intro ht
    cases t with
    | nil => cases ht
    | cons c r =>
      simp only [token?] at ht
      split at ht
      · rename_i hc
        obtain ⟨w, rest, hne, hno, rfl, rfl⟩ := enclosed?_eq_some_iff.1 ht
        exact ⟨.angles hne hno, rest, by simp [hc]⟩
      · split at ht
        · rename_i hc
          obtain ⟨w, rest, hne, hno, rfl, rfl⟩ := enclosed?_eq_some_iff.1 ht
          exact ⟨.quotes hne hno, rest, by simp [hc]⟩
        · cases ht
  · rintro ⟨htoken, rest, rfl⟩
    cases htoken with
    | @angles w hne hno =>
      have hw : enclosed? '<' '>' (w ++ '>' :: rest) = some (inAngles w) :=
        enclosed?_eq_some_iff.2 ⟨w, rest, hne, hno, rfl, rfl⟩
      simpa [token?, inAngles] using hw
    | @quotes w hne hno =>
      have hw : enclosed? '"' '"' (w ++ '"' :: rest) = some (inQuotes w) :=
        enclosed?_eq_some_iff.2 ⟨w, rest, hne, hno, rfl, rfl⟩
      simpa [token?, inQuotes] using hw

/-- The white space in front of a token ends where the token starts. -/
theorem Token.not_whiteSpace (ht : Token h) (rest : Text) :
    ∀ c ∈ (h ++ rest).head?, isWhiteSpace c = false := by
  cases ht <;> rintro c ⟨⟩ <;> decide

/-! ## Directives -/

theorem directive?_eq_some_iff : directive? l = some h ↔ Starts h l := by
  constructor
  · intro hl
    simp only [directive?] at hl
    split at hl
    · cases hl
    · rename_i r hr
      obtain ⟨hsplit, hgap, _⟩ := takeWhile_dropWhile isWhiteSpace r
      split at hl
      · cases hl
      · rename_i c gap hne
        obtain ⟨htoken, rest, hrest⟩ := token?_eq_some_iff.1 hl
        rw [hne] at hsplit hgap
        rw [afterStart?_eq_some hr, hsplit, hrest, ← List.append_assoc, ← List.append_assoc]
        exact .intro rest (List.cons_ne_nil c gap) hgap htoken
  · rintro ⟨rest, hne, hgap, htoken⟩
    rename_i gap
    obtain ⟨htake, hdrop⟩ :=
      takeWhile_dropWhile_iff.2 ⟨rfl, hgap, htoken.not_whiteSpace rest⟩
    obtain ⟨d, gap', hd⟩ := List.exists_cons_of_ne_nil hne
    simp only [directive?, List.append_assoc, afterStart?_append, htake, hdrop]
    rw [hd]
    exact token?_eq_some_iff.2 ⟨htoken, rest, rfl⟩

theorem Starts.unique (hl : Starts h l) (hl' : Starts h' l) : h = h' :=
  Option.some.inj ((directive?_eq_some_iff.2 hl).symm.trans (directive?_eq_some_iff.2 hl'))

theorem directive?_eq_none_iff : directive? l = none ↔ ∀ h, ¬ Starts h l := by
  simp only [Option.eq_none_iff_forall_ne_some, ne_eq, directive?_eq_some_iff]

theorem isInclude_iff : isInclude l = true ↔ ∃ h, Starts h l := by
  simp only [isInclude, Option.isSome_iff_exists, directive?_eq_some_iff]

/-! ## The first directive of a line -/

theorem Starts.ne_nil (hl : Starts h l) : l ≠ [] := by
  cases hl
  simp [keyword]

theorem headerToken?_eq_none_iff : headerToken? l = none ↔ ∀ i h, ¬ Starts h (l.drop i) := by
  induction l with
  | nil =>
    simp only [headerToken?, List.drop_nil, true_iff]
    exact fun _ _ hnil => hnil.ne_nil rfl
  | cons c r ih =>
    simp only [headerToken?]
    split
    · rename_i t ht
      have hstarts := directive?_eq_some_iff.1 ht
      constructor
      · intro hsome
        cases hsome
      · intro hnone
        exact absurd hstarts (hnone 0 t)
    · rename_i hnone
      rw [ih]
      constructor
      · intro hrest i h
        cases i with
        | zero => exact directive?_eq_none_iff.1 hnone h
        | succ i => exact hrest i h
      · intro hall i h
        exact hall (i + 1) h

/-- The search stops at the first place where the rest of the line starts with a directive. -/
theorem headerToken?_eq_some_iff : headerToken? l = some h ↔
    ∃ i, Starts h (l.drop i) ∧ ∀ j < i, ∀ h', ¬ Starts h' (l.drop j) := by
  induction l with
  | nil =>
    simp only [headerToken?, List.drop_nil]
    constructor
    · intro hnil
      cases hnil
    · rintro ⟨i, hnil, _⟩
      exact absurd rfl hnil.ne_nil
  | cons c r ih =>
    simp only [headerToken?]
    split
    · rename_i t ht
      have hstarts := directive?_eq_some_iff.1 ht
      constructor
      · rintro ⟨⟩
        exact ⟨0, hstarts, fun j hj => absurd hj (Nat.not_lt_zero j)⟩
      · rintro ⟨i, hi, hfirst⟩
        cases i with
        | zero => rw [hstarts.unique hi]
        | succ i => exact absurd hstarts (hfirst 0 (Nat.succ_pos i) t)
    · rename_i hnone
      have hzero := directive?_eq_none_iff.1 hnone
      rw [ih]
      constructor
      · rintro ⟨i, hi, hfirst⟩
        refine ⟨i + 1, hi, fun j hj h' => ?_⟩
        cases j with
        | zero => exact hzero h'
        | succ j => exact hfirst j (Nat.lt_of_succ_lt_succ hj) h'
      · rintro ⟨i, hi, hfirst⟩
        cases i with
        | zero => exact absurd hi (hzero h)
        | succ i => exact ⟨i, hi, fun j hj => hfirst (j + 1) (Nat.succ_lt_succ hj)⟩

theorem exists_headerToken? (hl : isInclude l = true) :
    ∃ h, headerToken? l = some h ∧ Starts h l := by
  obtain ⟨h, hstarts⟩ := isInclude_iff.1 hl
  exact ⟨h, headerToken?_eq_some_iff.2 ⟨0, hstarts, fun j hj => absurd hj (Nat.not_lt_zero j)⟩,
    hstarts⟩

/-- Reading follows the grammar. At each place of a line there is at most one directive; an include line
is one that starts with a directive; and the header token of a line is that of its first directive, if it
has any. So every include line of a block has a header token, that of the directive it starts with. -/
theorem grammar_exact (l : Line) :
    (∀ i h h', Starts h (l.drop i) → Starts h' (l.drop i) → h = h') ∧
    (isInclude l = true ↔ ∃ h, Starts h l) ∧
    (∀ h, headerToken? l = some h ↔
      ∃ i, IsLeast {j | ∃ h', Starts h' (l.drop j)} i ∧ Starts h (l.drop i)) ∧
    (headerToken? l = none ↔ ∀ i h, ¬ Starts h (l.drop i)) ∧
    ∀ ls b, Block.locate ls = some b → l ∈ b.includes →
      ∃ h, headerToken? l = some h ∧ Starts h l := by
  refine ⟨fun _ _ _ => Starts.unique, isInclude_iff, fun h => ?_, headerToken?_eq_none_iff, ?_⟩
  · rw [headerToken?_eq_some_iff]
    constructor
    · rintro ⟨i, hi, hfirst⟩
      refine ⟨i, ⟨⟨h, hi⟩, fun j hj => ?_⟩, hi⟩
      obtain ⟨h', hj⟩ := hj
      exact Nat.le_of_not_lt fun hlt => hfirst j hlt h' hj
    · rintro ⟨i, ⟨_, hleast⟩, hi⟩
      exact ⟨i, hi, fun j hj h' hstarts => Nat.not_le_of_lt hj (hleast ⟨h', hstarts⟩)⟩
  · intro ls b hb hl
    exact exists_headerToken? (Block.mem_includes hb hl).2

/-- The gap is a line feed and an ideographic space, and there is a directive in the token and one
behind it. -/
def entangled : Line :=
  "#include\n\u3000\"#include <a>\n\"#include <b>".toList

theorem grammar_exact_entangled :
    headerToken? entangled = some "\"#include <a>\n\"".toList ∧
    ∃ b, Block.locate ["#include <> #include X".toList, entangled] = some b ∧
      entangled ∈ b.includes ∧ ∃ h, headerToken? entangled = some h ∧ Starts h entangled := by
  have hb : Block.locate ["#include <> #include X".toList, entangled] =
      some ⟨1, 1, [entangled]⟩ := by decide
  have hl : entangled ∈ [entangled] := List.mem_singleton.2 rfl
  obtain ⟨_, _, _, _, hblock⟩ := grammar_exact entangled
  exact ⟨by decide, _, hb, hl, hblock _ _ hb hl⟩

end Directive
end IncludeOrder
