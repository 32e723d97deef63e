import IncludeOrder.Proofs.Layout
import Mathlib.Order.Bounds.Basic

/-!
# IncludeOrder.Proofs.Scan

Where the include block of some lines is. One pass over the lines finds it (`scan`): the pass keeps the
place of the first include line, the last place of the block so far and its include lines so far, and
stops at the first line that is not part of the block. What it keeps says everything about the
lines it has passed (`Passed`), which each step preserves (`Passed.step`) and the place where it
stops confirms (`Passed.cut`), so that it ends with the block (`scan_eq_locate`).

`locate_exact` gives the block by the places of the lines: it starts at the least place of an
include line and ends at the greatest one that only include lines and blank lines lead to.
-/

namespace IncludeOrder

open Directive (isInclude)

namespace Block

/-- What a pass over the lines has found. -/
structure Scan where
  first : Option Nat
  last : Nat
  includes : List Line

namespace Scan

def start : Scan :=
  ⟨none, 0, []⟩

/-- The line at place `i`; `none` when the pass stops there. -/
def step (s : Scan) (i : Nat) (l : Line) : Option Scan :=
  if isInclude l then some ⟨some (s.first.getD i), i, s.includes ++ [l]⟩
  else
    match s.first with
    | none => some s
    | some _ => if Text.isBlank l then some { s with last := i } else none

/-- The lines from place `i` on. -/
def run (s : Scan) (i : Nat) : List Line → Scan
  | [] => s
  | l :: ls =>
    match s.step i l with
    | none => s
    | some s' => run s' (i + 1) ls

def block? (s : Scan) : Option Block :=
  s.first.map fun first => ⟨first, s.last, s.includes⟩

/-- What a pass knows after the lines `ls`: there was no include line, or all lines from the first one
on are part of the block. -/
inductive Passed (ls : List Line) : Scan → Prop where
  | searching : (∀ l ∈ ls, isInclude l = false) → Passed ls start
  | inside {before run : List Line} : Cut ls before run [] →
      Passed ls ⟨some before.length, before.length + run.length - 1, run.filter isInclude⟩

end Scan

def scan (ls : List Line) : Option Block :=
  (Scan.start.run 0 ls).block?

variable {ls before run behind : List Line} {b : Block}

/-! ## The pass -/

/-- A line behind a block that goes on. -/
theorem Cut.concat (h : Cut ls before run []) {l : Line} (hl : isMember l = true) :
    Cut (ls ++ [l]) before (run ++ [l]) [] := by
  obtain ⟨m, hm, hi⟩ := h.starts
  refine ⟨by simp [h.lines_eq], h.before_none, ⟨m, ?_, hi⟩, ?_, by simp⟩
  · rw [List.head?_append_of_ne_nil _ h.run_ne_nil]
    exact hm
  · intro k hk
    rcases List.mem_append.1 hk with hk | hk
    · exact h.members k hk
    · rw [List.mem_singleton.1 hk]
      exact hl

theorem cut_first (h : ∀ l ∈ ls, isInclude l = false) {l : Line} (hl : isInclude l = true) :
    Cut (ls ++ [l]) ls [l] [] :=
  ⟨by simp, h, ⟨l, rfl, hl⟩, by simp [isMember_of_isInclude hl], by simp⟩

namespace Scan

variable {s s' : Scan} {l : Line}

theorem Passed.step (h : Passed ls s) (hs : s.step ls.length l = some s') :
    Passed (ls ++ [l]) s' := by
  unfold Scan.step at hs
  cases h with
  | searching hnone =>
    split at hs
    · rename_i hl
      cases hs
      have hcut := Passed.inside (cut_first hnone hl)
      simpa [start, hl] using hcut
    · rename_i hl
      cases hs
      refine .searching fun m hm => ?_
      rcases List.mem_append.1 hm with hm | hm
      · exact hnone m hm
      · rw [List.mem_singleton.1 hm]
        simpa using hl
  | @inside before run hcut =>
    -- the place of the line is the one behind the last place of the block so far
    have hplace : before.length + (run ++ [l]).length - 1 = ls.length := by
      simp [hcut.lines_eq]
    have hnext : isMember l = true → Passed (ls ++ [l])
        ⟨some before.length, ls.length, (run ++ [l]).filter isInclude⟩ := by
      intro hl
      have hpassed := Passed.inside (hcut.concat hl)
      rw [hplace] at hpassed
      exact hpassed
    split at hs
    · rename_i hl
      cases hs
      simpa [hl] using hnext (isMember_of_isInclude hl)
    · rename_i hl
      simp only at hs
      split at hs
      · rename_i hb
        cases hs
        simpa [hl] using hnext (by simp [isMember, hb])
      · cases hs

theorem Passed.cut (h : Passed ls s) (hs : s.step ls.length l = none) (rest : List Line) :
    ∃ before run, Cut (ls ++ l :: rest) before run (l :: rest) ∧
      s = ⟨some before.length, before.length + run.length - 1, run.filter isInclude⟩ := by
  unfold Scan.step at hs
  cases h with
  | searching hnone =>
    split at hs <;> cases hs
  | @inside before run hcut =>
    split at hs
    · cases hs
    · rename_i hl
      simp only at hs
      split at hs
      · cases hs
      · rename_i hb
        refine ⟨before, run, ⟨by simp [hcut.lines_eq], hcut.before_none, hcut.starts,
          hcut.members, ?_⟩, rfl⟩
        intro m hm
        cases hm
        simp [isMember, hl, hb]

theorem Passed.block?_eq (h : Passed ls s) : s.block? = locate ls := by
  cases h with
  | searching hnone => rw [locate_eq_none_iff.2 hnone]; rfl
  | inside hcut => rw [hcut.locate_eq]; rfl

/-- The whole pass, from any state it can be in. -/
theorem Passed.block?_run (h : Passed ls s) (rest : List Line) :
    (s.run ls.length rest).block? = locate (ls ++ rest) := by
  induction rest generalizing ls s with
  | nil =>
    rw [List.append_nil]
    exact h.block?_eq
  | cons l rest ih =>
    rw [Scan.run]
    cases hs : s.step ls.length l with
    | none =>
      obtain ⟨before, run, hcut, rfl⟩ := h.cut hs rest
      rw [hcut.locate_eq]
      rfl
    | some s' =>
      have hnext := ih (h.step hs)
      rw [List.length_append, List.length_singleton, List.append_assoc] at hnext
      exact hnext

end Scan

theorem scan_eq_locate (ls : List Line) : scan ls = locate ls := by
  have hstart : Scan.Passed [] Scan.start := .searching (by simp)
  exact hstart.block?_run ls

/-! ## The places of the block -/

/-- What the block of some lines is, by the places of the lines. -/
structure Exact (ls : List Line) (b : Block) : Prop where
  first : IsLeast {i | ∃ l ∈ ls[i]?, isInclude l = true} b.first
  last : IsGreatest {e | e < ls.length ∧
    ∀ i l, b.first ≤ i → i ≤ e → l ∈ ls[i]? → isInclude l = true ∨ Text.isBlank l = true} b.last
  first_le_last : b.first ≤ b.last
  last_lt_length : b.last < ls.length
  first_add_span : b.first + b.span = b.last + 1
  length_linesIn : (b.linesIn ls).length = b.span
  ends : ∀ l ∈ ls[b.last + 1]?, isInclude l = false ∧ Text.isBlank l = false
  includes : b.includes = (b.linesIn ls).filter isInclude
  includes_ne_nil : b.includes ≠ []

theorem getElem?_length_append (xs ys : List Line) : (xs ++ ys)[xs.length]? = ys.head? := by
  rw [List.getElem?_append_right (Nat.le_refl _), Nat.sub_self, List.head?_eq_getElem?]

namespace Cut

theorem mem_before (h : Cut ls before run behind) {i : Nat} {l : Line} (hi : i < before.length)
    (hl : l ∈ ls[i]?) : l ∈ before := by
  rw [h.lines_eq, List.append_assoc, List.getElem?_append_left hi] at hl
  exact List.mem_of_getElem? hl

theorem mem_run (h : Cut ls before run behind) {i : Nat} {l : Line} (hi : before.length ≤ i)
    (hi' : i < before.length + run.length) (hl : l ∈ ls[i]?) : l ∈ run := by
  rw [h.lines_eq, List.append_assoc, List.getElem?_append_right hi,
    List.getElem?_append_left (by omega)] at hl
  exact List.mem_of_getElem? hl

theorem getElem?_first (h : Cut ls before run behind) : ls[before.length]? = run.head? := by
  rw [h.lines_eq, List.append_assoc, getElem?_length_append,
    List.head?_append_of_ne_nil _ h.run_ne_nil]

theorem getElem?_behind (h : Cut ls before run behind) :
    ls[before.length + run.length]? = behind.head? := by
  rw [h.lines_eq, ← List.length_append, getElem?_length_append]

theorem isLeast_first (h : Cut ls before run behind) :
    IsLeast {i | ∃ l ∈ ls[i]?, isInclude l = true} before.length := by
  constructor
  · obtain ⟨l, hl, hi⟩ := h.starts
    exact ⟨l, by rw [h.getElem?_first]; exact hl, hi⟩
  · rintro i ⟨l, hl, hi⟩
    by_contra hlt
    rw [h.before_none l (h.mem_before (Nat.lt_of_not_le hlt) hl)] at hi
    cases hi

theorem isGreatest_last (h : Cut ls before run behind) :
    IsGreatest {e | e < ls.length ∧ ∀ i l, before.length ≤ i → i ≤ e → l ∈ ls[i]? →
      isInclude l = true ∨ Text.isBlank l = true} (before.length + run.length - 1) := by
  have hrun := h.length_run_pos
  have hlen := h.length_eq
  constructor
  · refine ⟨by omega, fun i l hi hi' hl => ?_⟩
    simpa [isMember] using h.members l (h.mem_run hi (by omega) hl)
  · rintro e ⟨he, hmembers⟩
    by_contra hlt
    -- the range would go on to the line behind the block
    have hbehind : behind ≠ [] := List.length_pos_iff.1 (by omega)
    obtain ⟨m, ms, rfl⟩ := List.exists_cons_of_ne_nil hbehind
    have hm : m ∈ ls[before.length + run.length]? := by
      rw [h.getElem?_behind]
      rfl
    have hmember := hmembers _ m (by omega) (by omega) hm
    have hend := h.ends m rfl
    rw [isMember, Bool.or_eq_false_iff] at hend
    rcases hmember with hi | hb
    · rw [hend.1] at hi
      cases hi
    · rw [hend.2] at hb
      cases hb

theorem exact (h : Cut ls before run behind) (hb : locate ls = some b) : Exact ls b := by
  have hrun := h.length_run_pos
  have hlines := h.linesIn_eq hb
  have hlast := h.isGreatest_last
  rw [h.locate_eq] at hb
  cases hb
  have hplace : before.length + run.length - 1 + 1 = before.length + run.length := by omega
  refine ⟨h.isLeast_first, hlast, by simp only; omega, hlast.1.1, ?_, ?_, ?_, ?_,
    h.includes_ne_nil⟩
  · simp only [span]
    omega
  · rw [hlines]
    simp only [span]
    omega
  · intro l hl
    simp only [hplace, h.getElem?_behind] at hl
    simpa [isMember] using h.ends l hl
  · rw [hlines]

end Cut

theorem Exact.unique {b' : Block} (h : Exact ls b) (h' : Exact ls b') : b = b' := by
  have hfirst : b.first = b'.first := h.first.unique h'.first
  have hlast : b.last = b'.last := by
    have hgreatest := h.last
    rw [hfirst] at hgreatest
    exact hgreatest.unique h'.last
  have hlines : b.linesIn ls = b'.linesIn ls := by
    rw [linesIn, linesIn, span, span, hfirst, hlast]
  have hincludes : b.includes = b'.includes := by rw [h.includes, h'.includes, hlines]
  obtain ⟨first, last, includes⟩ := b
  obtain ⟨first', last', includes'⟩ := b'
  simp only at hfirst hlast hincludes
  rw [hfirst, hlast, hincludes]

theorem locate_eq_some_iff : locate ls = some b ↔ Exact ls b := by
  constructor
  · intro hb
    rcases none_or_cut ls with hnone | ⟨before, run, behind, hcut⟩
    · rw [locate_eq_none_iff.2 hnone] at hb
      cases hb
    · exact hcut.exact hb
  · intro h
    obtain ⟨⟨l, hl, hi⟩, _⟩ := h.first
    obtain ⟨before, run, behind, hcut⟩ := exists_cut ⟨l, List.mem_of_getElem? hl, hi⟩
    rw [hcut.locate_eq, (hcut.exact hcut.locate_eq).unique h]

/-- Lines have an include block exactly if one of them is an include line, and the pass over them finds
it. It starts at the first include line and takes in all lines that follow as long as they are include
lines or blank; it is never empty, ends within the lines, and its include lines are all those between its
ends. Nothing else is their block. -/
theorem locate_exact (ls : List Line) :
    scan ls = locate ls ∧
    (locate ls = none ↔ ∀ l ∈ ls, isInclude l = false) ∧
    ∀ b, locate ls = some b ↔ Exact ls b :=
  ⟨scan_eq_locate ls, locate_eq_none_iff, fun _ => locate_eq_some_iff⟩

end Block
end IncludeOrder
