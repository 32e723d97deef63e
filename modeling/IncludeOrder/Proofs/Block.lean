import IncludeOrder.Block

/-!
# IncludeOrder.Proofs.Block

The include block said without the search for it. A `Cut` divides lines into those before the block,
the block, and those behind it; lines have one as soon as one of them is an include line
(`exists_cut`), and it is what `locate` finds (`Cut.locate_eq`).
-/

namespace IncludeOrder

/-- A list is divided in front of its first element without `p`. -/
theorem takeWhile_dropWhile {α : Type} (p : α → Bool) (xs : List α) :
    xs = xs.takeWhile p ++ xs.dropWhile p ∧ (∀ y ∈ xs.takeWhile p, p y = true) ∧
      ∀ z ∈ (xs.dropWhile p).head?, p z = false := by
  refine ⟨List.takeWhile_append_dropWhile.symm,
    fun y hy => List.all_eq_true.1 List.all_takeWhile y hy, fun z hz => ?_⟩
  have hstop := List.head?_dropWhile_not p xs
  rw [Option.mem_def.1 hz] at hstop
  exact hstop

/-- There is no other way to divide it like that. -/
theorem takeWhile_dropWhile_iff {α : Type} {p : α → Bool} {xs ys zs : List α} :
    xs.takeWhile p = ys ∧ xs.dropWhile p = zs ↔
      xs = ys ++ zs ∧ (∀ y ∈ ys, p y = true) ∧ ∀ z ∈ zs.head?, p z = false := by
  constructor
  · rintro ⟨rfl, rfl⟩
    exact takeWhile_dropWhile p xs
  · rintro ⟨rfl, hys, hzs⟩
    rw [List.takeWhile_append_of_pos hys, List.dropWhile_append_of_pos hys]
    cases zs with
    | nil => simp
    | cons z zs => simp [hzs z rfl]

theorem afterStart?_eq_some {s t r : Text} (h : afterStart? s t = some r) : t = s ++ r := by
  induction s generalizing t with
  | nil => simpa [afterStart?] using h
  | cons a s ih =>
    cases t with
    | nil => simp [afterStart?] at h
    | cons c t =>
      simp only [afterStart?] at h
      split at h
      · rename_i hac
        rw [hac, ih h, List.cons_append]
      · cases h

namespace Directive

theorem keyword_of_isInclude {l : Line} (h : isInclude l = true) : ∃ r, l = keyword ++ r := by
  simp only [isInclude, directive?] at h
  split at h
  · cases h
  · rename_i r hr
    exact ⟨r, afterStart?_eq_some hr⟩

theorem isBlank_of_isInclude {l : Line} (h : isInclude l = true) : Text.isBlank l = false := by
  obtain ⟨r, rfl⟩ := keyword_of_isInclude h
  have hash : Text.isWhiteSpace '#' = false := by decide
  simp [keyword, Text.isBlank, hash]

end Directive

namespace Block

open Directive (isInclude)

/-- The parts of some lines around their include block: no include line stands before it, it starts
with one, all its lines are include lines or blank, and the line behind it is neither. -/
structure Cut (ls before run behind : List Line) : Prop where
  lines_eq : ls = before ++ run ++ behind
  before_none : ∀ l ∈ before, isInclude l = false
  starts : ∃ l ∈ run.head?, isInclude l = true
  members : ∀ l ∈ run, isMember l = true
  ends : ∀ l ∈ behind.head?, isMember l = false

theorem isMember_of_isInclude {l : Line} (h : isInclude l = true) : isMember l = true := by
  simp [isMember, h]

theorem exists_cut {ls : List Line} (h : ∃ l ∈ ls, isInclude l = true) :
    ∃ before run behind, Cut ls before run behind := by
  obtain ⟨hls, hbefore, hfirst⟩ := takeWhile_dropWhile (fun l => !isInclude l) ls
  generalize ls.takeWhile (fun l => !isInclude l) = before at hls hbefore
  generalize ls.dropWhile (fun l => !isInclude l) = rest at hls hfirst
  have hnone : ∀ l ∈ before, isInclude l = false := fun l hl => by simpa using hbefore l hl
  have hne : rest ≠ [] := by
    intro hnil
    obtain ⟨l, hl, hi⟩ := h
    rw [hls, hnil, List.append_nil] at hl
    rw [hnone l hl] at hi
    cases hi
  obtain ⟨m, ms, rfl⟩ := List.exists_cons_of_ne_nil hne
  have hm : isInclude m = true := by simpa using hfirst m rfl
  -- what is left after the lines before it starts with an include line, and so does the block
  obtain ⟨hrest, hmembers, hend⟩ := takeWhile_dropWhile isMember (m :: ms)
  refine ⟨before, _, _, ?_, hnone, ⟨m, ?_, hm⟩, hmembers, hend⟩
  · rw [List.append_assoc, ← hrest, hls]
  · simp [isMember_of_isInclude hm]

theorem none_or_cut (ls : List Line) :
    (∀ l ∈ ls, isInclude l = false) ∨ ∃ before run behind, Cut ls before run behind := by
  by_cases h : ∃ l ∈ ls, isInclude l = true
  · exact .inr (exists_cut h)
  · refine .inl fun l hl => ?_
    cases hi : isInclude l with
    | false => rfl
    | true => exact absurd ⟨l, hl, hi⟩ h

namespace Cut

variable {ls before run behind : List Line}

theorem run_ne_nil (h : Cut ls before run behind) : run ≠ [] := by
  obtain ⟨l, hl, _⟩ := h.starts
  rintro rfl
  simp at hl

theorem length_run_pos (h : Cut ls before run behind) : 0 < run.length :=
  List.length_pos_iff.2 h.run_ne_nil

theorem length_eq (h : Cut ls before run behind) :
    ls.length = before.length + run.length + behind.length := by
  rw [h.lines_eq, List.length_append, List.length_append]

theorem includes_ne_nil (h : Cut ls before run behind) : run.filter isInclude ≠ [] := by
  obtain ⟨l, hl, hi⟩ := h.starts
  intro hnil
  exact List.filter_eq_nil_iff.1 hnil l (List.mem_of_head? hl) hi

theorem takeWhile_eq (h : Cut ls before run behind) :
    ls.takeWhile (fun l => !isInclude l) = before := by
  obtain ⟨l, hl, hi⟩ := h.starts
  obtain ⟨r, rfl⟩ := List.head?_eq_some_iff.1 hl
  have hsplit : ls = before ++ (l :: r ++ behind) := by rw [h.lines_eq, List.append_assoc]
  refine (takeWhile_dropWhile_iff.2 ⟨hsplit, fun m hm => by simp [h.before_none m hm], ?_⟩).1
  rintro m ⟨⟩
  simp [hi]

theorem takeWhile_run (h : Cut ls before run behind) :
    (run ++ behind).takeWhile isMember = run :=
  (takeWhile_dropWhile_iff.2 ⟨rfl, h.members, h.ends⟩).1

theorem locate_eq (h : Cut ls before run behind) :
    locate ls =
      some ⟨before.length, before.length + run.length - 1, run.filter isInclude⟩ := by
  have hdrop : ls.drop before.length = run ++ behind := by
    rw [h.lines_eq, List.append_assoc, List.drop_left]
  simp only [locate, h.takeWhile_eq, hdrop, h.takeWhile_run]
  cases run with
  | nil => exact absurd rfl h.run_ne_nil
  | cons l r => rfl

end Cut

theorem locate_eq_none_iff {ls : List Line} :
    locate ls = none ↔ ∀ l ∈ ls, isInclude l = false := by
  constructor
  · intro hnone
    rcases none_or_cut ls with hall | ⟨before, run, behind, h⟩
    · exact hall
    · rw [h.locate_eq] at hnone
      cases hnone
  · intro hall
    have htake : ls.takeWhile (fun l => !isInclude l) = ls := by
      rw [← List.append_nil ls,
        List.takeWhile_append_of_pos (fun l hl => by simp [hall l hl]), List.takeWhile_nil]
    simp [locate, htake]

theorem mem_includes {ls : List Line} {b : Block} {l : Line} (hb : locate ls = some b)
    (hl : l ∈ b.includes) : l ∈ ls ∧ isInclude l = true := by
  rcases none_or_cut ls with hnone | ⟨before, run, behind, h⟩
  · rw [locate_eq_none_iff.2 hnone] at hb
    cases hb
  · rw [h.locate_eq] at hb
    cases hb
    obtain ⟨hrun, hi⟩ := List.mem_filter.1 hl
    exact ⟨by simp [h.lines_eq, hrun], hi⟩

end Block
end IncludeOrder
