import IncludeOrder.Proofs.Arrangement

/-!
# IncludeOrder.Proofs.Framing

The two parts of an arrangement, told apart. Its lines without the empty ones are in the order of the
category first and of the key second (`lineLe`, `ordered_pairwise`). Its empty lines are a matter of the
categories alone: one stands wherever the category changes, and one at the end (`framed`,
`arranged_eq_framed`), which is behind the last line of each category (`marked_framed`).
-/

namespace IncludeOrder
namespace Arrangement

open Text (filled isBlank)

variable {file : Path} {ls ms : List Line} {c : Category}

/-! ## The order of lines -/

/-- By the priority of the category, and within a category by the key. -/
def lineLe (file : Path) (k m : Line) : Bool :=
  (Category.ofLine file k).priority < (Category.ofLine file m).priority ||
    ((Category.ofLine file k).priority = (Category.ofLine file m).priority && keyLe k m)

theorem lineLe_iff {k m : Line} :
    lineLe file k m = true ↔
      (Category.ofLine file k).priority < (Category.ofLine file m).priority ∨
        (Category.ofLine file k).priority = (Category.ofLine file m).priority ∧
          keyLe k m = true := by
  simp [lineLe]

theorem priority_le_of_lineLe {k m : Line} (h : lineLe file k m = true) :
    (Category.ofLine file k).priority ≤ (Category.ofLine file m).priority := by
  rcases lineLe_iff.1 h with hlt | ⟨heq, _⟩
  · omega
  · omega

theorem lineLe_trans (a b c : Line) (h : lineLe file a b = true) (h' : lineLe file b c = true) :
    lineLe file a c = true := by
  rw [lineLe_iff] at *
  rcases h with h | ⟨h, hk⟩
  · exact .inl (h'.elim (fun h' => Nat.lt_trans h h') fun h' => h'.1 ▸ h)
  · rcases h' with h' | ⟨h', hk'⟩
    · exact .inl (h ▸ h')
    · exact .inr ⟨h.trans h', keyLe_trans a b c hk hk'⟩

theorem lineLe_total (a b : Line) : (lineLe file a b || lineLe file b a) = true := by
  rw [Bool.or_eq_true, lineLe_iff, lineLe_iff]
  rcases Nat.lt_trichotomy (Category.ofLine file a).priority (Category.ofLine file b).priority with
    h | h | h
  · exact .inl (.inl h)
  · have hk := keyLe_total a b
    rw [Bool.or_eq_true] at hk
    exact hk.imp (fun hk => .inr ⟨h, hk⟩) fun hk => .inr ⟨h.symm, hk⟩
  · exact .inr (.inl h)

theorem priority_inj {c d : Category} (h : c.priority = d.priority) : c = d := by
  cases c <;> cases d <;> first | rfl | cases h

theorem pairwise_priority : Category.all.Pairwise fun c d => c.priority < d.priority := by decide

theorem ordered_pairwise (file : Path) (ls : List Line) :
    (ordered file ls).Pairwise fun k m => lineLe file k m = true := by
  rw [ordered, List.pairwise_flatMap]
  constructor
  · intro c _
    refine List.Pairwise.imp_of_mem ?_ (sectionOf_pairwise file ls c)
    intro k m hk hm hle
    have hkc := (mem_sectionOf.1 hk).2.2
    have hmc := (mem_sectionOf.1 hm).2.2
    exact lineLe_iff.2 (.inr ⟨by rw [hkc, hmc], hle⟩)
  · refine pairwise_priority.imp ?_
    intro c d hcd k hk m hm
    have hkc := (mem_sectionOf.1 hk).2.2
    have hmd := (mem_sectionOf.1 hm).2.2
    refine lineLe_iff.2 (.inl ?_)
    rw [hkc, hmd]
    exact hcd

/-! ## The empty lines -/

/-- The lines with an empty line wherever the category changes, and at the end. -/
def framed (file : Path) : List Line → List Line
  | [] => []
  | [l] => [l, []]
  | l :: m :: r =>
    if Category.ofLine file l = Category.ofLine file m then l :: framed file (m :: r)
    else l :: [] :: framed file (m :: r)

theorem framed_append (hls : ∀ l ∈ ls, Category.ofLine file l = c)
    (hms : ∀ m ∈ ms.head?, Category.ofLine file m ≠ c) :
    framed file (ls ++ ms) = closed ls ++ framed file ms := by
  induction ls with
  | nil => rfl
  | cons l ls ih =>
    have hl : Category.ofLine file l = c := hls l List.mem_cons_self
    have ih' := ih fun k hk => hls k (List.mem_cons_of_mem l hk)
    cases ls with
    | nil =>
      cases ms with
      | nil => rfl
      | cons m ms =>
        have hne : Category.ofLine file l ≠ Category.ofLine file m := by
          rw [hl]
          exact Ne.symm (hms m rfl)
        simp [framed, closed, hne]
    | cons k ls =>
      have hk : Category.ofLine file k = c := hls k (by simp)
      have heq : Category.ofLine file l = Category.ofLine file k := by rw [hl, hk]
      have hstep : framed file (l :: k :: (ls ++ ms)) = l :: framed file (k :: (ls ++ ms)) := by
        rw [framed, if_pos heq]
      rw [List.cons_append, List.cons_append, hstep, ← List.cons_append, ih']
      simp [closed]

theorem arranged_eq_framed (file : Path) (ls : List Line) :
    arranged file ls = framed file (ordered file ls) := by
  have key : ∀ cs : List Category, cs.Nodup →
      (cs.flatMap fun c => closed (sectionOf file ls c)) =
        framed file (cs.flatMap (sectionOf file ls)) := by
    intro cs hcs
    induction cs with
    | nil => rfl
    | cons c cs ih =>
      rw [List.nodup_cons] at hcs
      rw [List.flatMap_cons, List.flatMap_cons, ih hcs.2]
      refine (framed_append (fun l hl => (mem_sectionOf.1 hl).2.2) ?_).symm
      -- the next section belongs to another category
      intro m hm hmc
      obtain ⟨d, hd, hmd⟩ := List.mem_flatMap.1 (List.mem_of_head? hm)
      rw [(mem_sectionOf.1 hmd).2.2] at hmc
      exact hcs.1 (hmc ▸ hd)
  exact key Category.all (by decide)

/-! ## Where the empty lines stand -/

/-- No other line of the category of `l` comes behind it. -/
def LastOfCategory (file : Path) (l : Line) (behind : List Line) : Prop :=
  l ≠ [] ∧ ∀ m ∈ behind, m ≠ [] → Category.ofLine file m ≠ Category.ofLine file l

/-- An empty line stands behind the last line of each category, and behind no other line. -/
def Marked (file : Path) (ls : List Line) : Prop :=
  ∀ xs l ys, ls = xs ++ l :: ys → (ys.head? = some [] ↔ LastOfCategory file l ys)

theorem Marked.cons {l : Line} (h : Marked file ls)
    (hl : ls.head? = some [] ↔ LastOfCategory file l ls) : Marked file (l :: ls) := by
  intro xs m ys hsplit
  cases xs with
  | nil =>
    rw [List.nil_append, List.cons.injEq] at hsplit
    obtain ⟨rfl, rfl⟩ := hsplit
    exact hl
  | cons x xs =>
    rw [List.cons_append, List.cons.injEq] at hsplit
    exact h xs m ys hsplit.2

theorem Marked.cons_nil (h : Marked file ls) (hl : ls.head? ≠ some []) : Marked file ([] :: ls) :=
  h.cons ⟨fun hnil => absurd hnil hl, fun hlast => absurd rfl hlast.1⟩

theorem head?_framed (file : Path) (ls : List Line) : (framed file ls).head? = ls.head? := by
  cases ls with
  | nil => rfl
  | cons l ls =>
    cases ls with
    | nil => rfl
    | cons m ls =>
      rw [framed]
      split <;> rfl

theorem mem_framed {l : Line} (h : l ∈ framed file ls) : l = [] ∨ l ∈ ls := by
  induction ls with
  | nil => cases h
  | cons k ls ih =>
    cases ls with
    | nil => simpa [framed, or_comm] using h
    | cons m ls =>
      have hstep : l = k ∨ l = [] ∨ l ∈ framed file (m :: ls) := by
        rw [framed] at h
        split at h
        · exact (List.mem_cons.1 h).imp id .inr
        · simpa using h
      rcases hstep with rfl | rfl | hrest
      · exact .inr List.mem_cons_self
      · exact .inl rfl
      · exact (ih hrest).imp id (List.mem_cons_of_mem k)

/-- Framing marks the ends of the categories of lines that are in order. -/
theorem marked_framed
    (h : ls.Pairwise fun k m =>
      (Category.ofLine file k).priority ≤ (Category.ofLine file m).priority)
    (hne : ∀ l ∈ ls, l ≠ []) : Marked file (framed file ls) := by
  induction ls with
  | nil =>
    intro xs l ys hsplit
    exact absurd hsplit.symm (by simp [framed])
  | cons l ls ih =>
    rw [List.pairwise_cons] at h
    have hl : l ≠ [] := hne l List.mem_cons_self
    have hrest := ih h.2 fun m hm => hne m (List.mem_cons_of_mem l hm)
    have hhead : (framed file ls).head? ≠ some [] := by
      rw [head?_framed]
      intro hnil
      exact hne [] (List.mem_cons_of_mem l (List.mem_of_head? hnil)) rfl
    cases ls with
    | nil =>
      refine (hrest.cons_nil hhead).cons (iff_of_true rfl ⟨hl, fun m hm hm' => ?_⟩)
      exact absurd (List.mem_singleton.1 hm) hm'
    | cons m ls =>
      by_cases hc : Category.ofLine file l = Category.ofLine file m
      · rw [framed, if_pos hc]
        refine hrest.cons (iff_of_false hhead fun hlast => ?_)
        have hm : m ∈ framed file (m :: ls) :=
          List.mem_of_head? (head?_framed file (m :: ls))
        exact hlast.2 m hm (hne m (by simp)) hc.symm
      · rw [framed, if_neg hc]
        refine (hrest.cons_nil hhead).cons (iff_of_true rfl ⟨hl, fun k hk hk' => ?_⟩)
        -- the next line is of a later category, and no line behind it of an earlier one
        have hkm : k ∈ m :: ls := by
          rcases List.mem_cons.1 hk with hk | hk
          · exact absurd hk hk'
          · exact (mem_framed hk).resolve_left hk'
        have hlm := h.1 m List.mem_cons_self
        have hmk : (Category.ofLine file m).priority ≤ (Category.ofLine file k).priority := by
          rcases List.mem_cons.1 hkm with rfl | hkm
          · exact Nat.le_refl _
          · exact (List.pairwise_cons.1 h.2).1 k hkm
        intro hkl
        rw [hkl] at hmk
        exact hc (priority_inj (Nat.le_antisymm hlm hmk))

end Arrangement
end IncludeOrder
