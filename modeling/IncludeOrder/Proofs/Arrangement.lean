import IncludeOrder.Arrangement

/-!
# IncludeOrder.Proofs.Arrangement

What the arrangement of include lines does to the lines. `ordered` is the arrangement without the
empty lines behind the sections.

* `filter_arranged` — the lines of an arrangement that are not blank are its ordered lines.
* `ordered_perm`    — no line is lost and none comes twice.
* `arranged_ordered` — ordered lines are arranged as before.
-/

namespace IncludeOrder

/-- The lines that are not blank. -/
def Text.filled (ls : List Line) : List Line :=
  ls.filter fun l => !Text.isBlank l

theorem Text.mem_filled {ls : List Line} {l : Line} :
    l ∈ Text.filled ls ↔ l ∈ ls ∧ Text.isBlank l = false := by
  simp [Text.filled]

theorem Text.filled_eq_self {ls : List Line} (h : ∀ l ∈ ls, Text.isBlank l = false) :
    Text.filled ls = ls := by
  rw [Text.filled, List.filter_eq_self]
  intro l hl
  simp [h l hl]

@[simp] theorem Text.filled_append (ls ms : List Line) :
    Text.filled (ls ++ ms) = Text.filled ls ++ Text.filled ms :=
  List.filter_append ls ms

namespace Arrangement

open Text (filled isBlank)

variable {file : Path} {ls : List Line}

theorem keyLe_trans (k l m : Line) (h : keyLe k l = true) (h' : keyLe l m = true) :
    keyLe k m = true := by
  simp only [keyLe, decide_eq_true_eq] at *
  exact List.le_trans h h'

theorem keyLe_total (k l : Line) : (keyLe k l || keyLe l k) = true := by
  simp only [keyLe, Bool.or_eq_true, decide_eq_true_eq]
  exact List.le_total _ _

/-! ## Sections -/

theorem sectionOf_pairwise (file : Path) (ls : List Line) (c : Category) :
    (sectionOf file ls c).Pairwise fun k l => keyLe k l = true :=
  List.pairwise_mergeSort keyLe_trans keyLe_total _

theorem mem_sectionOf {c : Category} {l : Line} :
    l ∈ sectionOf file ls c ↔ l ∈ ls ∧ isBlank l = false ∧ Category.ofLine file l = c := by
  simp [sectionOf]

theorem filled_sectionOf (file : Path) (ls : List Line) (c : Category) :
    filled (sectionOf file ls c) = sectionOf file ls c :=
  Text.filled_eq_self fun _ hl => (mem_sectionOf.1 hl).2.1

theorem sectionOf_filled (file : Path) (ls : List Line) (c : Category) :
    sectionOf file (filled ls) c = sectionOf file ls c := by
  simp only [sectionOf, filled, List.filter_filter]
  congr 2
  funext l
  cases isBlank l <;> simp

theorem count_sectionOf (file : Path) (ls : List Line) (c : Category) (l : Line) :
    (sectionOf file ls c).count l =
      if Category.ofLine file l = c then (filled ls).count l else 0 := by
  rw [← sectionOf_filled, sectionOf, List.Perm.count_eq (List.mergeSort_perm _ _)]
  split
  · rename_i hc
    by_cases hb : isBlank l = false
    · rw [List.count_filter]
      simp [hb, hc]
    · rw [List.count_eq_zero.2, List.count_eq_zero.2] <;> simp [Text.mem_filled, hb]
  · rename_i hc
    rw [List.count_eq_zero]
    simp [hc]

theorem filter_sectionOf_self (file : Path) (ls : List Line) (c : Category) :
    (sectionOf file ls c).filter (fun l => !isBlank l && Category.ofLine file l = c) =
      sectionOf file ls c := by
  rw [List.filter_eq_self]
  intro l hl
  obtain ⟨_, hb, hc⟩ := mem_sectionOf.1 hl
  simp [hb, hc]

theorem filter_sectionOf_ne (file : Path) (ls : List Line) {c d : Category} (h : d ≠ c) :
    (sectionOf file ls d).filter (fun l => !isBlank l && Category.ofLine file l = c) = [] := by
  rw [List.filter_eq_nil_iff]
  intro l hl
  obtain ⟨_, _, hd⟩ := mem_sectionOf.1 hl
  simp [hd, h]

/-! ## The lines in order -/

/-- The sections one after the other, without the empty lines behind them. -/
def ordered (file : Path) (ls : List Line) : List Line :=
  Category.all.flatMap (sectionOf file ls)

/-- No line is lost and none comes twice. -/
theorem ordered_perm (file : Path) (ls : List Line) : (ordered file ls).Perm (filled ls) := by
  rw [List.perm_iff_count]
  intro l
  rw [ordered, List.count_flatMap]
  simp only [Function.comp_def, count_sectionOf, Category.all]
  cases Category.ofLine file l <;> simp

/-- The lines of one category in the ordered lines are its section. -/
theorem filter_ordered (file : Path) (ls : List Line) (c : Category) :
    (ordered file ls).filter (fun l => !isBlank l && Category.ofLine file l = c) =
      sectionOf file ls c := by
  rw [ordered, List.filter_flatMap]
  -- one of the sections is that of `c`, and the filter empties the others
  cases c <;> simp [Category.all, filter_sectionOf_self, filter_sectionOf_ne]

theorem sectionOf_ordered (file : Path) (ls : List Line) (c : Category) :
    sectionOf file (ordered file ls) c = sectionOf file ls c := by
  rw [sectionOf, filter_ordered]
  exact List.mergeSort_of_pairwise (sectionOf_pairwise file ls c)

/-! ## The arrangement -/

theorem arranged_congr {ms : List Line}
    (h : ∀ c, sectionOf file ls c = sectionOf file ms c) : arranged file ls = arranged file ms := by
  simp only [arranged, h]

theorem mem_closed {l : Line} (h : l ∈ closed ls) : l = [] ∨ l ∈ ls := by
  cases ls with
  | nil => cases h
  | cons m ms =>
    simp only [closed, List.mem_append, List.mem_singleton] at h
    exact h.symm

theorem filled_closed (h : filled ls = ls) : filled (closed ls) = ls := by
  cases ls with
  | nil => rfl
  | cons l ms =>
    rw [closed, Text.filled_append, h]
    simp [filled, isBlank]

theorem mem_arranged {l : Line} (h : l ∈ arranged file ls) :
    l = [] ∨ l ∈ ls ∧ isBlank l = false := by
  obtain ⟨c, _, hl⟩ := List.mem_flatMap.1 h
  rcases mem_closed hl with rfl | hl
  · exact .inl rfl
  · obtain ⟨hls, hb, _⟩ := mem_sectionOf.1 hl
    exact .inr ⟨hls, hb⟩

theorem filter_arranged (file : Path) (ls : List Line) :
    filled (arranged file ls) = ordered file ls := by
  rw [filled, arranged, List.filter_flatMap, ordered]
  congr 1
  funext c
  exact filled_closed (filled_sectionOf file ls c)

theorem arranged_ordered (file : Path) (ls : List Line) :
    arranged file (ordered file ls) = arranged file ls :=
  arranged_congr (sectionOf_ordered file ls)

theorem head?_closed (ls : List Line) : (closed ls).head? = ls.head? := by
  cases ls <;> rfl

theorem mem_of_head?_arranged {l : Line} (h : (arranged file ls).head? = some l) :
    l ∈ ls ∧ isBlank l = false := by
  have key : ∀ cs : List Category,
      (cs.flatMap fun c => closed (sectionOf file ls c)).head? = some l →
        ∃ c, l ∈ sectionOf file ls c := by
    intro cs
    induction cs with
    | nil => intro hnil; cases hnil
    | cons c cs ih =>
      intro hcs
      rw [List.flatMap_cons, List.head?_append, Option.or_eq_some_iff] at hcs
      rcases hcs with hc | ⟨_, hcs⟩
      · rw [head?_closed] at hc
        exact ⟨c, List.mem_of_head? hc⟩
      · exact ih hcs
  obtain ⟨c, hl⟩ := key Category.all h
  obtain ⟨hls, hb, _⟩ := mem_sectionOf.1 hl
  exact ⟨hls, hb⟩

theorem arranged_ne_nil (h : filled ls ≠ []) : arranged file ls ≠ [] := by
  intro hnil
  have hperm := ordered_perm file ls
  rw [← filter_arranged, hnil] at hperm
  exact h hperm.symm.eq_nil

end Arrangement
end IncludeOrder
