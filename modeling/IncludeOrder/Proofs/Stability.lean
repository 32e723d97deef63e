import IncludeOrder.Proofs.Buckets
import IncludeOrder.Proofs.Framing
import IncludeOrder.Proofs.Utf8

/-!
# IncludeOrder.Proofs.Stability

The arrangement as one stable sort. Lines of one category and one key are tied, and a list in order is
known once the lines of each tie are known (`eq_of_filter_tied`). An arrangement keeps them as they came
(`tiesOf_arranged`), so two arrangements are the same exactly if the ties of the lines are
(`arranged_eq_iff`), and lines that are in order already stay where they are (`ordered_eq_filled_iff`).

* `arranged_stable`  — the arrangement is the stable sort by category and key, and where its empty
  lines stand.
* `arranged_absorbs` — arranging parts first changes nothing.
* `arranged_canonical` — which lines have the same arrangement.
-/

namespace IncludeOrder

/-! ## Stable sorting -/

section

variable {α : Type} {le : α → α → Bool} {xs ys : List α}

/-- Neither comes before the other. -/
def tied (le : α → α → Bool) (k l : α) : Bool :=
  le k l && le l k

theorem tied_iff {k l : α} : tied le k l = true ↔ le k l = true ∧ le l k = true := by
  simp [tied]

/-- Sorting does not move elements against each other that may stand in any order. -/
theorem filter_mergeSort (trans : ∀ a b c, le a b = true → le b c = true → le a c = true)
    (total : ∀ a b, (le a b || le b a) = true) {p : α → Bool}
    (hp : ∀ a b, p a = true → p b = true → le a b = true) (xs : List α) :
    (xs.mergeSort le).filter p = xs.filter p := by
  have hpairwise : (xs.filter p).Pairwise fun a b => le a b = true :=
    List.pairwise_of_forall_mem_list fun a ha b hb =>
      hp a b (List.mem_filter.1 ha).2 (List.mem_filter.1 hb).2
  have hsub : (xs.filter p).Sublist ((xs.mergeSort le).filter p) := by
    have h := (List.sublist_mergeSort trans total hpairwise List.filter_sublist).filter p
    rw [List.filter_filter] at h
    simpa using h
  have hperm := (List.mergeSort_perm xs le).filter p
  exact (hsub.eq_of_length hperm.length_eq.symm).symm

theorem mem_of_filter_tied (total : ∀ a b, (le a b || le b a) = true)
    (h : ∀ k, xs.filter (tied le k) = ys.filter (tied le k)) {a : α} (ha : a ∈ xs) : a ∈ ys := by
  have hself : tied le a a = true := by simpa [tied] using total a a
  have hmem : a ∈ xs.filter (tied le a) := List.mem_filter.2 ⟨ha, hself⟩
  rw [h a] at hmem
  exact (List.mem_filter.1 hmem).1

theorem filter_tied_tail {x : α}
    (h : ∀ k, (x :: xs).filter (tied le k) = (x :: ys).filter (tied le k)) (k : α) :
    xs.filter (tied le k) = ys.filter (tied le k) := by
  have hk := h k
  by_cases hkx : tied le k x = true
  · rw [List.filter_cons_of_pos hkx, List.filter_cons_of_pos hkx, List.cons.injEq] at hk
    exact hk.2
  · rw [List.filter_cons_of_neg hkx, List.filter_cons_of_neg hkx] at hk
    exact hk

/-- Two lists in order are the same if each tie is the same in both. -/
theorem eq_of_filter_tied (total : ∀ a b, (le a b || le b a) = true)
    (hxs : xs.Pairwise fun a b => le a b = true) (hys : ys.Pairwise fun a b => le a b = true)
    (h : ∀ k, xs.filter (tied le k) = ys.filter (tied le k)) : xs = ys := by
  induction xs generalizing ys with
  | nil =>
    refine (List.eq_nil_iff_forall_not_mem.2 fun y hy => ?_).symm
    exact List.not_mem_nil (mem_of_filter_tied total (fun k => (h k).symm) hy)
  | cons x xs ih =>
    have hx : x ∈ ys := mem_of_filter_tied total h List.mem_cons_self
    cases ys with
    | nil => cases hx
    | cons y ys =>
      rw [List.pairwise_cons] at hxs hys
      have hy : y ∈ x :: xs :=
        mem_of_filter_tied total (fun k => (h k).symm) List.mem_cons_self
      -- both are least, so they are tied, and then both are the first of that tie
      have hxy : x = y := by
        rcases List.mem_cons.1 hx with hx | hx
        · exact hx
        · rcases List.mem_cons.1 hy with hy | hy
          · exact hy.symm
          · have hle : le x y = true := hxs.1 y hy
            have hle' : le y x = true := hys.1 x hx
            have hself : le x x = true := by simpa using total x x
            have hfirst := h x
            rw [List.filter_cons_of_pos (tied_iff.2 ⟨hself, hself⟩),
              List.filter_cons_of_pos (tied_iff.2 ⟨hle, hle'⟩), List.cons.injEq] at hfirst
            exact hfirst.1
      subst hxy
      rw [ih hxs.2 hys.2 (filter_tied_tail h)]

end

namespace Arrangement

open Text (filled isBlank)

variable {file : Path} {ls xs ys : List Line} {c : Category} {k : Text}

/-! ## Ties -/

theorem keyLe_of_lowercase_eq {a b : Line} (h : Text.lowercase a = Text.lowercase b) :
    keyLe a b = true := by
  simp [keyLe, sortKey, h]

theorem tied_lineLe_iff {a b : Line} :
    tied (lineLe file) a b = true ↔
      Category.ofLine file b = Category.ofLine file a ∧ Text.lowercase b = Text.lowercase a := by
  rw [tied_iff, lineLe_iff, lineLe_iff]
  constructor
  · rintro ⟨hab, hba⟩
    have hp : (Category.ofLine file b).priority = (Category.ofLine file a).priority := by omega
    have hk : keyLe a b = true ∧ keyLe b a = true := by
      rw [hp] at hab hba
      simpa using And.intro hab hba
    simp only [keyLe, decide_eq_true_eq] at hk
    exact ⟨priority_inj hp, Utf8.encode_inj.1 (List.le_antisymm hk.2 hk.1)⟩
  · rintro ⟨hc, hk⟩
    rw [hc]
    exact ⟨.inr ⟨rfl, keyLe_of_lowercase_eq hk.symm⟩, .inr ⟨rfl, keyLe_of_lowercase_eq hk⟩⟩

/-- The lines of one category that have one key, as they come. Blank lines are not among them. -/
def tiesOf (file : Path) (ls : List Line) (c : Category) (k : Text) : List Line :=
  ls.filter fun l => !isBlank l && Category.ofLine file l = c && Text.lowercase l = k

theorem tiesOf_append (file : Path) (xs ys : List Line) (c : Category) (k : Text) :
    tiesOf file (xs ++ ys) c k = tiesOf file xs c k ++ tiesOf file ys c k :=
  List.filter_append xs ys

theorem mem_tiesOf {l : Line} :
    l ∈ tiesOf file ls c k ↔
      l ∈ ls ∧ isBlank l = false ∧ Category.ofLine file l = c ∧ Text.lowercase l = k := by
  simp [tiesOf, and_assoc]

theorem tiesOf_filled (file : Path) (ls : List Line) (c : Category) (k : Text) :
    tiesOf file (filled ls) c k = tiesOf file ls c k := by
  rw [tiesOf, filled, List.filter_filter, tiesOf]
  congr 1
  funext l
  cases isBlank l <;> simp

theorem filter_tied_filled (file : Path) (ls : List Line) (m : Line) :
    (filled ls).filter (tied (lineLe file) m) =
      tiesOf file ls (Category.ofLine file m) (Text.lowercase m) := by
  rw [← tiesOf_filled, tiesOf]
  refine List.filter_congr fun l hl => ?_
  rw [Bool.eq_iff_iff, tied_lineLe_iff]
  simp [(Text.mem_filled.1 hl).2]

theorem tiesOf_ordered (file : Path) (ls : List Line) (c : Category) (k : Text) :
    tiesOf file (ordered file ls) c k = tiesOf file ls c k := by
  have hsection : ∀ ms : List Line, tiesOf file ms c k =
      (ms.filter fun l => !isBlank l && Category.ofLine file l = c).filter
        fun l => Text.lowercase l = k := by
    intro ms
    rw [tiesOf, List.filter_filter]
    congr 1
    funext l
    rw [Bool.and_comm]
  rw [hsection, filter_ordered, sectionOf, hsection ls]
  refine filter_mergeSort keyLe_trans keyLe_total (fun a b ha hb => ?_) _
  exact keyLe_of_lowercase_eq (by rw [of_decide_eq_true ha, of_decide_eq_true hb])

theorem tiesOf_arranged (file : Path) (ls : List Line) (c : Category) (k : Text) :
    tiesOf file (arranged file ls) c k = tiesOf file ls c k := by
  rw [← tiesOf_filled, filter_arranged, tiesOf_ordered]

theorem filled_ordered (file : Path) (ls : List Line) :
    filled (ordered file ls) = ordered file ls :=
  Text.filled_eq_self fun _ hl => (Text.mem_filled.1 ((ordered_perm file ls).mem_iff.1 hl)).2

/-- Lines in order with the ties of `ls` are the ordered lines of `ls`. -/
theorem eq_ordered (h : xs.Pairwise fun a b => lineLe file a b = true) (hfilled : filled xs = xs)
    (hties : ∀ c k, tiesOf file xs c k = tiesOf file ls c k) : xs = ordered file ls := by
  refine eq_of_filter_tied lineLe_total h (ordered_pairwise file ls) fun m => ?_
  rw [← hfilled, ← filled_ordered, filter_tied_filled, filter_tied_filled, hties, tiesOf_ordered]

theorem ordered_eq_mergeSort (file : Path) (ls : List Line) :
    ordered file ls = (filled ls).mergeSort (lineLe file) := by
  refine (eq_ordered (List.pairwise_mergeSort lineLe_trans lineLe_total _) ?_ fun c k => ?_).symm
  · exact Text.filled_eq_self fun _ hl => (Text.mem_filled.1 (List.mem_mergeSort.1 hl)).2
  · -- lines of one category and key may stand in any order
    rw [← tiesOf_filled file ls]
    refine filter_mergeSort lineLe_trans lineLe_total (fun a b ha hb => ?_) _
    simp only [Bool.and_eq_true, decide_eq_true_eq] at ha hb
    refine (tied_iff.1 (tied_lineLe_iff.2 ⟨?_, ?_⟩)).1
    · rw [ha.1.2, hb.1.2]
    · rw [ha.2, hb.2]

/-- Lines stay where they are, blank ones apart, exactly if they are in order. -/
theorem ordered_eq_filled_iff :
    ordered file ls = filled ls ↔ (filled ls).Pairwise fun k m => lineLe file k m = true := by
  constructor
  · intro h
    rw [← h]
    exact ordered_pairwise file ls
  · intro h
    rw [ordered_eq_mergeSort, List.mergeSort_of_pairwise h]

theorem arranged_eq_iff :
    arranged file xs = arranged file ys ↔ ∀ c k, tiesOf file xs c k = tiesOf file ys c k := by
  constructor
  · intro h c k
    rw [← tiesOf_arranged file xs, h, tiesOf_arranged]
  · intro h
    have hord : ordered file xs = ordered file ys :=
      eq_ordered (ordered_pairwise file xs) (filled_ordered file xs) fun c k => by
        rw [tiesOf_ordered, h]
    rw [arranged_eq_framed, hord, ← arranged_eq_framed]

/-! ## The arrangement as a stable sort -/

theorem filter_ne_nil_arranged (file : Path) (ls : List Line) :
    (arranged file ls).filter (fun l => l ≠ []) = ordered file ls := by
  have hfilter : (arranged file ls).filter (fun l => l ≠ []) = filled (arranged file ls) := by
    refine List.filter_congr fun l hl => ?_
    rcases mem_arranged hl with rfl | ⟨_, hb⟩
    · rfl
    · have hne : l ≠ [] := by
        rintro rfl
        cases hb
      simp [hne, hb]
  rw [hfilter, filter_arranged]

theorem ne_nil_of_mem_ordered {l : Line} (h : l ∈ ordered file ls) : l ≠ [] := by
  rw [← filled_ordered] at h
  rintro rfl
  cases (Text.mem_filled.1 h).2

theorem head?_arranged_ne (file : Path) (ls : List Line) : (arranged file ls).head? ≠ some [] := by
  intro hnil
  cases (mem_of_head?_arranged hnil).2

theorem marked_arranged (file : Path) (ls : List Line) : Marked file (arranged file ls) := by
  rw [arranged_eq_framed]
  exact marked_framed ((ordered_pairwise file ls).imp priority_le_of_lineLe)
    fun l hl => ne_nil_of_mem_ordered hl

/-- The arrangement, which the buckets make, is one stable sort. Without its empty lines it is what
sorting the lines that are not blank by category and key gives: no line is lost and none comes
twice, the categories are in order, and lines of one category and key stay as they came. An empty line
stands behind the last line of each category and nowhere else. -/
theorem arranged_stable (file : Path) (ls : List Line) :
    arranged file ls = emptied (buckets file ls) ∧
    (arranged file ls).filter (fun l => l ≠ []) = (filled ls).mergeSort (lineLe file) ∧
    ((arranged file ls).filter fun l => l ≠ []).Perm (filled ls) ∧
    ((arranged file ls).filter fun l => l ≠ []).Pairwise (fun k m =>
      (Category.ofLine file k).priority ≤ (Category.ofLine file m).priority) ∧
    (∀ c k, tiesOf file ((arranged file ls).filter fun l => l ≠ []) c k = tiesOf file ls c k) ∧
    (arranged file ls).head? ≠ some [] ∧ Marked file (arranged file ls) := by
  rw [filter_ne_nil_arranged]
  refine ⟨(emptied_buckets file ls).symm, ordered_eq_mergeSort file ls, ordered_perm file ls,
    (ordered_pairwise file ls).imp priority_le_of_lineLe, tiesOf_ordered file ls,
    head?_arranged_ne file ls, marked_arranged file ls⟩

/-- Parts that were arranged before are arranged with the rest as if they had not been, and what is
arranged stays as it is. -/
theorem arranged_absorbs (file : Path) (xs ys : List Line) :
    arranged file (arranged file xs ++ arranged file ys) = arranged file (xs ++ ys) ∧
      arranged file (arranged file xs) = arranged file xs := by
  constructor
  · refine arranged_eq_iff.2 fun c k => ?_
    rw [tiesOf_append, tiesOf_arranged, tiesOf_arranged, tiesOf_append]
  · exact arranged_eq_iff.2 (tiesOf_arranged file xs)

theorem tiesOf_eq_of_perm (h : xs.Perm ys)
    (hxs : ∀ l ∈ tiesOf file xs c k, ∀ m ∈ tiesOf file xs c k, l = m) :
    tiesOf file xs c k = tiesOf file ys c k := by
  have hperm : (tiesOf file xs c k).Perm (tiesOf file ys c k) := h.filter _
  -- all lines on both sides are the same line, so any relation sorts them
  have hall : ∀ ls : List Line, ls.Pairwise fun _ _ => True :=
    fun _ => List.pairwise_of_forall fun _ _ => trivial
  refine hperm.eq_of_pairwise (fun l m hl hm _ _ => ?_) (hall _) (hall _)
  exact hxs l hl m (hperm.mem_iff.2 hm)

/-- Lines have the same arrangement exactly if those of each category and key are the same, in the
same order. So the order in which lines come does not matter if no two different ones have the same
category and key. -/
theorem arranged_canonical (file : Path) (xs ys : List Line) :
    (arranged file xs = arranged file ys ↔
      ∀ c k, tiesOf file xs c k = tiesOf file ys c k) ∧
    (xs.Perm ys →
      (∀ l ∈ filled xs, ∀ m ∈ filled xs, Category.ofLine file l = Category.ofLine file m →
        Text.lowercase l = Text.lowercase m → l = m) →
      arranged file xs = arranged file ys) := by
  refine ⟨arranged_eq_iff, fun hperm hxs => arranged_eq_iff.2 fun c k => ?_⟩
  refine tiesOf_eq_of_perm hperm fun l hl m hm => ?_
  obtain ⟨hl, hlb, hlc, hlk⟩ := mem_tiesOf.1 hl
  obtain ⟨hm, hmb, hmc, hmk⟩ := mem_tiesOf.1 hm
  exact hxs l (Text.mem_filled.2 ⟨hl, hlb⟩) m (Text.mem_filled.2 ⟨hm, hmb⟩)
    (by rw [hlc, hmc]) (by rw [hlk, hmk])

/-- Two lines of one key, the second with a kelvin sign, which makes its category another one. -/
def kelvin : List Line :=
  ["#include <k>".toList, "#include <\u212A>".toList]

theorem arranged_canonical_kelvin :
    kelvin.Perm kelvin.reverse ∧
    (∀ l ∈ filled kelvin, ∀ m ∈ filled kelvin,
      Category.ofLine ⟨[]⟩ l = Category.ofLine ⟨[]⟩ m → Text.lowercase l = Text.lowercase m → l = m) ∧
    arranged ⟨[]⟩ kelvin = arranged ⟨[]⟩ kelvin.reverse := by
  have hperm : kelvin.Perm kelvin.reverse := kelvin.reverse_perm.symm
  have hdistinct : ∀ l ∈ filled kelvin, ∀ m ∈ filled kelvin,
      Category.ofLine ⟨[]⟩ l = Category.ofLine ⟨[]⟩ m → Text.lowercase l = Text.lowercase m →
        l = m := by
    decide +kernel
  exact ⟨hperm, hdistinct, (arranged_canonical ⟨[]⟩ kelvin kelvin.reverse).2 hperm hdistinct⟩

end Arrangement
end IncludeOrder
