import IncludeOrder.Proofs.Names
import IncludeOrder.Proofs.Outline

/-!
# IncludeOrder.Proofs.Shape

The shape of a tree: no place comes twice, names are plain, and what there is lies in a directory
(`Proper`). The empty tree has it, and what is put into a directory of such a tree, under a plain name,
keeps it (`Proper.put`). In a proper tree the names of a directory are those of its entries, each one
once (`mem_namesIn`, `Proper.nodup_namesIn`). A change of contents keeps the shape (`Proper.congr`), and
the outline of a tree and the entries at its places make the tree (`eq_of_outline_eq`).
-/

namespace IncludeOrder
namespace FileTree

open IncludeOrder.Path (Plain)

variable {t u v : FileTree} {p : Place} {n : Name} {e : Entry}

/-- The shape that a tree of directories has. -/
structure Proper (t : FileTree) : Prop where
  distinct : (t.entries.map Prod.fst).Nodup
  plain : ∀ x ∈ t.entries, ∀ n ∈ x.1, Plain n
  housed : ∀ x ∈ t.entries, t.isDirectoryAt x.1.tail = true
  home : t.isDirectoryAt t.here = true

theorem proper_iff : Proper t ↔ (t.entries.map Prod.fst).Nodup ∧
    (∀ x ∈ t.entries, ∀ n ∈ x.1, Plain n) ∧ (∀ x ∈ t.entries, t.isDirectoryAt x.1.tail = true) ∧
    t.isDirectoryAt t.here = true := by
  constructor
  · intro h
    exact ⟨h.distinct, h.plain, h.housed, h.home⟩
  · rintro ⟨h1, h2, h3, h4⟩
    exact ⟨h1, h2, h3, h4⟩

instance (t : FileTree) : Decidable (Proper t) :=
  decidable_of_iff _ proper_iff.symm

/-! ## Entries -/

theorem isDirectoryAt_iff : t.isDirectoryAt p = true ↔ ∃ a, t.entry? p = some (.directory a) := by
  simp only [isDirectoryAt]
  split
  · rename_i a h
    simp [h]
  · rename_i h
    constructor
    · intro hfalse
      cases hfalse
    · rintro ⟨a, ha⟩
      exact absurd ha (h a)

theorem isFileAt_iff : t.isFileAt p = true ↔ ∃ a b, t.entry? p = some (.file a b) := by
  simp only [isFileAt]
  split
  · rename_i a b h
    simp [h]
  · rename_i h
    constructor
    · intro hfalse
      cases hfalse
    · rintro ⟨a, b, hab⟩
      exact absurd hab (h a b)

theorem not_isFileAt_of_isDirectoryAt (h : t.isDirectoryAt p = true) : t.isFileAt p = false := by
  obtain ⟨a, ha⟩ := isDirectoryAt_iff.1 h
  simp [isFileAt, ha]

theorem searchableAt_of_enter (h : t.enter p = .ok ()) : t.searchableAt p = true := by
  simp only [enter] at h
  split at h
  · cases h
  · rename_i a ha
    split at h
    · rename_i hs
      simpa [searchableAt, ha] using hs
    · cases h
  · cases h

theorem isDirectoryAt_of_searchableAt (h : t.searchableAt p = true) :
    t.isDirectoryAt p = true := by
  simp only [searchableAt] at h
  split at h
  · rename_i a ha
    exact isDirectoryAt_iff.2 ⟨a, ha⟩
  · cases h

theorem mem_of_lookup {p : Place} {e : Entry} {es : List (Place × Entry)}
    (h : es.lookup p = some e) : (p, e) ∈ es := by
  obtain ⟨before, behind, hes, _⟩ := List.lookup_eq_some_iff.1 h
  simp [hes]

theorem exists_lookup {p : Place} {es : List (Place × Entry)} (h : p ∈ es.map Prod.fst) :
    ∃ e, es.lookup p = some e := by
  obtain ⟨x, hx, rfl⟩ := List.mem_map.1 h
  exact Option.isSome_iff_exists.1 (List.lookup_isSome_iff.2 ⟨x, hx, by simp⟩)

theorem mem_of_entry?_eq (h : t.entry? (n :: p) = some e) : (n :: p, e) ∈ t.entries := by
  unfold entry? at h
  split at h
  · rename_i f hf
    cases h
    exact mem_of_lookup hf
  · simp at h

theorem exists_entry?_eq (h : p ∈ t.entries.map Prod.fst) : ∃ e, t.entry? p = some e := by
  obtain ⟨e, he⟩ := exists_lookup h
  exact ⟨e, by simp [he, entry?]⟩

theorem length_le_foldr {p : Place} {es : List (Place × Entry)} (h : (p, e) ∈ es) :
    p.length ≤ (es.map fun x => x.1.length).foldr max 0 := by
  induction es with
  | nil => cases h
  | cons x es ih =>
    rw [List.map_cons, List.foldr_cons]
    rcases List.mem_cons.1 h with rfl | h
    · exact Nat.le_max_left _ _
    · exact Nat.le_trans (ih h) (Nat.le_max_right _ _)

theorem length_le_depth (h : t.entry? p = some e) : p.length ≤ t.depth := by
  cases p with
  | nil => exact Nat.zero_le _
  | cons n p => exact length_le_foldr (mem_of_entry?_eq h)

/-! ## The names of a directory -/

theorem mem_namesIn : n ∈ t.namesIn p ↔ ∃ e, t.entry? (n :: p) = some e := by
  rw [namesIn, List.mem_mergeSort, List.mem_filterMap]
  constructor
  · rintro ⟨⟨q, f⟩, hmem, hname⟩
    cases q with
    | nil => cases hname
    | cons m q =>
      simp only [nameIn?] at hname
      split at hname
      · rename_i hq
        cases hname
        subst hq
        exact exists_entry?_eq (List.mem_map_of_mem hmem)
      · cases hname
  · rintro ⟨e, he⟩
    exact ⟨_, mem_of_entry?_eq he, by simp [nameIn?]⟩

namespace Proper

theorem nodup_namesIn (h : t.Proper) (p : Place) : (t.namesIn p).Nodup := by
  have hnames : t.namesIn p =
      ((t.entries.map Prod.fst).filterMap (nameIn? p)).mergeSort fun m n => m ≤ n := by
    rw [namesIn, List.filterMap_map]
    rfl
  rw [hnames, (List.mergeSort_perm _ _).nodup_iff]
  refine List.Pairwise.filterMap (nameIn? p) ?_ h.distinct
  -- the name and the directory make the place
  intro q r hqr n hq m hr hnm
  subst hnm
  refine hqr ?_
  cases q with
  | nil => cases hq
  | cons k q =>
    cases r with
    | nil => cases hr
    | cons l r =>
      simp only [nameIn?, Option.ite_none_right_eq_some, Option.some.injEq] at hq hr
      rw [hq.1, hq.2, hr.1, hr.2]

theorem pairwise_namesIn (h : t.Proper) (p : Place) :
    (t.namesIn p).Pairwise fun m n => m < n := by
  have hle : (t.namesIn p).Pairwise fun m n => decide (m ≤ n) = true := by
    refine List.pairwise_mergeSort (fun k m n hk hm => ?_) (fun m n => ?_) _
    · exact decide_eq_true (List.le_trans (of_decide_eq_true hk) (of_decide_eq_true hm))
    · rw [Bool.or_eq_true, decide_eq_true_eq, decide_eq_true_eq]
      exact List.le_total m n
  refine (hle.and (h.nodup_namesIn p)).imp fun hmn => ?_
  exact (List.le_iff_lt_or_eq.1 (of_decide_eq_true hmn.1)).resolve_right hmn.2

theorem plain_of_entry?_eq (h : t.Proper) (he : t.entry? (n :: p) = some e) : Plain n :=
  h.plain _ (mem_of_entry?_eq he) n List.mem_cons_self

theorem root (h : t.Proper) : t.isDirectoryAt [] = true := by
  cases hl : t.entries.lookup [] with
  | some e => exact h.housed _ (mem_of_lookup hl)
  | none => simp [isDirectoryAt, entry?, hl]

theorem isDirectoryAt_tail (h : t.Proper) (he : t.entry? p = some e) :
    t.isDirectoryAt p.tail = true := by
  cases p with
  | nil => exact h.root
  | cons n p => exact h.housed _ (mem_of_entry?_eq he)

/-! ## Changes -/

theorem empty : Proper FileTree.empty := by decide

theorem map_fst_putIn (p : Place) (e : Entry) (es : List (Place × Entry)) :
    (putIn p e es).map Prod.fst =
      if p ∈ es.map Prod.fst then es.map Prod.fst else es.map Prod.fst ++ [p] := by
  induction es with
  | nil => simp [putIn]
  | cons x es ih =>
    obtain ⟨q, f⟩ := x
    by_cases hq : q = p
    · simp [putIn, hq]
    · simp only [putIn, hq, if_false, List.map_cons, ih, List.mem_cons, Ne.symm hq, false_or]
      split <;> simp

theorem mem_map_fst_putIn {p q : Place} {e : Entry} {es : List (Place × Entry)}
    (h : q ∈ (putIn p e es).map Prod.fst) : q = p ∨ q ∈ es.map Prod.fst := by
  rw [map_fst_putIn] at h
  split at h
  · exact .inr h
  · rw [List.mem_append, List.mem_singleton] at h
    exact h.symm

theorem nodup_map_fst_putIn {p : Place} {e : Entry} {es : List (Place × Entry)}
    (h : (es.map Prod.fst).Nodup) : ((putIn p e es).map Prod.fst).Nodup := by
  rw [map_fst_putIn]
  split
  · exact h
  · rename_i hp
    rw [List.nodup_append]
    refine ⟨h, by simp, fun q hq r hr => ?_⟩
    rintro rfl
    rw [List.mem_singleton.1 hr] at hq
    exact hp hq

theorem plain_place (h : t.Proper) (he : t.entry? p = some e) : ∀ n ∈ p, Plain n := by
  cases p with
  | nil =>
    intro n hn
    cases hn
  | cons n p => exact h.plain _ (mem_of_entry?_eq he)

/-- A new entry, or another one of the same kind, under a plain name in a directory. -/
theorem put (h : t.Proper) (hname : ∀ n ∈ p.head?, Plain n) (htail : t.isDirectoryAt p.tail = true)
    (hkind : t.isDirectoryAt p = true → ∃ a, e = .directory a) : (t.put p e).Proper := by
  have hdir : ∀ q, t.isDirectoryAt q = true → FileTree.isDirectoryAt (t.put p e) q = true := by
    intro q hq
    by_cases hqp : q = p
    · subst hqp
      obtain ⟨a, rfl⟩ := hkind hq
      rw [isDirectoryAt_iff]
      exact ⟨a, entry?_put_self t q _⟩
    · obtain ⟨a, ha⟩ := isDirectoryAt_iff.1 hq
      rw [isDirectoryAt_iff]
      exact ⟨a, by rw [entry?_put_ne hqp, ha]⟩
  have hplaces : ∀ x ∈ (t.put p e).entries, x.1 = p ∨ x.1 ∈ t.entries.map Prod.fst :=
    fun x hx => mem_map_fst_putIn (List.mem_map_of_mem hx)
  refine ⟨nodup_map_fst_putIn h.distinct, ?_, ?_, hdir _ h.home⟩
  · intro x hx n hn
    rcases hplaces x hx with hp | hp
    · rw [hp] at hn
      cases p with
      | nil => cases hn
      | cons m q =>
        rcases List.mem_cons.1 hn with rfl | hn
        · exact hname n rfl
        · obtain ⟨a, ha⟩ := isDirectoryAt_iff.1 htail
          exact h.plain_place ha n hn
    · obtain ⟨y, hy, hyx⟩ := List.mem_map.1 hp
      rw [← hyx] at hn
      exact h.plain y hy n hn
  · intro x hx
    rcases hplaces x hx with hp | hp
    · rw [hp]
      exact hdir _ htail
    · obtain ⟨y, hy, hyx⟩ := List.mem_map.1 hp
      rw [← hyx]
      exact hdir _ (h.housed y hy)

end Proper

/-! ## Trees with one outline -/

theorem places_congr (h : u.outline = t.outline) :
    u.entries.map Prod.fst = t.entries.map Prod.fst := by
  have hfst := congrArg (fun w : FileTree => w.entries.map Prod.fst) h
  simpa [outline, hollowAt, Function.comp_def] using hfst

theorem isDirectoryAt_congr (h : u.outline = t.outline) (p : Place) :
    u.isDirectoryAt p = t.isDirectoryAt p := by
  have houtline : ∀ w : FileTree, w.outline.isDirectoryAt p = w.isDirectoryAt p := by
    intro w
    simp only [isDirectoryAt, entry?_outline]
    cases w.entry? p with
    | none => rfl
    | some e => cases e <;> rfl
  rw [← houtline u, h, houtline]

theorem Proper.congr (ht : t.Proper) (h : u.outline = t.outline) : u.Proper := by
  have hplaces := places_congr h
  have hmem : ∀ x ∈ u.entries, ∃ y ∈ t.entries, y.1 = x.1 := by
    intro x hx
    have hx' : x.1 ∈ u.entries.map Prod.fst := List.mem_map_of_mem hx
    rw [hplaces] at hx'
    exact List.mem_map.1 hx'
  have hhere : u.here = t.here := by rw [← here_outline u, h, here_outline]
  refine ⟨hplaces ▸ ht.distinct, ?_, ?_, ?_⟩
  · intro x hx
    obtain ⟨y, hy, hyx⟩ := hmem x hx
    exact hyx ▸ ht.plain y hy
  · intro x hx
    obtain ⟨y, hy, hyx⟩ := hmem x hx
    rw [isDirectoryAt_congr h, ← hyx]
    exact ht.housed y hy
  · rw [isDirectoryAt_congr h, hhere]
    exact ht.home

theorem eq_of_hollow_eq {es es' : List (Place × Entry)} (h : es.map hollowAt = es'.map hollowAt)
    (hd : (es.map Prod.fst).Nodup) (he : ∀ p ∈ es.map Prod.fst, es.lookup p = es'.lookup p) :
    es = es' := by
  induction es generalizing es' with
  | nil => exact (List.map_eq_nil_iff.1 h.symm).symm
  | cons x es ih =>
    obtain ⟨y, es', rfl⟩ : ∃ y ys, es' = y :: ys := by
      cases es' with
      | nil => cases h
      | cons y ys => exact ⟨y, ys, rfl⟩
    rw [List.map_cons, List.map_cons, List.cons.injEq] at h
    obtain ⟨p, e⟩ := x
    obtain ⟨p', e'⟩ := y
    have hp : p = p' := congrArg Prod.fst h.1
    subst hp
    rw [List.map_cons, List.nodup_cons] at hd
    have hhead := he p List.mem_cons_self
    rw [List.lookup_cons_self, List.lookup_cons_self, Option.some.injEq] at hhead
    -- the other places come later in both lists
    have htail : es = es' := by
      refine ih h.2 hd.2 fun q hq => ?_
      have hne : (q == p) = false := by
        rw [beq_eq_false_iff_ne]
        rintro rfl
        exact hd.1 hq
      simpa [List.lookup_cons, hne] using he q (List.mem_cons_of_mem p hq)
    rw [hhead, htail]

/-- Trees with one outline are the same if their files have the same contents. -/
theorem eq_of_outline_eq (h : u.outline = v.outline) (hd : (u.entries.map Prod.fst).Nodup)
    (he : ∀ p, u.entry? p = v.entry? p) : u = v := by
  obtain ⟨es, here, shared, granted⟩ := u
  obtain ⟨es', here', shared', granted'⟩ := v
  obtain ⟨hes, rfl, rfl, rfl⟩ := FileTree.mk.inj h
  have hplaces : es.map Prod.fst = es'.map Prod.fst := places_congr h
  have heq : es = es' := by
    refine eq_of_hollow_eq hes hd fun p hp => ?_
    obtain ⟨e, hl⟩ := exists_lookup hp
    obtain ⟨e', hl'⟩ := exists_lookup (hplaces ▸ hp)
    have hentry := he p
    simp only [hl, hl', entry?] at hentry
    rw [hl, hl', hentry]
  rw [heq]

end FileTree
end IncludeOrder
