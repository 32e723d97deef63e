import IncludeOrder.Proofs.Collection
import IncludeOrder.Proofs.Files
import IncludeOrder.Proofs.SortedText
import IncludeOrder.Run

/-!
# IncludeOrder.Proofs.Run

A run taken apart. What it makes of one file depends on how the file stands in the tree: it cannot be
read, its block is in order, or it is out of order (`standing`), and only in the last case is anything
written. A run over several files tells their outcomes one after the other (`sortPaths_eq`). When no
two paths have one key, and keys tell files apart, each outcome is what the file alone would give, and
the tree changes in exactly the files that were sorted (`run_effect`).
-/

namespace IncludeOrder

open FileTree (Holds Writable)

variable {t t' : FileTree} {q : Path} {p : Place} {a : Access} {text : Text}

/-! ## One file -/

/-- The path leads to a text that sorting changes. -/
structure OutOfOrder (t : FileTree) (q : Path) (p : Place) (a : Access) (text : Text) : Prop where
  holds : ∃ b, t.Holds q p a b ∧ Utf8.decode? b = some text
  read : a.read = true
  changes : sortIncludes q text ≠ text

theorem OutOfOrder.readText_eq (h : OutOfOrder t q p a text) : t.readText q = .ok text := by
  obtain ⟨b, hb, hd⟩ := h.holds
  exact hb.readText_eq h.read hd

theorem OutOfOrder.found (h : OutOfOrder t q p a text) : t.find q = .ok p := by
  obtain ⟨b, hb, _⟩ := h.holds
  exact hb.found

theorem OutOfOrder.congr (h : OutOfOrder t q p a text) (ho : t'.outline = t.outline)
    (he : t'.entry? p = t.entry? p) : OutOfOrder t' q p a text := by
  obtain ⟨b, hb, hd⟩ := h.holds
  exact ⟨⟨b, hb.congr ho he, hd⟩, h.read, h.changes⟩

theorem OutOfOrder.unique {p' : Place} {a' : Access} {text' : Text}
    (h : OutOfOrder t q p a text) (h' : OutOfOrder t q p' a' text') :
    p = p' ∧ a = a' ∧ text = text' := by
  obtain ⟨b, hb, hd⟩ := h.holds
  obtain ⟨b', hb', hd'⟩ := h'.holds
  obtain ⟨rfl, rfl, rfl⟩ := hb.unique hb'
  exact ⟨rfl, rfl, Option.some.inj (hd.symm.trans hd')⟩

theorem OutOfOrder.write_of_writable (h : OutOfOrder t q p a text) (hw : t.Writable q) :
    a.write = true := by
  obtain ⟨b, hb, _⟩ := h.holds
  obtain ⟨p', a', b', hb', hwrite⟩ := hw
  obtain ⟨rfl, rfl, rfl⟩ := hb.unique hb'
  exact hwrite

theorem OutOfOrder.exists_edit (h : OutOfOrder t q p a text) :
    ∃ e, Edit.ofText? q text = some e := by
  cases he : Edit.ofText? q text with
  | none => exact absurd (by simp [sortIncludes, he]) h.changes
  | some e => exact ⟨e, rfl⟩

/-- How a file stands before a run comes to it. -/
inductive Standing (t : FileTree) (q : Path) : Prop
  | unreadable (f : FileFault) (h : t.readText q = .error f)
  | inOrder (text : Text) (h : t.readText q = .ok text) (same : sortIncludes q text = text)
  | outOfOrder (p : Place) (a : Access) (text : Text) (e : Edit) (h : OutOfOrder t q p a text)
      (he : Edit.ofText? q text = some e)

theorem standing (t : FileTree) (q : Path) : Standing t q := by
  cases hr : t.readText q with
  | error f => exact .unreadable f hr
  | ok text =>
    by_cases hs : sortIncludes q text = text
    · exact .inOrder text hr hs
    · obtain ⟨p, a, b, hb, hread, hd⟩ := FileTree.readText_eq_ok.1 hr
      have hoo : OutOfOrder t q p a text := ⟨⟨b, hb, hd⟩, hread, hs⟩
      obtain ⟨e, he⟩ := hoo.exists_edit
      exact .outOfOrder p a text e hoo he

theorem outcomeOf_unreadable {f : FileFault} (h : t.readText q = .error f) (w : Bool) :
    outcomeOf w t q = (⟨q, .failed (.failure (.fileAccess q f))⟩, t) := by
  simp [outcomeOf, sortFile, h]

theorem outcomeOf_inOrder (h : t.readText q = .ok text) (hs : sortIncludes q text = text)
    (w : Bool) :
    outcomeOf w t q =
      (⟨q, if (Edit.ofText? q text).isSome then .unchanged else .noIncludes⟩, t) := by
  cases he : Edit.ofText? q text with
  | none => simp [outcomeOf, sortFile, h, he]
  | some e =>
    have hnoop : e.isNoop text = true := by
      rw [sortIncludes_eq_apply he] at hs
      simp [Edit.isNoop, hs]
    simp [outcomeOf, sortFile, h, he, hnoop]

theorem outcomeOf_outOfOrder {e : Edit} (h : OutOfOrder t q p a text)
    (he : Edit.ofText? q text = some e) (w : Bool) :
    outcomeOf w t q =
      if w = false then (⟨q, .sorted e.newText⟩, t)
      else if a.write = true then
        (⟨q, .sorted e.newText⟩, t.refill p (Utf8.encode (sortIncludes q text)))
      else (⟨q, .failed (.failure (.fileAccess q .denied))⟩, t) := by
  obtain ⟨b, hb, _⟩ := h.holds
  have happly : e.apply text = sortIncludes q text := (sortIncludes_eq_apply he).symm
  have hnoop : e.isNoop text = false := by
    simp [Edit.isNoop, happly, h.changes]
  cases w with
  | false => simp [outcomeOf, sortFile, h.readText_eq, he, hnoop]
  | true =>
    cases hw : a.write <;>
      simp [outcomeOf, sortFile, h.readText_eq, he, hnoop, happly, hb.write_eq, hw]

@[simp] theorem outcomeOf_path (w : Bool) (t : FileTree) (q : Path) :
    (outcomeOf w t q).1.path = q := by
  cases standing t q with
  | unreadable f h => rw [outcomeOf_unreadable h]
  | inOrder text h same => rw [outcomeOf_inOrder h same]
  | outOfOrder p a text e h he =>
    rw [outcomeOf_outOfOrder h he]
    cases w <;> cases a.write <;> rfl

/-- An outcome depends on the outline of the tree and on the file itself alone. -/
theorem outcomeOf_congr (ho : t'.outline = t.outline)
    (he : ∀ p, t.find q = .ok p → t'.entry? p = t.entry? p) (w : Bool) :
    (outcomeOf w t' q).1 = (outcomeOf w t q).1 := by
  have hread := FileTree.readText_congr ho he
  cases standing t q with
  | unreadable f h => rw [outcomeOf_unreadable h, outcomeOf_unreadable (hread.trans h)]
  | inOrder text h same =>
    rw [outcomeOf_inOrder h same, outcomeOf_inOrder (hread.trans h) same]
  | outOfOrder p a text e h hedit =>
    rw [outcomeOf_outOfOrder h hedit, outcomeOf_outOfOrder (h.congr ho (he p h.found)) hedit]
    cases w <;> cases a.write <;> rfl

theorem outcomeOf_tree_false (t : FileTree) (q : Path) : (outcomeOf false t q).2 = t := by
  cases standing t q with
  | unreadable f h => rw [outcomeOf_unreadable h]
  | inOrder text h same => rw [outcomeOf_inOrder h same]
  | outOfOrder p a text e h he => rw [outcomeOf_outOfOrder h he, if_pos rfl]

theorem status_inOrder (h : t.readText q = .ok text) (hs : sortIncludes q text = text) (w : Bool) :
    (outcomeOf w t q).1.status ≠ .sorted ∧ (outcomeOf w t q).1.status ≠ .failed := by
  rw [outcomeOf_inOrder h hs]
  cases (Edit.ofText? q text).isSome <;> simp [Outcome.status]

theorem outOfOrder_of_sorted (h : (outcomeOf true t q).1.status = .sorted) :
    ∃ p a text e, OutOfOrder t q p a text ∧ Edit.ofText? q text = some e ∧ a.write = true := by
  cases standing t q with
  | unreadable f hr =>
    rw [outcomeOf_unreadable hr] at h
    cases h
  | inOrder text hr same => exact absurd h (status_inOrder hr same true).1
  | outOfOrder p a text e hout he =>
    refine ⟨p, a, text, e, hout, he, ?_⟩
    rw [outcomeOf_outOfOrder hout he, if_neg (by simp)] at h
    cases hw : a.write with
    | true => rfl
    | false =>
      rw [hw] at h
      cases h

theorem outcomeOf_tree_of_not_sorted (h : (outcomeOf true t q).1.status ≠ .sorted) :
    (outcomeOf true t q).2 = t := by
  cases standing t q with
  | unreadable f hr => rw [outcomeOf_unreadable hr]
  | inOrder text hr same => rw [outcomeOf_inOrder hr same]
  | outOfOrder p a text e hout he =>
    rw [outcomeOf_outOfOrder hout he, if_neg (by simp)] at h ⊢
    cases hw : a.write with
    | false => simp
    | true =>
      rw [hw] at h
      exact absurd rfl h

theorem outline_outcomeOf (w : Bool) (t : FileTree) (q : Path) :
    (outcomeOf w t q).2.outline = t.outline := by
  cases standing t q with
  | unreadable f h => rw [outcomeOf_unreadable h]
  | inOrder text h same => rw [outcomeOf_inOrder h same]
  | outOfOrder p a text e h he =>
    rw [outcomeOf_outOfOrder h he]
    cases w with
    | false => rfl
    | true =>
      cases a.write with
      | true => exact FileTree.outline_refill t p _
      | false => rfl

/-! ## One file in its tree -/

/-- A tree after the files of some paths have been sorted and written, as far as they may be. -/
structure Rewrites (t t' : FileTree) (qs : List Path) : Prop where
  outline_eq : t'.outline = t.outline
  written : ∀ q ∈ qs, ∀ p a text, OutOfOrder t q p a text → a.write = true →
    t'.entry? p = some (.file a (Utf8.encode (sortIncludes q text)))
  kept : ∀ p, (∀ q ∈ qs, t.find q = .ok p → (outcomeOf true t q).1.status ≠ .sorted) →
    t'.entry? p = t.entry? p

theorem Rewrites.nil (t : FileTree) : Rewrites t t [] :=
  ⟨rfl, fun _ h => absurd h List.not_mem_nil, fun _ _ => rfl⟩

theorem rewrites_outcomeOf (ht : t.TellsApart) (q : Path) :
    Rewrites t (outcomeOf true t q).2 [q] := by
  by_cases hs : (outcomeOf true t q).1.status = .sorted
  · obtain ⟨p, a, text, e, h, he, hw⟩ := outOfOrder_of_sorted hs
    obtain ⟨b, hb, _⟩ := h.holds
    have htree : (outcomeOf true t q).2 = t.refill p (Utf8.encode (sortIncludes q text)) := by
      simp [outcomeOf_outOfOrder h he, hw]
    rw [htree]
    refine ⟨FileTree.outline_refill t p _, ?_, ?_⟩
    · intro r hr p' a' text' h' _
      obtain rfl := List.mem_singleton.1 hr
      obtain ⟨rfl, rfl, rfl⟩ := h.unique h'
      exact FileTree.entry?_refill_self hb.entry _
    · intro p' hp'
      have hne : p' ≠ p := by
        rintro rfl
        exact hp' q (List.mem_singleton.2 rfl) h.found hs
      exact ht.entry?_refill_ne hne _
  · rw [outcomeOf_tree_of_not_sorted hs]
    refine ⟨rfl, ?_, fun _ _ => rfl⟩
    intro r hr p a text h hw
    obtain rfl := List.mem_singleton.1 hr
    obtain ⟨e, he⟩ := h.exists_edit
    rw [outcomeOf_outOfOrder h he, if_neg (by simp), if_pos hw] at hs
    exact absurd rfl hs

theorem Rewrites.holds {qs : List Path} (h : Rewrites t t' qs) (hq : q ∈ qs)
    (hoo : OutOfOrder t q p a text) (hw : a.write = true) :
    t'.Holds q p a (Utf8.encode (sortIncludes q text)) :=
  ⟨by rw [FileTree.find_congr h.outline_eq, hoo.found], h.written q hq p a text hoo hw⟩

theorem Rewrites.readText_eq {qs : List Path} (h : Rewrites t t' qs) (hq : q ∈ qs)
    (hoo : OutOfOrder t q p a text) (hw : a.write = true) :
    t'.readText q = .ok (sortIncludes q text) :=
  (h.holds hq hoo hw).readText_eq hoo.read (Utf8.decode?_encode _)

theorem Rewrites.cons {u : FileTree} {qs : List Path} (ht : t.TellsApart) (h : Rewrites t u [q])
    (hqs : Rewrites u t' qs) (hd : ∀ r ∈ qs, t.key r ≠ t.key q) : Rewrites t t' (q :: qs) := by
  -- the first write leaves the later files as they were, since they are in other places
  have hother : ∀ r ∈ qs, ∀ p, t.find r = .ok p → t.find q ≠ .ok p :=
    fun r hr p hf hf' => hd r hr (ht.key_eq hf' hf)
  have hsame : ∀ r ∈ qs, ∀ p, t.find r = .ok p → u.entry? p = t.entry? p := by
    intro r hr p hf
    refine h.kept p fun r' hr' hf' => ?_
    rw [List.mem_singleton.1 hr'] at hf'
    exact absurd hf' (hother r hr p hf)
  refine ⟨hqs.outline_eq.trans h.outline_eq, ?_, ?_⟩
  · intro r hr p a text hout hw
    rcases List.mem_cons.1 hr with rfl | hr
    · rw [← h.written r (List.mem_singleton.2 rfl) p a text hout hw]
      refine hqs.kept p fun r' hr' hf => ?_
      rw [FileTree.find_congr h.outline_eq] at hf
      exact absurd hout.found (hother r' hr' p hf)
    · exact hqs.written r hr p a text (hout.congr h.outline_eq (hsame r hr p hout.found)) hw
  · intro p hp
    rw [← h.kept p fun r hr => hp r (by simp [List.mem_singleton.1 hr])]
    refine hqs.kept p fun r hr hf => ?_
    rw [FileTree.find_congr h.outline_eq] at hf
    rw [outcomeOf_congr h.outline_eq (hsame r hr)]
    exact hp r (List.mem_cons_of_mem q hr) hf

/-! ## Several files -/

/-- The outcomes of files taken one after the other, each in the tree that the last one left. -/
def outcomesOf (w : Bool) : FileTree → List Path → List Outcome
  | _, [] => []
  | t, q :: qs => (outcomeOf w t q).1 :: outcomesOf w (outcomeOf w t q).2 qs

def treeAfter (w : Bool) : FileTree → List Path → FileTree
  | t, [] => t
  | t, q :: qs => treeAfter w (outcomeOf w t q).2 qs

/-- No run changes what is where, whatever files it meets twice. -/
theorem outline_treeAfter (w : Bool) (t : FileTree) (qs : List Path) :
    (treeAfter w t qs).outline = t.outline := by
  induction qs generalizing t with
  | nil => rfl
  | cons q qs ih => rw [treeAfter, ih, outline_outcomeOf]

theorem treeAfter_false (t : FileTree) (qs : List Path) : treeAfter false t qs = t := by
  induction qs with
  | nil => rfl
  | cons q qs ih => rw [treeAfter, outcomeOf_tree_false, ih]

theorem outcomesOf_false (t : FileTree) (qs : List Path) :
    outcomesOf false t qs = qs.map fun q => (outcomeOf false t q).1 := by
  induction qs with
  | nil => rfl
  | cons q qs ih => rw [outcomesOf, outcomeOf_tree_false, ih, List.map_cons]

theorem treeAfter_of_not_sorted {qs : List Path}
    (h : ∀ q ∈ qs, (outcomeOf true t q).1.status ≠ .sorted) : treeAfter true t qs = t := by
  induction qs with
  | nil => rfl
  | cons q qs ih =>
    rw [treeAfter, outcomeOf_tree_of_not_sorted (h q List.mem_cons_self)]
    exact ih fun r hr => h r (List.mem_cons_of_mem q hr)

/-- Different files do not meet: each outcome is that of the file alone, and the tree is rewritten
in all of them. -/
theorem run_effect {qs : List Path} (ht : t.TellsApart) (hd : (qs.map t.key).Nodup) :
    outcomesOf true t qs = qs.map (fun q => (outcomeOf true t q).1) ∧
      Rewrites t (treeAfter true t qs) qs := by
  induction qs generalizing t with
  | nil => exact ⟨rfl, .nil t⟩
  | cons q qs ih =>
    rw [List.map_cons, List.nodup_cons] at hd
    have hstep := rewrites_outcomeOf ht q
    have hne : ∀ r ∈ qs, t.key r ≠ t.key q :=
      fun r hr hk => hd.1 (hk ▸ List.mem_map_of_mem hr)
    -- writing keeps the outline, and with it the keys of the files still to come
    have hkeys : qs.map (outcomeOf true t q).2.key = qs.map t.key :=
      List.map_congr_left fun r _ => FileTree.key_congr hstep.outline_eq r
    obtain ⟨hout, hrest⟩ := ih (ht.congr hstep.outline_eq) (hkeys ▸ hd.2)
    refine ⟨?_, hstep.cons ht hrest hne⟩
    rw [outcomesOf, hout, List.map_cons]
    congr 1
    refine List.map_congr_left fun r hr => ?_
    refine outcomeOf_congr hstep.outline_eq (fun p hf => hstep.kept p fun r' hr' hf' => ?_) true
    rw [List.mem_singleton.1 hr'] at hf'
    exact absurd (ht.key_eq hf' hf) (hne r hr)

theorem outcomesOf_eq {qs : List Path} (ht : t.TellsApart) (hd : (qs.map t.key).Nodup) (w : Bool) :
    outcomesOf w t qs = qs.map fun q => (outcomeOf w t q).1 := by
  cases w with
  | false => exact outcomesOf_false t qs
  | true => exact (run_effect ht hd).1

/-! ## Whole runs -/

def Report.ofOutcomes (os : List Outcome) : Report :=
  os.foldl Report.record Report.empty

theorem foldl_record (os : List Outcome) (r : Report) :
    os.foldl Report.record r =
      ⟨r.sorted + os.countP (·.status = .sorted), r.unchanged + os.countP (·.status = .unchanged),
        r.noIncludes + os.countP (·.status = .noIncludes), r.failed + os.countP (·.status = .failed),
        r.outcomes ++ os⟩ := by
  induction os generalizing r with
  | nil => simp
  | cons o os ih =>
    rw [List.foldl_cons, ih]
    cases hs : o.status <;> simp [Report.record, hs] <;> omega

namespace Report

@[simp] theorem outcomes_ofOutcomes (os : List Outcome) : (ofOutcomes os).outcomes = os := by
  simp [ofOutcomes, foldl_record, empty]

theorem sorted_ofOutcomes (os : List Outcome) :
    (ofOutcomes os).sorted = os.countP (·.status = .sorted) := by
  simp [ofOutcomes, foldl_record, empty]

theorem failed_ofOutcomes (os : List Outcome) :
    (ofOutcomes os).failed = os.countP (·.status = .failed) := by
  simp [ofOutcomes, foldl_record, empty]

end Report

section

variable {σ : Type} (notify : σ → Outcome → σ)

theorem foldl_tell (os : List Outcome) (r : Progress σ) :
    os.foldl (Progress.tell notify) r =
      ⟨os.foldl Report.record r.report, os.foldl notify r.told, r.tree⟩ := by
  induction os generalizing r with
  | nil => rfl
  | cons o os ih => rw [List.foldl_cons, ih]; rfl

theorem foldl_takeFile (w : Bool) (qs : List Path) (r : Progress σ) :
    qs.foldl (Progress.takeFile notify w) r =
      (outcomesOf w r.tree qs).foldl (Progress.tell notify)
        { r with tree := treeAfter w r.tree qs } := by
  induction qs generalizing r with
  | nil => rfl
  | cons q qs ih => rw [List.foldl_cons, ih]; rfl

/-- A run tells the directories that could not be listed, and then its files. -/
theorem sortPaths_eq {s : Selection} {ps : List Path} {c : Collection}
    (hc : collect t s ps = .ok c) (o : Options) (start : σ) :
    sortPaths s o notify start t ps =
      .ok ⟨Report.ofOutcomes (c.unlisted ++ outcomesOf o.writes t c.files),
        (c.unlisted ++ outcomesOf o.writes t c.files).foldl notify start,
        treeAfter o.writes t c.files⟩ := by
  simp only [sortPaths, hc]
  rw [foldl_takeFile, foldl_tell, foldl_tell]
  simp [Report.ofOutcomes, List.foldl_append]

theorem sortPaths_eq_error {s : Selection} {ps : List Path} {e : Failure}
    (hc : collect t s ps = .error e) (o : Options) (start : σ) :
    sortPaths s o notify start t ps = .error e := by
  simp only [sortPaths, hc]

theorem collect_of_sortPaths {s : Selection} {ps : List Path} {o : Options} {start : σ}
    {r : Progress σ} (h : sortPaths s o notify start t ps = .ok r) :
    ∃ c, collect t s ps = .ok c := by
  cases hc : collect t s ps with
  | error e => rw [sortPaths_eq_error notify hc] at h; cases h
  | ok c => exact ⟨c, rfl⟩

end

end IncludeOrder
