import IncludeOrder.Proofs.FmtCommand
import Mathlib

/-!
# IncludeOrder.Proofs.CheckRun

A run that only checks or shows foretells the run that writes (`Foretold`), where the keys of paths tell
files apart. One file at a time, the two give the same outcome unless the file is out of order and may
not be written (`outcomeOf_eq_of_writable`); what is shown for a file is what takes the place of its
block (`blockReplaced`). For the command, a check ends well exactly when writing would end well and
change no file (`check_ok_iff`), and else it counts the files that are out of order
(`check_notSorted_iff`).
-/

namespace IncludeOrder

variable {t t' : FileTree} {q : Path} {p : Place} {a : Access} {text : Text}

/-! ## One file -/

theorem sorted_false_iff :
    (outcomeOf false t q).1.status = .sorted ↔ ∃ p a text, OutOfOrder t q p a text := by
  constructor
  · intro h
    cases standing t q with
    | unreadable f hr =>
      rw [outcomeOf_unreadable hr] at h
      cases h
    | inOrder text hr same => exact absurd h (status_inOrder hr same false).1
    | outOfOrder p a text e hoo _ => exact ⟨p, a, text, hoo⟩
  · rintro ⟨p, a, text, hoo⟩
    obtain ⟨e, he⟩ := hoo.exists_edit
    rw [outcomeOf_outOfOrder hoo he, if_pos rfl]
    rfl

theorem failed_false_iff :
    (outcomeOf false t q).1.status = .failed ↔ ¬ ∃ text, t.readText q = .ok text := by
  constructor
  · rintro h ⟨text, hr⟩
    by_cases hs : sortIncludes q text = text
    · exact (status_inOrder hr hs false).2 h
    · obtain ⟨p, a, b, hb, hread, hd⟩ := FileTree.readText_eq_ok.1 hr
      have hsorted := sorted_false_iff.2 ⟨p, a, text, ⟨b, hb, hd⟩, hread, hs⟩
      rw [hsorted] at h
      cases h
  · intro h
    cases hr : t.readText q with
    | ok text => exact absurd ⟨text, hr⟩ h
    | error f =>
      rw [outcomeOf_unreadable hr]
      rfl

theorem outcomeOf_eq_of_writable
    (h : (outcomeOf false t q).1.status = .sorted → t.Writable q) :
    (outcomeOf true t q).1 = (outcomeOf false t q).1 := by
  cases standing t q with
  | unreadable f hr => rw [outcomeOf_unreadable hr, outcomeOf_unreadable hr]
  | inOrder text hr same => rw [outcomeOf_inOrder hr same, outcomeOf_inOrder hr same]
  | outOfOrder p a text e hoo he =>
    have hw : a.write = true := hoo.write_of_writable (h (sorted_false_iff.2 ⟨p, a, text, hoo⟩))
    simp [outcomeOf_outOfOrder hoo he, hw]

theorem outcomeOf_eq_of_not_sorted (h : (outcomeOf false t q).1.status ≠ .sorted) :
    (outcomeOf true t q).1 = (outcomeOf false t q).1 :=
  outcomeOf_eq_of_writable fun hs => absurd hs h

theorem status_true_of_sorted_false (h : (outcomeOf false t q).1.status = .sorted) :
    (outcomeOf true t q).1.status = .sorted ∨ (outcomeOf true t q).1.status = .failed := by
  obtain ⟨p, a, text, hoo⟩ := sorted_false_iff.1 h
  obtain ⟨e, he⟩ := hoo.exists_edit
  rw [outcomeOf_outOfOrder hoo he, if_neg (by simp)]
  cases a.write with
  | true => exact .inl rfl
  | false => exact .inr rfl

/-- A file that a check finds neither failing nor out of order is left alone by writing. -/
theorem untouched_iff :
    (outcomeOf true t q).1.status ≠ .failed ∧ (outcomeOf true t q).1.status ≠ .sorted ↔
      (outcomeOf false t q).1.status ≠ .failed ∧ (outcomeOf false t q).1.status ≠ .sorted := by
  by_cases hs : (outcomeOf false t q).1.status = .sorted
  · rcases status_true_of_sorted_false hs with h | h <;> simp [h, hs]
  · rw [outcomeOf_eq_of_not_sorted hs]

/-- Between its two trees, the block of a text became `new`, and nothing else of the text changed. -/
def BlockReplaced (t t' : FileTree) (q : Path) (new : Text) : Prop :=
  ∃ text before run behind, t.readText q = .ok text ∧
    Block.Cut (Text.lines text) before run behind ∧
    text = Edit.terminated before ++ Block.textOf run behind ++ Text.joined behind ∧
    t'.readText q = .ok (Edit.terminated before ++ new ++ Text.joined behind)

theorem blockReplaced {qs : List Path} (h : Rewrites t t' qs) (hq : q ∈ qs) (hw : t.Writable q)
    (hs : (outcomeOf false t q).1.status = .sorted) :
    ∃ new, (outcomeOf false t q).1.replacement? = some new ∧ BlockReplaced t t' q new := by
  obtain ⟨p, a, text, hoo⟩ := sorted_false_iff.1 hs
  rcases Block.none_or_cut (Text.lines text) with hnone | ⟨before, run, behind, hcut⟩
  · exact absurd (sortIncludes_eq_self hnone) hoo.changes
  · rw [outcomeOf_outOfOrder hoo (hcut.ofText?_eq q), if_pos rfl]
    refine ⟨_, rfl, text, before, run, behind, hoo.readText_eq, hcut, hcut.text_eq, ?_⟩
    rw [h.readText_eq hq hoo (hoo.write_of_writable hw), hcut.sortIncludes_eq q]

/-! ## Runs -/

/-- The run that ends as `r` without writing foretells the one that writes and ends as `r'`. -/
structure Foretold {σ : Type} (t : FileTree) (r r' : Progress σ) : Prop where
  report_eq : r'.report = r.report
  told_eq : r'.told = r.told
  replaced : ∀ x ∈ r.report.outcomes, x.status = .sorted →
    ∃ new, x.replacement? = some new ∧ BlockReplaced t r'.tree x.path new

theorem sortPaths_false {σ : Type} {s : Selection} {notify : σ → Outcome → σ} {start : σ}
    {ps : List Path} {c : Collection} (hc : collect t s ps = .ok c) {o : Options}
    (ho : o.writes = false) :
    sortPaths s o notify start t ps =
      .ok ⟨Report.ofOutcomes (c.unlisted ++ c.files.map fun q => (outcomeOf false t q).1),
        (c.unlisted ++ c.files.map fun q => (outcomeOf false t q).1).foldl notify start, t⟩ := by
  rw [sortPaths_eq notify hc, ho, outcomesOf_false, treeAfter_false]

theorem sortPaths_foretold {σ : Type} {s : Selection} {notify : σ → Outcome → σ} {start : σ}
    {ps : List Path} {o : Options} {r : Progress σ} (ho : o.writes = false)
    (h : sortPaths s o notify start t ps = .ok r) (ht : t.TellsApart)
    (hw : ∀ x ∈ r.report.outcomes, x.status = .sorted → t.Writable x.path) :
    ∃ r', sortPaths s ⟨false, false⟩ notify start t ps = .ok r' ∧ Foretold t r r' := by
  obtain ⟨c, hc⟩ := collect_of_sortPaths notify h
  have hsound := collect_sound hc
  obtain ⟨hout, hrew⟩ := run_effect ht hsound.distinct
  rw [sortPaths_false hc ho] at h
  cases h
  have hwritable : ∀ q ∈ c.files, (outcomeOf false t q).1.status = .sorted → t.Writable q := by
    intro q hq hs
    have hmem : (outcomeOf false t q).1 ∈
        c.unlisted ++ c.files.map fun q => (outcomeOf false t q).1 :=
      List.mem_append.2 (.inr (List.mem_map_of_mem hq))
    simpa using hw _ (by simpa using hmem) hs
  have hsame : outcomesOf true t c.files = c.files.map fun q => (outcomeOf false t q).1 := by
    rw [hout]
    exact List.map_congr_left fun q hq => outcomeOf_eq_of_writable (hwritable q hq)
  refine ⟨_, sortPaths_eq notify hc _ start, ?_, ?_, ?_⟩
  · simp only [Options.writes, Bool.not_false, Bool.and_self, hsame]
  · simp only [Options.writes, Bool.not_false, Bool.and_self, hsame]
  · intro x hx hs
    rw [Report.outcomes_ofOutcomes] at hx
    rcases List.mem_append.1 hx with hx | hx
    · rw [hsound.failed x hx] at hs
      cases hs
    · obtain ⟨q, hq, rfl⟩ := List.mem_map.1 hx
      rw [outcomeOf_path]
      exact blockReplaced hrew hq (hwritable q hq hs) hs

/-! ## Counting files -/

theorem kept_iff {qs : List Path} (ht : t.TellsApart) (hd : (qs.map t.key).Nodup) :
    (∀ p, FileTree.entry? (treeAfter true t qs) p = t.entry? p) ↔
      ∀ q ∈ qs, (outcomeOf true t q).1.status ≠ .sorted := by
  constructor
  · intro hkept q hq hs
    obtain ⟨p, a, text, e, hoo, _, hw⟩ := outOfOrder_of_sorted hs
    obtain ⟨b, hb, hdec⟩ := hoo.holds
    have hentry : some (Entry.file a (Utf8.encode (sortIncludes q text))) = some (.file a b) := by
      rw [← (run_effect ht hd).2.written q hq p a text hoo hw, hkept, hb.entry]
    cases hentry
    rw [Utf8.decode?_encode] at hdec
    exact hoo.changes (Option.some.inj hdec)
  · intro h p
    rw [treeAfter_of_not_sorted h]

/-- A tree in which `n` files are out of order, of those that were collected, and all of them can be
read. -/
structure Unsorted (t : FileTree) (c : Collection) (n : Nat) : Prop where
  listed : c.unlisted = []
  readable : ∀ q ∈ c.files, ∃ text, t.readText q = .ok text
  counted : ∃ ps : List Place, ps.Nodup ∧ ps.length = n ∧
    ∀ p, p ∈ ps ↔ ∃ q ∈ c.files, ∃ a text, OutOfOrder t q p a text

def unsortedPlace? (t : FileTree) (q : Path) : Option Place :=
  if (outcomeOf false t q).1.status = .sorted then (t.find q).toOption else none

theorem unsortedPlace?_eq_some :
    unsortedPlace? t q = some p ↔ ∃ a text, OutOfOrder t q p a text := by
  constructor
  · intro h
    simp only [unsortedPlace?] at h
    split at h
    · rename_i hs
      obtain ⟨p', a, text, hoo⟩ := sorted_false_iff.1 hs
      rw [hoo.found] at h
      cases h
      exact ⟨a, text, hoo⟩
    · cases h
  · rintro ⟨a, text, hoo⟩
    rw [unsortedPlace?, if_pos (sorted_false_iff.2 ⟨p, a, text, hoo⟩), hoo.found]
    rfl

theorem isSome_unsortedPlace? :
    (unsortedPlace? t q).isSome = true ↔ (outcomeOf false t q).1.status = .sorted := by
  rw [sorted_false_iff, Option.isSome_iff_exists]
  exact exists_congr fun p => unsortedPlace?_eq_some

theorem nodup_unsortedPlaces {qs : List Path} (ht : t.TellsApart) (hd : (qs.map t.key).Nodup) :
    (qs.filterMap (unsortedPlace? t)).Nodup := by
  have hkeys : qs.Pairwise fun q r => t.key q ≠ t.key r := List.pairwise_map.1 hd
  refine hkeys.filterMap _ fun q r hne p hp p' hp' heq => ?_
  obtain ⟨a, text, hoo⟩ := unsortedPlace?_eq_some.1 hp
  obtain ⟨a', text', hoo'⟩ := unsortedPlace?_eq_some.1 hp'
  subst heq
  exact hne (ht.key_eq hoo'.found hoo.found)

theorem count_sorted_eq_iff {qs : List Path} (ht : t.TellsApart) (hd : (qs.map t.key).Nodup)
    (n : Nat) :
    qs.countP (fun q => (outcomeOf false t q).1.status = .sorted) = n ↔
      ∃ ps : List Place, ps.Nodup ∧ ps.length = n ∧
        ∀ p, p ∈ ps ↔ ∃ q ∈ qs, ∃ a text, OutOfOrder t q p a text := by
  -- the places of the counted files are one list; any other with the same members is as long
  have hlen : (qs.filterMap (unsortedPlace? t)).length =
      qs.countP (fun q => (outcomeOf false t q).1.status = .sorted) := by
    rw [List.length_filterMap_eq_countP]
    exact List.countP_congr fun q _ => by simp [isSome_unsortedPlace?]
  have hmem : ∀ p, p ∈ qs.filterMap (unsortedPlace? t) ↔
      ∃ q ∈ qs, ∃ a text, OutOfOrder t q p a text := by
    intro p
    rw [List.mem_filterMap]
    exact exists_congr fun q => and_congr_right fun _ => unsortedPlace?_eq_some
  constructor
  · rintro rfl
    exact ⟨_, nodup_unsortedPlaces ht hd, hlen, hmem⟩
  · rintro ⟨ps, hnodup, rfl, hps⟩
    have hperm : (qs.filterMap (unsortedPlace? t)).Perm ps :=
      (List.perm_ext_iff_of_nodup (nodup_unsortedPlaces ht hd) hnodup).2 fun p =>
        (hmem p).trans (hps p).symm
    rw [← hlen, hperm.length_eq]

/-! ## The command -/

namespace CommandLine

variable {base : Path} {exclude : List Text} {ps : List Path} {c : Collection}
variable (colors : Bool) (v : Verbosity)

section

variable (ht : t.TellsApart)
include ht

theorem runFmt_eq_notSorted (h : collected base exclude ps t = .ok c) (d : Bool) (n : Nat) :
    (runFmt colors base v ⟨true, d⟩ exclude ps t).result = .error (.notSorted n) ↔
      1 ≤ n ∧ Unsorted t c n := by
  obtain ⟨s, hsound⟩ := collected_sound h
  have hwrites : Options.writes ⟨true, d⟩ = false := rfl
  rw [(runFmt_of_ok colors v _ h).1, outcomesOf_eq ht hsound.distinct, hwrites,
    resultOf_eq_notSorted, hsound.failed_eq_zero_iff, hsound.sorted_eq,
    count_sorted_eq_iff ht hsound.distinct]
  simp only [ne_eq, failed_false_iff, Classical.not_not]
  constructor
  · rintro ⟨⟨hnil, hread⟩, _, hcount, hn⟩
    exact ⟨hn, hnil, hread, hcount⟩
  · rintro ⟨hn, hnil, hread, hcount⟩
    exact ⟨⟨hnil, hread⟩, trivial, hcount, hn⟩

theorem check_ok_iff (d : Bool) :
    (runFmt colors base v ⟨true, d⟩ exclude ps t).result = .ok () ↔
      (runFmt colors base v ⟨false, false⟩ exclude ps t).result = .ok () ∧
        ∀ p, FileTree.entry? (runFmt colors base v ⟨false, false⟩ exclude ps t).tree p =
          t.entry? p := by
  cases h : collected base exclude ps t with
  | error e =>
    obtain ⟨hwrite, _⟩ := runFmt_of_error colors v ⟨false, false⟩ h
    rw [(runFmt_of_error colors v ⟨true, d⟩ h).1, hwrite]
    simp
  | ok c =>
    obtain ⟨s, hsound⟩ := collected_sound h
    have hcheck : Options.writes ⟨true, d⟩ = false := rfl
    have hwrite : Options.writes ⟨false, false⟩ = true := rfl
    rw [runFmt_eq_ok colors v _ ht h, runFmt_eq_ok colors v _ ht h, (runFmt_of_ok colors v _ h).2,
      hcheck, hwrite, kept_iff ht hsound.distinct]
    constructor
    · rintro ⟨hnil, hread, hsorted⟩
      have hleft := fun q hq => untouched_iff.2 ⟨hread q hq, hsorted rfl q hq⟩
      exact ⟨⟨hnil, fun q hq => (hleft q hq).1, nofun⟩, fun q hq => (hleft q hq).2⟩
    · rintro ⟨⟨hnil, hdone, _⟩, hsorted⟩
      have hleft := fun q hq => untouched_iff.1 ⟨hdone q hq, hsorted q hq⟩
      exact ⟨hnil, fun q hq => (hleft q hq).1, fun _ q hq => (hleft q hq).2⟩

theorem check_notSorted_iff (d : Bool) (n : Nat) :
    (runFmt colors base v ⟨true, d⟩ exclude ps t).result = .error (.notSorted n) ↔
      1 ≤ n ∧ ∃ c, collected base exclude ps t = .ok c ∧ Unsorted t c n := by
  cases h : collected base exclude ps t with
  | error e =>
    rw [(runFmt_of_error colors v ⟨true, d⟩ h).1]
    constructor
    · rintro heq
      cases heq
      exact absurd rfl (collected_error h n).1
    · rintro ⟨_, c, hc, _⟩
      cases hc
  | ok c =>
    rw [runFmt_eq_notSorted colors v ht h]
    constructor
    · rintro ⟨hn, hcount⟩
      exact ⟨hn, c, rfl, hcount⟩
    · rintro ⟨hn, c', hc, hcount⟩
      cases hc
      exact ⟨hn, hcount⟩

end

theorem check_tree (d : Bool) : (runFmt colors base v ⟨true, d⟩ exclude ps t).tree = t := by
  cases h : collected base exclude ps t with
  | error e => exact (runFmt_of_error colors v _ h).2
  | ok c =>
    rw [(runFmt_of_ok colors v _ h).2]
    exact treeAfter_false t c.files

end CommandLine

open CommandLine

/-- A file out of order, a link to it, and a file in order. Below, the first file is met as the link
and once more in the directory. -/
def checkedTree : FileTree where
  here := []
  entries :=
    [([Utf8.encode "a.c".toList],
        .file .full (Utf8.encode "#include <b>\n#include <a>\n".toList)),
     ([Utf8.encode "b.c".toList], .file .full (Utf8.encode "#include <a>\n\nint x;\n".toList)),
     ([Utf8.encode "l.c".toList], .link (Path.ofText "a.c".toList))]

def checkedPaths : List Path :=
  [Path.ofText "l.c".toList, Path.ofText ".".toList]

def checkedBase : Path := Path.ofText "s".toList

theorem writable_checked : checkedTree.Writable (Path.ofText "l.c".toList) :=
  ⟨[Utf8.encode "a.c".toList], .full, Utf8.encode "#include <b>\n#include <a>\n".toList,
    ⟨by decide, by decide⟩, rfl⟩

end IncludeOrder
