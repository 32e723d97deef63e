import IncludeOrder.Proofs.CheckRun
import Mathlib

/-!
# IncludeOrder.Proofs.SecondRun

A run after a run that wrote, where the keys of paths tell files apart. What was sorted is now in order,
and all else is as it was, so a second run that writes says the same of every file, except that the
sorted ones are unchanged, and it changes nothing (`sortPaths_settles`). A check after the run still
finds the files out of order that could not be written (`Refused`), and no others: `sorted_after_iff`.
-/

namespace IncludeOrder

variable {t t' : FileTree} {q : Path} {qs : List Path} {p : Place} {a : Access} {text : Text}

/-- The outcome of the same file in the next run. -/
def Outcome.settled (o : Outcome) : Outcome :=
  match o.verdict with
  | .sorted _ => ⟨o.path, .unchanged⟩
  | _ => o

theorem Outcome.settled_of_status_ne {o : Outcome} (h : o.status ≠ .sorted) : o.settled = o := by
  obtain ⟨path, verdict⟩ := o
  cases verdict with
  | sorted r => exact absurd rfl h
  | unchanged | noIncludes | failed _ => rfl

theorem Outcome.settled_of_status_eq {o : Outcome} (h : o.status = .sorted) :
    o.settled = ⟨o.path, .unchanged⟩ := by
  obtain ⟨path, verdict⟩ := o
  cases verdict with
  | sorted r => rfl
  | unchanged | noIncludes | failed _ => cases h

/-- The path leads to a text out of order, in a file that may not be written. -/
def Refused (t : FileTree) (q : Path) : Prop :=
  ∃ p a text, OutOfOrder t q p a text ∧ a.write = false

/-! ## One file after a run -/

theorem Edit.ofText?_sortIncludes_eq_none_iff {file : Path} :
    Edit.ofText? file (sortIncludes file text) = none ↔ Edit.ofText? file text = none := by
  rcases Block.none_or_cut (Text.lines text) with hnone | ⟨before, run, behind, h⟩
  · rw [sortIncludes_eq_self hnone]
  · rw [h.ofText?_eq file, (h.sorted file).ofText?_eq file]
    simp

theorem status_of_refused (h : Refused t q) :
    (outcomeOf true t q).1 = ⟨q, .failed (.failure (.fileAccess q .denied))⟩ := by
  obtain ⟨p, a, text, hoo, hw⟩ := h
  obtain ⟨e, he⟩ := hoo.exists_edit
  rw [outcomeOf_outOfOrder hoo he, if_neg (by simp), if_neg (by simp [hw])]

namespace Rewrites

variable (h : Rewrites t t' qs) (hd : (qs.map t.key).Nodup) (hq : q ∈ qs)
include h hq

theorem outcomeOf_sorted (hs : (outcomeOf true t q).1.status = .sorted) (w : Bool) :
    (outcomeOf w t' q).1 = ⟨q, .unchanged⟩ := by
  obtain ⟨p, a, text, e, hoo, he, hw⟩ := outOfOrder_of_sorted hs
  have hread : t'.readText q = .ok (sortIncludes q text) := h.readText_eq hq hoo hw
  have hsome : (Edit.ofText? q (sortIncludes q text)).isSome = true := by
    rw [Option.isSome_iff_ne_none, ne_eq, Edit.ofText?_sortIncludes_eq_none_iff, he]
    simp
  rw [outcomeOf_inOrder hread (sortIncludes_idem q text), if_pos hsome]

variable (ht : t.TellsApart)
include hd ht

/-- No other file of the run is in the same place, so a file that was not sorted is as it was. -/
theorem outcomeOf_kept (hs : (outcomeOf true t q).1.status ≠ .sorted) (w : Bool) :
    (outcomeOf w t' q).1 = (outcomeOf w t q).1 := by
  refine outcomeOf_congr h.outline_eq (fun p hf => h.kept p fun r hr hfr => ?_) w
  have hrq : r = q := List.inj_on_of_nodup_map hd hr hq (ht.key_eq hf hfr)
  rw [hrq]
  exact hs

theorem outcomeOf_settled : (outcomeOf true t' q).1 = (outcomeOf true t q).1.settled := by
  by_cases hs : (outcomeOf true t q).1.status = .sorted
  · rw [h.outcomeOf_sorted hq hs, Outcome.settled_of_status_eq hs, outcomeOf_path]
  · rw [h.outcomeOf_kept hd hq ht hs, Outcome.settled_of_status_ne hs]

theorem status_settled : (outcomeOf true t' q).1.status ≠ .sorted := by
  by_cases hs : (outcomeOf true t q).1.status = .sorted
  · rw [h.outcomeOf_sorted hq hs]
    simp [Outcome.status]
  · rw [h.outcomeOf_kept hd hq ht hs]
    exact hs

/-- A check after the run finds a file out of order exactly if writing it was refused. -/
theorem sorted_after_iff : (outcomeOf false t' q).1.status = .sorted ↔ Refused t q := by
  by_cases hs : (outcomeOf true t q).1.status = .sorted
  · rw [h.outcomeOf_sorted hq hs]
    constructor
    · intro hun
      cases hun
    · intro href
      rw [status_of_refused href] at hs
      cases hs
  · rw [h.outcomeOf_kept hd hq ht hs, sorted_false_iff]
    constructor
    · rintro ⟨p, a, text, hoo⟩
      refine ⟨p, a, text, hoo, ?_⟩
      obtain ⟨e, he⟩ := hoo.exists_edit
      cases hw : a.write with
      | false => rfl
      | true =>
        rw [outcomeOf_outOfOrder hoo he, if_neg (by simp), if_pos hw] at hs
        exact absurd rfl hs
    · rintro ⟨p, a, text, hoo, _⟩
      exact ⟨p, a, text, hoo⟩

end Rewrites

/-! ## Runs after a run -/

namespace Collection.Sound

variable {s : Selection} {c : Collection} (h : Sound t s c)
include h

theorem map_settled_unlisted : c.unlisted.map Outcome.settled = c.unlisted := by
  refine (List.map_congr_left fun x hx => ?_).trans (List.map_id _)
  exact Outcome.settled_of_status_ne (by simp [h.failed x hx])

/-- Only files are told as sorted. -/
theorem exists_sorted_iff {f : Path → Outcome} (hf : ∀ q, (f q).path = q) :
    (∃ x ∈ c.unlisted ++ c.files.map f, x.path = q ∧ x.status = .sorted) ↔
      q ∈ c.files ∧ (f q).status = .sorted := by
  constructor
  · rintro ⟨x, hx, rfl, hs⟩
    rcases List.mem_append.1 hx with hx | hx
    · rw [h.failed x hx] at hs
      cases hs
    · obtain ⟨q, hq, rfl⟩ := List.mem_map.1 hx
      rw [hf]
      exact ⟨hq, hs⟩
  · rintro ⟨hq, hs⟩
    exact ⟨f q, List.mem_append.2 (.inr (List.mem_map_of_mem hq)), hf q, hs⟩

end Collection.Sound

/-- A run that writes is over after one pass. Once more, it gives the same outcomes in the same order,
the sorted ones as unchanged, and leaves the tree alone. A check after it finds out of order exactly
the files that it could not write and told as failed, and so none if there are none of these. -/
theorem sortPaths_settles {σ : Type} {s : Selection} {notify : σ → Outcome → σ} {start : σ}
    {ps : List Path} {r : Progress σ} (ht : t.TellsApart)
    (h : sortPaths s ⟨false, false⟩ notify start t ps = .ok r) :
    ∃ c, collect t s ps = .ok c ∧
      (∃ r', sortPaths s ⟨false, false⟩ notify start r.tree ps = .ok r' ∧
        r'.tree = r.tree ∧ r'.report.outcomes = r.report.outcomes.map Outcome.settled) ∧
      (∀ d, ∃ r', sortPaths s ⟨true, d⟩ notify start r.tree ps = .ok r' ∧ r'.tree = r.tree ∧
        (∀ q, (∃ x ∈ r'.report.outcomes, x.path = q ∧ x.status = .sorted) ↔
          q ∈ c.files ∧ Refused t q) ∧
        ((∀ q ∈ c.files, ¬ Refused t q) → r'.report.sorted = 0)) ∧
      ∀ q ∈ c.files, Refused t q →
        ⟨q, .failed (.failure (.fileAccess q .denied))⟩ ∈ r.report.outcomes := by
  obtain ⟨c, hc⟩ := collect_of_sortPaths notify h
  have hsound := collect_sound hc
  obtain ⟨hout, hrew⟩ := run_effect ht hsound.distinct
  rw [sortPaths_eq notify hc] at h
  cases h
  have hwrites : Options.writes ⟨false, false⟩ = true := rfl
  simp only [hwrites, hout, Report.outcomes_ofOutcomes]
  -- the second run collects the same files, since writing keeps the outline
  have hc' : collect (treeAfter true t c.files) s ps = .ok c := by
    rw [collect_congr hrew.outline_eq, hc]
  have hnone : ∀ q ∈ c.files, (outcomeOf true (treeAfter true t c.files) q).1.status ≠ .sorted :=
    fun q hq => hrew.status_settled hsound.distinct hq ht
  refine ⟨c, hc, ⟨_, sortPaths_eq notify hc' _ start, ?_, ?_⟩, fun d => ?_, ?_⟩
  · exact treeAfter_of_not_sorted hnone
  · rw [hwrites, outcomesOf_eq (ht.congr hrew.outline_eq) (collect_sound hc').distinct,
      Report.outcomes_ofOutcomes, List.map_append, hsound.map_settled_unlisted, List.map_map]
    congr 1
    exact List.map_congr_left fun q hq => hrew.outcomeOf_settled hsound.distinct hq ht
  · have hcheck : Options.writes ⟨true, d⟩ = false := rfl
    refine ⟨_, sortPaths_false hc' hcheck, rfl, fun q => ?_, fun hall => ?_⟩
    · rw [Report.outcomes_ofOutcomes, hsound.exists_sorted_iff (outcomeOf_path _ _)]
      exact and_congr_right fun hq => hrew.sorted_after_iff hsound.distinct hq ht
    · rw [hsound.sorted_eq, List.countP_eq_zero]
      intro q hq
      simpa [hrew.sorted_after_iff hsound.distinct hq ht] using hall q hq
  · intro q hq href
    refine List.mem_append.2 (.inr ?_)
    rw [← status_of_refused href]
    exact List.mem_map_of_mem hq

/-- Two files out of order, of which the second may not be written. -/
def guardedTree : FileTree where
  here := []
  entries :=
    [([Utf8.encode "a.c".toList],
        .file .full (Utf8.encode "#include <b>\n#include <a>\n".toList)),
     ([Utf8.encode "r.c".toList],
        .file ⟨true, false, false⟩ (Utf8.encode "#include <b>\n#include <a>\n".toList))]

def guardedPaths : List Path :=
  [Path.ofText "a.c".toList, Path.ofText "r.c".toList]

theorem guarded_runs :
    ∃ r r', sortPaths .default ⟨false, false⟩ (fun n _ => n + 1) 0 guardedTree guardedPaths = .ok r ∧
      sortPaths .default ⟨true, false⟩ (fun n _ => n + 1) 0 r.tree guardedPaths = .ok r' ∧
      (r.report.sorted, r.report.failed, r'.report.sorted) = (1, 1, 1) := by
  have hruns : (match sortPaths .default ⟨false, false⟩ (fun n _ => n + 1) 0 guardedTree
      guardedPaths with
    | .error _ => False
    | .ok r =>
      match sortPaths .default ⟨true, false⟩ (fun n _ => n + 1) 0 r.tree guardedPaths with
      | .error _ => False
      | .ok r' => (r.report.sorted, r.report.failed, r'.report.sorted) = (1, 1, 1)) := by cbv
  split at hruns
  · exact hruns.elim
  · rename_i r hr
    split at hruns
    · exact hruns.elim
    · rename_i r' hr'
      exact ⟨r, r', hr, hr', hruns⟩

theorem sortPaths_settles_guarded :
    guardedTree.TellsApart ∧ ∃ r,
      sortPaths .default ⟨false, false⟩ (fun n _ => n + 1) 0 guardedTree guardedPaths = .ok r ∧
      ∃ r', sortPaths .default ⟨false, false⟩ (fun n _ => n + 1) 0 r.tree guardedPaths = .ok r' ∧
        r'.tree = r.tree ∧ r'.report.outcomes = r.report.outcomes.map Outcome.settled := by
  have hapart : guardedTree.TellsApart := ⟨rfl, rfl⟩
  obtain ⟨r, _, hr, _⟩ := guarded_runs
  obtain ⟨c, _, hagain, _⟩ := sortPaths_settles hapart hr
  exact ⟨hapart, r, hr, hagain⟩

/-- A check after a run that writes can find files out of order, although keys tell files apart. -/
theorem check_after_refused :
    ¬ ∀ (s : Selection) (t : FileTree) (ps : List Path) (r r' : Progress Nat), t.TellsApart →
      sortPaths s ⟨false, false⟩ (fun n _ => n + 1) 0 t ps = .ok r →
      sortPaths s ⟨true, false⟩ (fun n _ => n + 1) 0 r.tree ps = .ok r' →
      r'.report.sorted = 0 := by
  intro hall
  obtain ⟨r, r', hr, hr', hcounts⟩ := guarded_runs
  have hzero : r'.report.sorted = 0 :=
    hall .default guardedTree guardedPaths r r' ⟨rfl, rfl⟩ hr hr'
  rw [hzero] at hcounts
  simp at hcounts

end IncludeOrder
