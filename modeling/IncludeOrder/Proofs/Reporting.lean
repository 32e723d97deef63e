import IncludeOrder.Proofs.Abort
import IncludeOrder.Proofs.Collected
import Mathlib

/-!
# IncludeOrder.Proofs.Reporting

The report of a run, at each of its moments. What has been told is what the report lists, once each and
in this order, its counts are the numbers of the outcomes listed, and each outcome holds what its status
promises (`Moment.Consistent`). One step keeps that (`Consistent.next`), so it holds at every moment and
at the end, where the outcomes are those of the directories that could not be listed and then one for
each file, in the order of the collection (`sortPaths_reports`).
-/

namespace IncludeOrder

open FileTree (Found)

variable {t : FileTree} {s : Selection} {c c' : Collection} {p q : Path} {ps qs : List Path}
variable {w : Bool} {σ : Type} {notify : σ → Outcome → σ} {start : σ} {r : Progress σ}
variable {x y : Moment σ} {o : Outcome} {rep : Report}

/-! ## One outcome -/

/-- An outcome comes with a replacement exactly if the block was out of order, and with a message exactly
if it failed; the message names the path that it is about. The first two hold of every outcome, as
`Verdict` ties a replacement and a cause to their statuses; that the cause of a failure is about the
path of its own outcome is up to the run. -/
structure Outcome.Fits (o : Outcome) : Prop where
  replacement_iff : o.replacement?.isSome = true ↔ o.status = .sorted
  message_iff : o.message?.isSome = true ↔ o.status = .failed
  message_eq : ∀ m, o.message? = some m →
    ∃ f, m = (Failure.fileAccess o.path f).message ∨ m = (Cause.unlisted o.path f).message

theorem fits_of_not_failed (h : o.status ≠ .failed) : o.Fits := by
  obtain ⟨q, v⟩ := o
  cases v with
  | failed cause => exact absurd rfl h
  | sorted b => constructor <;> simp [Outcome.replacement?, Outcome.message?, Outcome.status]
  | unchanged => constructor <;> simp [Outcome.replacement?, Outcome.message?, Outcome.status]
  | noIncludes => constructor <;> simp [Outcome.replacement?, Outcome.message?, Outcome.status]

theorem fits_failed {cause : Cause} (h : ∃ f, cause = .failure (.fileAccess q f) ∨
    cause = .unlisted q f) : Outcome.Fits ⟨q, .failed cause⟩ := by
  refine ⟨by simp [Outcome.replacement?, Outcome.status],
    by simp [Outcome.message?, Outcome.status], fun m hm => ?_⟩
  obtain ⟨f, hf⟩ := h
  cases hm
  rcases hf with rfl | rfl
  · exact ⟨f, .inl rfl⟩
  · exact ⟨f, .inr rfl⟩

theorem fits_outcomeOf (w : Bool) (t : FileTree) (q : Path) : (outcomeOf w t q).1.Fits := by
  cases standing t q with
  | unreadable f h =>
    rw [outcomeOf_unreadable h]
    exact fits_failed ⟨f, .inl rfl⟩
  | inOrder text h same => exact fits_of_not_failed (status_inOrder h same w).2
  | outOfOrder p a text e h he =>
    rw [outcomeOf_outOfOrder h he]
    cases w with
    | false => exact fits_of_not_failed nofun
    | true =>
      cases a.write with
      | true => exact fits_of_not_failed nofun
      | false => exact fits_failed ⟨.denied, .inl rfl⟩

theorem fits_of_outcome? {x : Found} (h : Collection.outcome? x = some o) : o.Fits := by
  cases x with
  | file q => cases h
  | unlisted q f =>
    cases h
    exact fits_failed ⟨f, .inr rfl⟩

/-- What is added to the failures of a collection fits. -/
theorem fits_addPath (h : c.addPath t s p = .ok c') (hc : ∀ o ∈ c.unlisted, o.Fits) :
    ∀ o ∈ c'.unlisted, o.Fits := by
  obtain ⟨_, rfl⟩ := Collection.addPath_eq_ok.1 h
  intro o ho
  rw [Collection.unlisted_foldl, List.mem_append] at ho
  rcases ho with ho | ho
  · exact hc o ho
  · obtain ⟨x, _, hx⟩ := List.mem_filterMap.1 ho
    exact fits_of_outcome? hx

/-! ## Counts -/

/-- The counts of a report are the numbers of its outcomes with each status. -/
structure Report.Counted (rep : Report) : Prop where
  sorted : rep.sorted = rep.outcomes.countP (·.status = .sorted)
  unchanged : rep.unchanged = rep.outcomes.countP (·.status = .unchanged)
  noIncludes : rep.noIncludes = rep.outcomes.countP (·.status = .noIncludes)
  failed : rep.failed = rep.outcomes.countP (·.status = .failed)

theorem Report.Counted.empty : Report.empty.Counted :=
  ⟨rfl, rfl, rfl, rfl⟩

theorem Report.Counted.record (h : rep.Counted) (o : Outcome) : (rep.record o).Counted := by
  obtain ⟨hs, hu, hn, hf⟩ := h
  cases ho : o.status <;>
    constructor <;> simp [Report.record, ho, hs, hu, hn, hf, List.countP_append]

@[simp] theorem Report.outcomes_record (rep : Report) (o : Outcome) :
    (rep.record o).outcomes = rep.outcomes ++ [o] := by
  cases ho : o.status <;> simp [Report.record, ho]

/-- Every outcome has one of the four statuses. -/
theorem countP_status (os : List Outcome) :
    os.countP (·.status = .sorted) + os.countP (·.status = .unchanged) +
      os.countP (·.status = .noIncludes) + os.countP (·.status = .failed) = os.length := by
  induction os with
  | nil => rfl
  | cons o os ih =>
    rw [List.length_cons, ← ih]
    cases ho : o.status <;> simp [ho] <;> omega

theorem Report.Counted.total_eq (h : rep.Counted) :
    rep.sorted + rep.unchanged + rep.noIncludes + rep.failed = rep.total := by
  rw [h.sorted, h.unchanged, h.noIncludes, h.failed, countP_status]
  rfl

/-! ## A run at one of its moments -/

/-- The failures that have been met and not told. -/
def Stage.waiting : Stage → List Outcome
  | .collecting c _ => c.unlisted
  | .sorting us _ => us
  | .aborted _ => []

/-- At this moment the report is complete and right. -/
structure Moment.Consistent (notify : σ → Outcome → σ) (start : σ) (x : Moment σ) : Prop where
  told_eq : x.progress.told = x.progress.report.outcomes.foldl notify start
  counted : x.progress.report.Counted
  fits : ∀ o ∈ x.progress.report.outcomes, o.Fits
  waiting : ∀ o ∈ x.stage.waiting, o.Fits

namespace Moment.Consistent

theorem opening (notify : σ → Outcome → σ) (start : σ) (t : FileTree) (ps : List Path) :
    Consistent notify start (opening start t ps) :=
  ⟨rfl, .empty, nofun, nofun⟩

/-- One more outcome is told, whatever comes after it. -/
theorem tell {stage : Stage} (h : Consistent notify start ⟨stage, r⟩) (t' : FileTree) (ho : o.Fits)
    (stage' : Stage) (hw : ∀ u ∈ stage'.waiting, u.Fits) :
    Consistent notify start ⟨stage', Progress.tell notify { r with tree := t' } o⟩ := by
  refine ⟨?_, h.counted.record o, fun u hu => ?_, hw⟩
  · simp only [Progress.tell, Report.outcomes_record, List.foldl_append, ← h.told_eq]
    rfl
  · rw [Progress.tell, Report.outcomes_record, List.mem_append, List.mem_singleton] at hu
    rcases hu with hu | rfl
    · exact h.fits u hu
    · exact ho

theorem next (h : Consistent notify start x) (hn : next s notify w x = some y) :
    Consistent notify start y := by
  obtain ⟨stage, r⟩ := x
  cases stage with
  | aborted e => cases hn
  | collecting c ps =>
    cases ps with
    | nil =>
      cases hn
      exact ⟨h.told_eq, h.counted, h.fits, h.waiting⟩
    | cons p ps =>
      simp only [IncludeOrder.next] at hn
      split at hn
      · cases hn
        exact ⟨h.told_eq, h.counted, h.fits, List.forall_mem_nil _⟩
      · rename_i c' hc'
        cases hn
        exact ⟨h.told_eq, h.counted, h.fits, fits_addPath hc' h.waiting⟩
  | sorting us fs =>
    cases us with
    | cons u us =>
      cases hn
      obtain ⟨hu, hus⟩ := List.forall_mem_cons.1 h.waiting
      exact h.tell r.tree hu (.sorting us fs) hus
    | nil =>
      cases fs with
      | nil => cases hn
      | cons f fs =>
        cases hn
        exact h.tell _ (fits_outcomeOf w r.tree f) (.sorting [] fs) (List.forall_mem_nil _)

theorem runs (hx : Runs s notify w x y) (h : Consistent notify start x) :
    Consistent notify start y := by
  induction hx with
  | refl => exact h
  | tail _ hn ih => exact ih.next hn

end Moment.Consistent

/-- A run that has ended well has nothing left to do. -/
theorem Moment.progress_of_result (h : x.result? = some (.ok r)) : x.progress = r := by
  obtain ⟨stage, r'⟩ := x
  cases stage with
  | collecting c ps => cases h
  | aborted e => cases h
  | sorting us fs =>
    cases us with
    | cons u us => cases h
    | nil =>
      cases fs with
      | cons f fs => cases h
      | nil =>
        cases h
        rfl

/-! ## The whole report -/

/-- Each file has one outcome, under the path by which it was collected. -/
theorem map_path_outcomesOf (w : Bool) (t : FileTree) (qs : List Path) :
    (outcomesOf w t qs).map Outcome.path = qs := by
  induction qs generalizing t with
  | nil => rfl
  | cons q qs ih => rw [outcomesOf, List.map_cons, outcomeOf_path, ih]

/-- The report of a run over a collection. -/
structure Reported (notify : σ → Outcome → σ) (start : σ) (w : Bool) (t : FileTree)
    (c : Collection) (r : Progress σ) : Prop where
  /-- First the directories that could not be listed, then the files. -/
  outcomes_eq : r.report.outcomes = c.unlisted ++ outcomesOf w t c.files
  unlisted : ∀ o ∈ c.unlisted, o.status = .failed
  paths_eq : (outcomesOf w t c.files).map Outcome.path = c.files
  told_eq : r.told = r.report.outcomes.foldl notify start
  counted : r.report.Counted
  total_eq :
    r.report.sorted + r.report.unchanged + r.report.noIncludes + r.report.failed = r.report.total
  fits : ∀ o ∈ r.report.outcomes, o.Fits

/-- At every moment of a run, and so at its end, the report agrees with what has been told; at the end
it lists all that was collected. -/
theorem sortPaths_reports (s : Selection) (opts : Options) (notify : σ → Outcome → σ) (start : σ)
    (t : FileTree) (ps : List Path) :
    (∀ x, Runs s notify opts.writes (opening start t ps) x → x.Consistent notify start) ∧
    ∀ r, sortPaths s opts notify start t ps = .ok r →
      ∃ c, collect t s ps = .ok c ∧ Reported notify start opts.writes t c r := by
  have hruns : ∀ x, Runs s notify opts.writes (opening start t ps) x → x.Consistent notify start :=
    fun x hx => Moment.Consistent.runs hx (.opening notify start t ps)
  refine ⟨hruns, fun r h => ?_⟩
  obtain ⟨c, hc⟩ := collect_of_sortPaths notify h
  obtain ⟨y, hy, hres⟩ := exists_runs s opts notify start t ps
  have hend : y.progress = r := Moment.progress_of_result (hres.trans (congrArg some h))
  obtain ⟨htold, hcounted, hfits, _⟩ := hruns y hy
  rw [hend] at htold hcounted hfits
  refine ⟨c, hc, ?_, (collect_sound hc).failed, map_path_outcomesOf _ _ _, htold, hcounted,
    hcounted.total_eq, hfits⟩
  rw [sortPaths_eq notify hc] at h
  cases h
  exact Report.outcomes_ofOutcomes _

/-- Files of all kinds: out of order, in order, no text, without includes, out of order and not to be
written; and a directory that may not be read. -/
def mixedTree : FileTree where
  here := []
  entries :=
    [([Utf8.encode "a.c".toList],
        .file .full (Utf8.encode "#include <b>\n#include <a>\n".toList)),
     ([Utf8.encode "b.c".toList], .file .full (Utf8.encode "#include <a>\n\nint x;\n".toList)),
     ([Utf8.encode "d".toList], .directory ⟨false, true, true⟩),
     ([Utf8.encode "k.c".toList], .file .full [0xE9]),
     ([Utf8.encode "n.c".toList], .file .full (Utf8.encode "int x;\n".toList)),
     ([Utf8.encode "r.c".toList],
        .file ⟨true, false, false⟩ (Utf8.encode "#include <b>\n#include <a>\n".toList))]

theorem sortPaths_reports_mixed :
    ∃ r, sortPaths .default ⟨false, false⟩ (fun us u => us ++ [u.status]) [] mixedTree
        [Path.ofText ".".toList] = .ok r ∧
      r.told = [.failed, .sorted, .unchanged, .failed, .noIncludes, .failed] ∧
      (r.report.sorted, r.report.unchanged, r.report.noIncludes, r.report.failed) = (1, 1, 1, 3) ∧
      ∃ c, collect mixedTree .default [Path.ofText ".".toList] = .ok c ∧
        Reported (fun us u => us ++ [u.status]) [] true mixedTree c r := by
  have hrun : (match sortPaths .default ⟨false, false⟩ (fun us u => us ++ [u.status]) [] mixedTree
      [Path.ofText ".".toList] with
    | .ok r => r.told = [Status.failed, .sorted, .unchanged, .failed, .noIncludes, .failed] ∧
        (r.report.sorted, r.report.unchanged, r.report.noIncludes, r.report.failed) = (1, 1, 1, 3)
    | .error _ => False) := by cbv
  have hreports := sortPaths_reports .default ⟨false, false⟩ (fun us u => us ++ [u.status]) []
    mixedTree [Path.ofText ".".toList]
  cases h : sortPaths .default ⟨false, false⟩ (fun us u => us ++ [u.status]) [] mixedTree
      [Path.ofText ".".toList] with
  | error e =>
    rw [h] at hrun
    exact hrun.elim
  | ok r =>
    rw [h] at hrun
    exact ⟨r, rfl, hrun.1, hrun.2, hreports.2 r h⟩

end IncludeOrder
