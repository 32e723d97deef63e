import IncludeOrder.CommandLine.Session
import IncludeOrder.Proofs.Run

/-!
# IncludeOrder.Proofs.FmtCommand

The command that sorts files, in two stages. `collected` is all that comes before the first file: the
settings, their selection and the collecting. If it fails, so does the command, and the tree is as it
was (`runFmt_of_error`); else the command ends with the verdict on its report (`runFmt_of_ok`). The two
verdicts are no failures of the first stage (`collected_error`). What could not be listed counts as
failed and never as sorted (`failed_eq_zero_iff`, `sorted_eq`).
-/

namespace IncludeOrder

/-! ## Counts -/

namespace Collection.Sound

variable {t : FileTree} {s : Selection} {c : Collection}

theorem failed_eq_zero_iff (h : Sound t s c) (f : Path → Outcome) :
    (Report.ofOutcomes (c.unlisted ++ c.files.map f)).failed = 0 ↔
      c.unlisted = [] ∧ ∀ q ∈ c.files, (f q).status ≠ .failed := by
  rw [Report.failed_ofOutcomes, List.countP_eq_zero]
  constructor
  · intro hall
    refine ⟨List.eq_nil_iff_forall_not_mem.2 fun x hx => ?_, fun q hq => ?_⟩
    · exact hall x (List.mem_append.2 (.inl hx)) (decide_eq_true (h.failed x hx))
    · simpa using hall (f q) (List.mem_append.2 (.inr (List.mem_map_of_mem hq)))
  · rintro ⟨hnil, hfiles⟩ x hx
    rw [hnil, List.nil_append] at hx
    obtain ⟨q, hq, rfl⟩ := List.mem_map.1 hx
    simpa using hfiles q hq

theorem sorted_eq (h : Sound t s c) (f : Path → Outcome) :
    (Report.ofOutcomes (c.unlisted ++ c.files.map f)).sorted =
      c.files.countP fun q => (f q).status = .sorted := by
  have hunlisted : c.unlisted.countP (fun x => x.status = .sorted) = 0 := by
    rw [List.countP_eq_zero]
    intro x hx
    simp [h.failed x hx]
  rw [Report.sorted_ofOutcomes, List.countP_append, hunlisted, Nat.zero_add, List.countP_map]
  rfl

end Collection.Sound

namespace CommandLine

variable {base : Path} {exclude : List Text} {ps : List Path} {t : FileTree}

/-- What the command is about to sort. -/
def collected (base : Path) (exclude : List Text) (ps : List Path) (t : FileTree) :
    Except Failure Collection :=
  match Settings.load t base with
  | .error e => .error e
  | .ok settings =>
    match settings.selection exclude with
    | .error e => .error e
    | .ok s => collect t s (orHere ps)

theorem collected_eq_ok {c : Collection} :
    collected base exclude ps t = .ok c ↔
      ∃ settings s, Settings.load t base = .ok settings ∧
        settings.selection exclude = .ok s ∧ collect t s (orHere ps) = .ok c := by
  constructor
  · intro h
    simp only [collected] at h
    split at h
    · cases h
    · rename_i settings hl
      split at h
      · cases h
      · rename_i s hs
        exact ⟨settings, s, hl, hs, h⟩
  · rintro ⟨settings, s, hl, hs, hc⟩
    simp only [collected, hl, hs, hc]

theorem load_error {e : Failure} (h : Settings.load t base = .error e) :
    (∃ f, e = .system f) ∨ ∃ p reason, e = .settingsInvalid p reason := by
  simp only [Settings.load] at h
  split at h
  · cases h
  · split at h
    · cases h
      exact .inl ⟨_, rfl⟩
    · split at h
      · cases h
        exact .inr ⟨_, _, rfl⟩
      · split at h
        · cases h
          exact .inr ⟨_, _, rfl⟩
        · cases h

theorem selection_error {settings : Settings} {e : Failure}
    (h : settings.selection exclude = .error e) : ∃ g, e = .invalidPattern g := by
  simp only [Settings.selection] at h
  split at h
  · cases h
    exact ⟨_, rfl⟩
  · cases h

/-- Before the first file, nothing is said about files that failed or are out of order. -/
theorem collected_error {e : Failure} (h : collected base exclude ps t = .error e) (n : Nat) :
    e ≠ .notSorted n ∧ e ≠ .filesFailed n := by
  simp only [collected] at h
  split at h
  · rename_i hl
    cases h
    rcases load_error hl with ⟨f, rfl⟩ | ⟨p, reason, rfl⟩ <;> simp
  · split at h
    · rename_i hs
      cases h
      obtain ⟨g, rfl⟩ := selection_error hs
      simp
    · obtain ⟨q, _, rfl | rfl⟩ := collect_error h <;> simp

theorem resultOf_eq_ok {o : Options} {r : Report} :
    resultOf o r = .ok () ↔ r.failed = 0 ∧ (o.check = true → r.sorted = 0) := by
  by_cases hf : r.failed = 0 <;> by_cases hs : r.sorted = 0 <;> cases hc : o.check <;>
    simp [resultOf, hf, hs, hc]

theorem resultOf_eq_notSorted {o : Options} {r : Report} {n : Nat} :
    resultOf o r = .error (.notSorted n) ↔
      r.failed = 0 ∧ o.check = true ∧ r.sorted = n ∧ 1 ≤ n := by
  by_cases hf : r.failed = 0 <;> by_cases hs : r.sorted = 0 <;> cases hc : o.check <;>
    simp [resultOf, hf, hs, hc] <;> omega

theorem collected_sound (h : collected base exclude ps t = .ok c) :
    ∃ s, Collection.Sound t s c := by
  obtain ⟨_, s, _, _, hc⟩ := collected_eq_ok.1 h
  exact ⟨s, collect_sound hc⟩

variable (colors : Bool) (v : Verbosity) (o : Options)

theorem runFmt_of_error {e : Failure} (h : collected base exclude ps t = .error e) :
    (runFmt colors base v o exclude ps t).result = .error e ∧
      (runFmt colors base v o exclude ps t).tree = t := by
  cases hl : Settings.load t base with
  | error f =>
    simp only [collected, hl] at h
    cases h
    simp only [runFmt, hl, and_self]
  | ok settings =>
    cases hs : settings.selection exclude with
    | error f =>
      simp only [collected, hl, hs] at h
      cases h
      simp only [runFmt, hl, hs, and_self]
    | ok s =>
      simp only [collected, hl, hs] at h
      simp only [runFmt, hl, hs, sortPaths_eq_error _ h, and_self]

theorem runFmt_of_ok {c : Collection} (h : collected base exclude ps t = .ok c) :
    (runFmt colors base v o exclude ps t).result =
        resultOf o (Report.ofOutcomes (c.unlisted ++ outcomesOf o.writes t c.files)) ∧
      (runFmt colors base v o exclude ps t).tree = treeAfter o.writes t c.files := by
  obtain ⟨settings, s, hl, hs, hc⟩ := collected_eq_ok.1 h
  simp only [runFmt, hl, hs, sortPaths_eq _ hc, and_self]

theorem runFmt_eq_ok (ht : t.TellsApart) (h : collected base exclude ps t = .ok c) :
    (runFmt colors base v o exclude ps t).result = .ok () ↔
      c.unlisted = [] ∧ (∀ q ∈ c.files, (outcomeOf o.writes t q).1.status ≠ .failed) ∧
        (o.check = true → ∀ q ∈ c.files, (outcomeOf o.writes t q).1.status ≠ .sorted) := by
  obtain ⟨s, hsound⟩ := collected_sound h
  rw [(runFmt_of_ok colors v o h).1, outcomesOf_eq ht hsound.distinct, resultOf_eq_ok,
    hsound.failed_eq_zero_iff, hsound.sorted_eq, List.countP_eq_zero, and_assoc]
  simp

end CommandLine
end IncludeOrder
