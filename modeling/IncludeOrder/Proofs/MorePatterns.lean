import IncludeOrder.Proofs.Patterns

/-!
# IncludeOrder.Proofs.MorePatterns

Patterns that are given together, and patterns that are added later. One more pattern stands behind those
that are there (`exclude_eq`), and any number of them stand there in their order (`excludeAll_eq`). So
patterns given together are patterns added to a selection that has none (`ofLists_eq_excludeAll`), and it
does not matter where a list of them is cut (`ofLists_append`). Whether they come from the settings, with a
command or one by one, the same text is the fault, or the same names are excluded (`additions_agree`).
-/

namespace IncludeOrder

namespace Selection

/-! ## One by one -/

/-- With more patterns behind those that are there. -/
def withPatterns (s : Selection) (gs : List Glob) : Selection :=
  { s with patterns := s.patterns ++ gs }

@[simp] theorem withPatterns_nil (s : Selection) : s.withPatterns [] = s := by
  simp [withPatterns]

@[simp] theorem withPatterns_withPatterns (s : Selection) (gs hs : List Glob) :
    (s.withPatterns gs).withPatterns hs = s.withPatterns (gs ++ hs) := by
  simp [withPatterns]

theorem exclude_eq (s : Selection) (t : Text) :
    s.exclude t = (Glob.parse t).map fun g => s.withPatterns [g] := by
  rw [exclude]
  cases Glob.parse t <;> rfl

/-- The additions stop at the first text that is no pattern, as reading all of the texts does. -/
theorem excludeAll_eq (s : Selection) (ts : List Text) :
    s.excludeAll ts = (parseAll ts).map s.withPatterns := by
  induction ts generalizing s with
  | nil => simp [excludeAll, parseAll, Except.map]
  | cons t ts ih =>
    rw [excludeAll, exclude_eq, parseAll]
    cases Glob.parse t with
    | error e => rfl
    | ok g =>
      have hrest := ih (s.withPatterns [g])
      cases hts : parseAll ts with
      | error e => simpa [hts, Except.map] using hrest
      | ok gs => simpa [hts, Except.map] using hrest

theorem excludeAll_append (s : Selection) (xs ys : List Text) :
    s.excludeAll (xs ++ ys) = (s.excludeAll xs).bind (·.excludeAll ys) := by
  induction xs generalizing s with
  | nil => rfl
  | cons x xs ih =>
    rw [List.cons_append, excludeAll, excludeAll]
    cases s.exclude x with
    | error e => rfl
    | ok s' => exact ih s'

/-! ## Together -/

theorem ofLists_eq_excludeAll (es ts : List Text) : ofLists es ts = excludeAll ⟨es, []⟩ ts := by
  rw [ofLists, excludeAll_eq]
  cases parseAll ts <;> rfl

/-- A list of patterns can be cut anywhere, and what is behind the cut added later. -/
theorem ofLists_append (es xs ys : List Text) :
    ofLists es (xs ++ ys) = (ofLists es xs).bind (·.excludeAll ys) := by
  calc ofLists es (xs ++ ys) = excludeAll ⟨es, []⟩ (xs ++ ys) := ofLists_eq_excludeAll es _
    _ = (excludeAll ⟨es, []⟩ xs).bind (·.excludeAll ys) := excludeAll_append _ xs ys
    _ = (ofLists es xs).bind (·.excludeAll ys) := by rw [ofLists_eq_excludeAll]

end Selection

/-! ## In the settings -/

/-- The patterns of the settings come first, and then those that are given with a command. -/
theorem Settings.selection_eq_excludeAll (s : Settings) (more : List Text) :
    s.selection more =
      ((Selection.ofLists s.extensions s.exclude).bind (·.excludeAll more)).mapError
        .invalidPattern := by
  rw [selection_eq, Selection.ofLists_append]

/-- The default settings select what the default selection does. -/
theorem Settings.selection_default (more : List Text) :
    default.selection more = (Selection.default.excludeAll more).mapError .invalidPattern := by
  have hdefault : Selection.ofLists default.extensions default.exclude = .ok .default :=
    Selection.ofLists_default
  rw [selection_eq_excludeAll, hdefault]
  rfl

/-- Patterns that are given together, those of settings with more from a command, and those that are
added one by one to a selection: they fail with the first text that is no pattern, wherever it was given,
or they make one selection, with the targets of the extensions, which excludes the names that one of the
patterns matches. -/
theorem Selection.additions_agree (es xs ys : List Text) :
    (∃ e, Glob.FirstFault (xs ++ ys) e ∧
      ofLists es (xs ++ ys) = .error e ∧
      Settings.selection ⟨es, xs⟩ ys = .error (.invalidPattern e) ∧
      (ofLists es xs).bind (·.excludeAll ys) = .error e) ∨
    (∀ t ∈ xs ++ ys, Glob.Valid t) ∧
      ∃ s, ofLists es (xs ++ ys) = .ok s ∧
        Settings.selection ⟨es, xs⟩ ys = .ok s ∧
        (ofLists es xs).bind (·.excludeAll ys) = .ok s ∧
        (∀ p, s.targets p = hasExtension es p) ∧
        ∀ n, s.excludes n = true ↔ ∃ t ∈ xs ++ ys, Glob.Matches t n := by
  rw [Settings.selection_eq_excludeAll, ← ofLists_append]
  cases hlists : ofLists es (xs ++ ys) with
  | error e => exact .inl ⟨e, ofLists_eq_error.1 hlists, rfl, rfl, rfl⟩
  | ok s =>
    have hvalid : ∀ t ∈ xs ++ ys, Glob.Valid t := exists_ofLists.1 ⟨s, hlists⟩
    have htargets : s.targets = hasExtension es := by
      obtain ⟨gs, _, rfl⟩ := ofLists_eq_ok.1 hlists
      rfl
    exact .inr ⟨hvalid, s, rfl, rfl, rfl, fun p => congrFun htargets p,
      fun n => excludes_ofLists hlists⟩

end IncludeOrder
