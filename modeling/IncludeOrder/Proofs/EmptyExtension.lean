import IncludeOrder.Proofs.Assignment

/-!
# IncludeOrder.Proofs.EmptyExtension

Settings with an empty extension, which is that of the files whose names end in a dot. Values have no empty
elements, but the dots in front of an extension are dropped after that, and so an extension of nothing
but dots is stored as the empty one. Of keys set one after the other, the last value of the extensions
decides (`LastDotted`, `nil_mem_extensions_iff`), and a file whose name ends in a dot is a target exactly
then (`empty_extension_exact`).
-/

namespace IncludeOrder

namespace Path

variable {p : Path} {n : Name}

theorem fileName?_ne_here (hn : p.fileName? = some n) : n ≠ here := by
  rw [fileName?] at hn
  split at hn
  · cases hn
  · split at hn
    · cases hn
    · rename_i hne
      cases hn
      intro hhere
      simp [hhere] at hne

/-- Behind a dot at the end of a name there is nothing, and in front of it there is something. -/
theorem extension?_of_dot (hn : p.fileName? = some n) (hdot : n.getLast? = some dot) :
    p.extension? = some [] := by
  obtain ⟨m, rfl⟩ := List.getLast?_eq_some_iff.1 hdot
  obtain ⟨b, bs, rfl⟩ : ∃ b bs, m = b :: bs := by
    refine List.exists_cons_of_ne_nil ?_
    rintro rfl
    exact fileName?_ne_here hn rfl
  have hsplit : splitName (b :: bs ++ [dot]) = (b :: bs, some []) := by
    simp [splitName, List.dropLast_cons_of_ne_nil]
  rw [extension?, hn]
  simp only [hsplit]

end Path

namespace Settings

variable {s : Settings} {r : Selection} {p : Path} {value : Text} {calls : List (Text × Text)}

/-! ## The empty extension -/

theorem nil_mem_valueOf_iff :
    [] ∈ valueOf value .extensions ↔ ∃ t ∈ parseList value, ∀ c ∈ t, c = '.' := by
  simp [valueOf, List.dropWhile_eq_nil_iff]

theorem Usable.targets_iff (h : s.Usable) (hr : s.selection [] = .ok r) (hp : p.extension? = some []) :
    r.targets p = true ↔ [] ∈ s.extensions := by
  obtain ⟨gs, _, rfl⟩ := Selection.ofLists_eq_ok.1 (selection_eq_ok.1 hr)
  have hsame : ∀ e ∈ s.extensions,
      Text.sameIgnoringCase (e.dropWhile (· = '.')) (Utf8.lossy []) = true ↔ e = [] := by
    intro e he
    have hself : e.dropWhile (· = '.') = e := by
      cases e with
      | nil => rfl
      | cons c e =>
        have hc : c ≠ '.' := fun hc => h.undotted _ he (by simp [hc])
        simp [hc]
    simp [hself, Text.sameIgnoringCase, Utf8.lossy, Utf8.units]
  simp only [Selection.targets, Selection.hasExtension, hp, List.any_eq_true]
  constructor
  · rintro ⟨e, he, hext⟩
    rwa [(hsame e he).1 hext] at he
  · intro hnil
    exact ⟨[], hnil, (hsame [] hnil).2 rfl⟩

/-! ## Keys set one after the other -/

theorem extensions_left_assign (name value : Text) (s : Settings) :
    (left (assign name value) s).extensions =
      if name = Key.extensions.name then valueOf value .extensions else s.extensions := by
  rw [left, assign_run]
  rcases set_cases s name value with ⟨f, hf, hset⟩ | ⟨k, rfl, _, hset⟩
  · have hne : name ≠ Key.extensions.name := by
      rintro rfl
      cases hf with
      | unknown hname => exact hname (List.mem_map_of_mem (by decide))
      | invalid hname => exact absurd hname (by decide)
    rw [hset, if_neg hne]
  · rw [hset]
    cases k with
    | extensions => rw [if_pos rfl]; rfl
    | exclude => rw [if_neg (by decide)]; rfl

/-- The last value of the extensions has an element of nothing but dots. -/
def LastDotted (calls : List (Text × Text)) : Prop :=
  ∃ before value after, calls = before ++ (Key.extensions.name, value) :: after ∧
    (∀ c ∈ after, c.1 ≠ Key.extensions.name) ∧ ∃ t ∈ parseList value, ∀ c ∈ t, c = '.'

theorem lastDotted_cons {c : Text × Text} : LastDotted (c :: calls) ↔ LastDotted calls ∨
    (∀ d ∈ calls, d.1 ≠ Key.extensions.name) ∧
      c.1 = Key.extensions.name ∧ ∃ t ∈ parseList c.2, ∀ d ∈ t, d = '.' := by
  constructor
  · rintro ⟨before, value, after, hsplit, hafter, hdots⟩
    cases before with
    | nil =>
      cases hsplit
      exact .inr ⟨hafter, rfl, hdots⟩
    | cons b before =>
      cases hsplit
      exact .inl ⟨before, value, after, rfl, hafter, hdots⟩
  · rintro (⟨before, value, after, rfl, hafter, hdots⟩ | ⟨hcalls, hname, hdots⟩)
    · exact ⟨c :: before, value, after, rfl, hafter, hdots⟩
    · exact ⟨[], c.2, calls, by rw [← hname]; rfl, hcalls, hdots⟩

/-- Without a value of the extensions they are what they were before. -/
theorem nil_mem_extensions_iff (calls : List (Text × Text)) (s : Settings) :
    [] ∈ (assignAll calls s).extensions ↔
      LastDotted calls ∨ (∀ c ∈ calls, c.1 ≠ Key.extensions.name) ∧ [] ∈ s.extensions := by
  induction calls generalizing s with
  | nil =>
    have hno : ¬ LastDotted [] := by
      rintro ⟨before, value, after, hsplit, _⟩
      simp at hsplit
    simp [assignAll, hno]
  | cons c calls ih =>
    have hrun : assignAll (c :: calls) s = assignAll calls (left (assign c.1 c.2) s) := rfl
    rw [hrun, ih, extensions_left_assign, lastDotted_cons, List.forall_mem_cons]
    by_cases hc : c.1 = Key.extensions.name
    · rw [if_pos hc, nil_mem_valueOf_iff]
      simp [hc]
    · rw [if_neg hc]
      simp [hc]

theorem nil_mem_extensions_default_iff (calls : List (Text × Text)) :
    [] ∈ (assignAll calls default).extensions ↔ LastDotted calls := by
  have hdefault : [] ∉ default.extensions := by decide
  rw [nil_mem_extensions_iff]
  simp [hdefault]

/-- Whatever keys are set one after the other, no pattern is empty, and an extension is exactly if the last
value of the extensions has one of nothing but dots. Exactly then the files whose names end in a dot are
targets. -/
theorem empty_extension_exact (calls : List (Text × Text)) :
    [] ∉ (assignAll calls default).exclude ∧
    ([] ∈ (assignAll calls default).extensions ↔ LastDotted calls) ∧
    ∃ r, (assignAll calls default).selection [] = .ok r ∧
      ∀ p n, p.fileName? = some n → n.getLast? = some Path.dot →
        p.extension? = some [] ∧ (r.targets p = true ↔ LastDotted calls) := by
  have husable := usable_default.assignAll calls
  obtain ⟨r, hr⟩ := husable.exists_selection
  refine ⟨fun hnil => (husable.patterns [] hnil).1 rfl, nil_mem_extensions_default_iff calls, r, hr, ?_⟩
  intro p n hn hdot
  have hp := Path.extension?_of_dot hn hdot
  exact ⟨hp, by rw [husable.targets_iff hr hp, nil_mem_extensions_default_iff]⟩

/-- One dot is stored as the empty extension. -/
theorem empty_extension_dot :
    assignAll [(Key.extensions.name, ".".toList)] default = ⟨[[]], Selection.defaultExcludes⟩ ∧
    (Path.ofText "a.".toList).fileName? = some (Utf8.encode "a.".toList) ∧
    ∃ r, (assignAll [(Key.extensions.name, ".".toList)] default).selection [] = .ok r ∧
      r.targets (Path.ofText "a.".toList) = true := by
  have hstored : assignAll [(Key.extensions.name, ".".toList)] default =
      ⟨[[]], Selection.defaultExcludes⟩ := by decide +kernel
  refine ⟨hstored, by decide, ?_⟩
  rw [hstored]
  exact ⟨_, by cbv, by cbv⟩

end Settings
end IncludeOrder
