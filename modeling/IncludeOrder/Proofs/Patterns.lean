import IncludeOrder.Settings

/-!
# IncludeOrder.Proofs.Patterns

Lists of texts that are read as patterns. All of them are read exactly if each is a pattern
(`exists_parseAll`), and else the first that is none is the fault (`parseAll_eq_error`). A selection made
of them excludes a name exactly if one of the texts is a pattern of the name (`excludes_ofLists`).
-/

namespace IncludeOrder

variable {t n : Text} {ts : List Text} {gs : List Glob} {e : Glob.Error}

namespace Glob

/-- The text is a pattern. -/
def Valid (t : Text) : Prop :=
  ∃ g, parse t = .ok g

/-- The text is a pattern, and it stands for the name. -/
def Matches (t n : Text) : Prop :=
  ∃ g, parse t = .ok g ∧ g.accepts n = true

theorem matches_iff {g : Glob} (h : parse t = .ok g) : Matches t n ↔ g.accepts n = true := by
  simp [Matches, h]

/-- The first text that is no pattern, wherever it stands, and why it is none. -/
def FirstFault (ts : List Text) (e : Error) : Prop :=
  ∃ before t after, ts = before ++ t :: after ∧ (∀ u ∈ before, Valid u) ∧ parse t = .error e

theorem firstFault_cons :
    FirstFault (t :: ts) e ↔ parse t = .error e ∨ Valid t ∧ FirstFault ts e := by
  constructor
  · rintro ⟨before, u, after, hts, hbefore, hu⟩
    cases before with
    | nil =>
      cases hts
      exact .inl hu
    | cons v before =>
      cases hts
      obtain ⟨hv, hrest⟩ := List.forall_mem_cons.1 hbefore
      exact .inr ⟨hv, before, u, after, rfl, hrest, hu⟩
  · rintro (ht | ⟨ht, before, u, after, rfl, hbefore, hu⟩)
    · exact ⟨[], t, ts, rfl, nofun, ht⟩
    · exact ⟨t :: before, u, after, rfl, List.forall_mem_cons.2 ⟨ht, hbefore⟩, hu⟩

/-! ## Texts without special characters -/

/-- The character stands for itself wherever it stands in a pattern, outside of brackets. -/
def isPlain (c : Char) : Bool :=
  c ≠ '?' && c ≠ '[' && c ≠ '*'

theorem tokensFrom_plain (h : ∀ c ∈ t, isPlain c = true) (before : Option Char) (position : Nat) :
    tokensFrom before position t = .ok (t.map .char) := by
  induction t generalizing before position with
  | nil => simp [tokensFrom]
  | cons c t ih =>
    obtain ⟨hc, ht⟩ := List.forall_mem_cons.1 h
    obtain ⟨⟨hany, hclass⟩, hstar⟩ : (c ≠ '?' ∧ c ≠ '[') ∧ c ≠ '*' := by simpa [isPlain] using hc
    rw [tokensFrom, if_neg hany, if_neg hclass, if_neg hstar, ih ht]
    rfl

theorem collapsed_chars (t : Text) : collapsed (t.map .char) = t.map .char := by
  induction t with
  | nil => rfl
  | cons c t ih =>
    cases t with
    | nil => rfl
    | cons d t =>
      rw [List.map_cons, List.map_cons, collapsed, if_neg (by simp), ← List.map_cons, ih]

/-- A text without special characters is a pattern for itself. -/
theorem parse_plain (h : ∀ c ∈ t, isPlain c = true) : parse t = .ok ⟨t.map .char⟩ := by
  rw [parse, tokensFrom_plain h]
  cases t with
  | nil => rfl
  | cons c t =>
    simp only [List.map_cons, collapsed_chars]

theorem valid_plain (h : t.all isPlain = true) : Valid t :=
  ⟨_, parse_plain (List.all_eq_true.1 h)⟩

end Glob

namespace Selection

open Glob (Valid Matches FirstFault)

theorem parseAll_cons_eq_ok :
    parseAll (t :: ts) = .ok gs ↔
      ∃ g hs, Glob.parse t = .ok g ∧ parseAll ts = .ok hs ∧ gs = g :: hs := by
  rw [parseAll]
  cases Glob.parse t with
  | error e => simp
  | ok g => cases parseAll ts <;> simp [eq_comm]

theorem exists_parseAll : (∃ gs, parseAll ts = .ok gs) ↔ ∀ t ∈ ts, Valid t := by
  induction ts with
  | nil => simp [parseAll]
  | cons t ts ih =>
    rw [List.forall_mem_cons, ← ih, parseAll, Valid]
    cases Glob.parse t with
    | error e => simp
    | ok g => cases parseAll ts <;> simp

theorem parseAll_plain (h : ∀ t ∈ ts, t.all Glob.isPlain = true) :
    parseAll ts = .ok (ts.map fun t => ⟨t.map .char⟩) := by
  induction ts with
  | nil => rfl
  | cons t ts ih =>
    obtain ⟨ht, hts⟩ := List.forall_mem_cons.1 h
    exact parseAll_cons_eq_ok.2 ⟨_, _, Glob.parse_plain (List.all_eq_true.1 ht), ih hts, rfl⟩

theorem parseAll_eq_error : parseAll ts = .error e ↔ FirstFault ts e := by
  induction ts with
  | nil => simp [parseAll, FirstFault]
  | cons t ts ih =>
    rw [parseAll, Glob.firstFault_cons, ← ih, Valid]
    cases Glob.parse t with
    | error e => simp
    | ok g => cases parseAll ts <;> simp

theorem any_accepts (h : parseAll ts = .ok gs) :
    gs.any (·.accepts n) = true ↔ ∃ t ∈ ts, Matches t n := by
  induction ts generalizing gs with
  | nil =>
    cases h
    simp
  | cons t ts ih =>
    obtain ⟨g, hs, hg, hhs, rfl⟩ := parseAll_cons_eq_ok.1 h
    rw [List.any_cons, Bool.or_eq_true, ih hhs, ← Glob.matches_iff hg]
    simp only [List.mem_cons, or_and_right, exists_or, exists_eq_left]

variable {es : List Text} {s : Selection}

theorem ofLists_eq_ok : ofLists es ts = .ok s ↔ ∃ gs, parseAll ts = .ok gs ∧ s = ⟨es, gs⟩ := by
  rw [ofLists]
  cases parseAll ts <;> simp [eq_comm]

theorem ofLists_eq_error : ofLists es ts = .error e ↔ FirstFault ts e := by
  rw [← parseAll_eq_error, ofLists]
  cases parseAll ts <;> simp

theorem excludes_ofLists (h : ofLists es ts = .ok s) :
    s.excludes n = true ↔ ∃ t ∈ ts, Matches t n := by
  obtain ⟨gs, hgs, rfl⟩ := ofLists_eq_ok.1 h
  exact any_accepts hgs

theorem exists_ofLists : (∃ s, ofLists es ts = .ok s) ↔ ∀ t ∈ ts, Valid t := by
  rw [← exists_parseAll, ofLists]
  cases parseAll ts <;> simp

theorem plain_defaultExcludes : ∀ t ∈ defaultExcludes, t.all Glob.isPlain = true := by
  decide

theorem valid_defaultExcludes : ∀ t ∈ defaultExcludes, Valid t :=
  fun t ht => Glob.valid_plain (plain_defaultExcludes t ht)

/-- The default patterns are what is read of the default texts. -/
theorem ofLists_default : ofLists defaultExtensions defaultExcludes = .ok default := by
  rw [ofLists, parseAll_plain plain_defaultExcludes]
  rfl

end Selection

namespace Settings

variable {s : Settings} {more : List Text} {r : Selection}

theorem selection_eq (s : Settings) (more : List Text) :
    s.selection more =
      (Selection.ofLists s.extensions (s.exclude ++ more)).mapError Failure.invalidPattern := by
  rw [selection]
  cases Selection.ofLists s.extensions (s.exclude ++ more) <;> rfl

theorem selection_eq_ok :
    s.selection more = .ok r ↔ Selection.ofLists s.extensions (s.exclude ++ more) = .ok r := by
  rw [selection]
  cases Selection.ofLists s.extensions (s.exclude ++ more) <;> simp

theorem exists_selection : (∃ r, s.selection more = .ok r) ↔ ∀ t ∈ s.exclude ++ more, Glob.Valid t := by
  simp only [selection_eq_ok, Selection.exists_ofLists]

end Settings
end IncludeOrder
