import IncludeOrder.Proofs.Patterns
import IncludeOrder.Proofs.Splice
import Mathlib

/-!
# IncludeOrder.Proofs.Assignment

Setting a key is all or nothing, and the settings stay usable. `Settings.set` fails for a reason
(`Refused`), or replaces the list of one key (`set_cases`). `Settings.assign` is the same in place, where
the patterns are checked one after the other and a failure could come when something is stored already;
it never does (`assign_run`).

`Usable` is what each assignment keeps (`Usable.left_assign`), whatever the key and the value, and so any
number of them (`Usable.assignAll`). Usable settings select (`Usable.exists_selection`).
-/

namespace IncludeOrder

variable {t v : Text}

theorem Text.stripped_sublist (p : Char → Bool) (t : Text) : (stripped p t).Sublist t := by
  have hfront : ((t.dropWhile p).reverse.dropWhile p).reverse.Sublist (t.dropWhile p) := by
    simpa using (List.dropWhile_sublist (l := (t.dropWhile p).reverse) p).reverse
  exact hfront.trans (List.dropWhile_sublist p)

namespace Settings

variable {s s' : Settings} {k : Key} {name value : Text} {f : Failure}

/-! ## Values -/

/-- The bytes between the brackets, taken by their places, if the text is in brackets. -/
def inner? (t : Text) : Option Bytes :=
  if t.head? = some '[' ∧ t.getLast? = some ']' then
    slice? (Utf8.encode t) 1 ((Utf8.encode t).length - 1)
  else some (Utf8.encode t)

/-- There is always something at these places, and it is the text without its brackets: each of them
is one byte, and they are not the same one. -/
theorem inner?_eq (t : Text) : inner? t = some (Utf8.encode (withoutBrackets t)) := by
  match t with
  | [] => rfl
  | c :: r =>
    by_cases hc : c = '['
    · subst hc
      rcases List.eq_nil_or_concat r with rfl | ⟨m, d, rfl⟩
      · rfl
      · rw [List.concat_eq_append, ← List.cons_append]
        by_cases hd : d = ']'
        · subst hd
          have hbytes : Utf8.encode ('[' :: m ++ [']']) = 0x5B :: (Utf8.encode m ++ [0x5D]) := by
            rw [List.cons_append, ← List.singleton_append, Utf8.encode_append, Utf8.encode_append]
            rfl
          rw [inner?, hbytes, if_pos ⟨rfl, List.getLast?_concat⟩]
          simp [slice?, withoutBrackets]
        · have hlast : ('[' :: m ++ [d]).getLast? ≠ some ']' := by
            rw [List.getLast?_concat]
            simpa using hd
          rw [inner?, if_neg (fun h => hlast h.2)]
          simp [withoutBrackets, hd]
    · have hsame : withoutBrackets (c :: r) = c :: r := by
        rw [withoutBrackets]
        simpa using hc
      simp [inner?, hsame, hc]

theorem element_sublist (t : Text) : (element t).Sublist t :=
  (Text.stripped_sublist _ _).trans ((Text.stripped_sublist _ _).trans (Text.stripped_sublist _ t))

/-- Elements of a list are separated by commas, so none has one. -/
theorem mem_parseList (h : t ∈ parseList v) : t ≠ [] ∧ ',' ∉ t := by
  obtain ⟨helement, hne⟩ := List.mem_filter.1 h
  obtain ⟨u, hu, rfl⟩ := List.mem_map.1 helement
  refine ⟨of_decide_eq_true hne, fun hcomma => not_mem_of_mem_splitOn hu ?_⟩
  exact (element_sublist u).subset hcomma

/-- The list that a value stands for. -/
def valueOf (value : Text) : Key → List Text
  | .extensions => (parseList value).map (·.dropWhile (· = '.'))
  | .exclude => parseList value

theorem comma_not_mem_valueOf (k : Key) (h : t ∈ valueOf value k) : ',' ∉ t := by
  cases k with
  | extensions =>
    obtain ⟨u, hu, rfl⟩ := List.mem_map.1 h
    exact fun hcomma => (mem_parseList hu).2 ((List.dropWhile_sublist _).subset hcomma)
  | exclude => exact (mem_parseList h).2

/-! ## Setting a key -/

/-- With another list for a key. -/
def put (s : Settings) (ts : List Text) : Key → Settings
  | .extensions => { s with extensions := ts }
  | .exclude => { s with exclude := ts }

@[simp] theorem value_put_self (s : Settings) (ts : List Text) (k : Key) : (s.put ts k).value k = ts := by
  cases k <;> rfl

theorem value_put_ne (s : Settings) (ts : List Text) {k k' : Key} (h : k' ≠ k) :
    (s.put ts k).value k' = s.value k' := by
  cases k <;> cases k' <;> first | rfl | exact absurd rfl h

theorem Key.ofName?_eq_none : Key.ofName? name = none ↔ name ∉ Key.all.map Key.name := by
  simp [Key.ofName?]

/-- Why a key cannot be set: it is none, or the first text of its list that is no pattern. -/
inductive Refused (name value : Text) : Failure → Prop
  | unknown (h : name ∉ Key.all.map Key.name) : Refused name value (.unknownKey name)
  | invalid {e : Glob.Error} (hname : Key.exclude.name = name)
    (h : Glob.FirstFault (parseList value) e) : Refused name value (.invalidPattern e)

theorem set_exclude (s : Settings) (value : Text) :
    s.set Key.exclude.name value =
      match Selection.parseAll (parseList value) with
      | .error e => .error (.invalidPattern e)
      | .ok _ => .ok (s.put (valueOf value .exclude) .exclude) := rfl

theorem set_unknown (h : name ∉ Key.all.map Key.name) :
    s.set name value = .error (.unknownKey name) := by
  rw [set, Key.ofName?_eq_none.2 h]

/-- A name is that of a key, or of none. -/
theorem Key.name_cases (name : Text) :
    Key.extensions.name = name ∨ Key.exclude.name = name ∨ name ∉ Key.all.map Key.name := by
  by_cases h : name ∈ Key.all.map Key.name
  · obtain ⟨k, _, hk⟩ := List.mem_map.1 h
    cases k with
    | extensions => exact .inl hk
    | exclude => exact .inr (.inl hk)
  · exact .inr (.inr h)

/-- A key cannot be set, or has the list of the value then, which is one of patterns if it has to be. -/
theorem set_cases (s : Settings) (name value : Text) :
    (∃ f, Refused name value f ∧ s.set name value = .error f) ∨
    ∃ k : Key, k.name = name ∧ (k = .exclude → ∀ t ∈ valueOf value k, Glob.Valid t) ∧
      s.set name value = .ok (s.put (valueOf value k) k) := by
  rcases Key.name_cases name with rfl | rfl | hname
  · exact .inr ⟨.extensions, rfl, nofun, rfl⟩
  · cases hp : Selection.parseAll (parseList value) with
    | error e =>
      have hfault := Selection.parseAll_eq_error.1 hp
      exact .inl ⟨_, .invalid rfl hfault, by rw [set_exclude, hp]⟩
    | ok gs =>
      have hvalid := Selection.exists_parseAll.1 ⟨gs, hp⟩
      exact .inr ⟨.exclude, rfl, fun _ => hvalid, by rw [set_exclude, hp]⟩
  · exact .inl ⟨_, .unknown hname, set_unknown hname⟩

theorem set_eq_error : s.set name value = .error f ↔ Refused name value f := by
  constructor
  · intro h
    rcases set_cases s name value with ⟨f', hf', hset⟩ | ⟨k, _, _, hset⟩
    · rw [hset] at h
      cases h
      exact hf'
    · rw [hset] at h
      cases h
  · intro h
    cases h with
    | unknown hname => exact set_unknown hname
    | invalid hname hfault =>
      subst hname
      rw [set_exclude, Selection.parseAll_eq_error.2 hfault]

theorem eq_put_of_set (h : s.set name value = .ok s') :
    ∃ k : Key, k.name = name ∧ (k = .exclude → ∀ t ∈ valueOf value k, Glob.Valid t) ∧
      s' = s.put (valueOf value k) k := by
  rcases set_cases s name value with ⟨f', _, hset⟩ | ⟨k, hk, hvalid, hset⟩
  · rw [hset] at h
    cases h
  · rw [hset] at h
    cases h
    exact ⟨k, hk, hvalid, rfl⟩

/-! ## In place -/

/-- A change of settings in place: one that fails leaves what it has stored until then. -/
abbrev InPlace := EStateM Failure Settings

/-- Looks at each text of the list, up to the first one that is no pattern. -/
def checkAll : List Text → InPlace Unit
  | [] => pure ()
  | t :: ts =>
    match Glob.parse t with
    | .error e => throw (.invalidPattern e)
    | .ok _ => checkAll ts

def assign (name value : Text) : InPlace Unit :=
  match Key.ofName? name with
  | none => throw (.unknownKey name)
  | some .extensions => modify fun s => { s with extensions := valueOf value .extensions }
  | some .exclude => do
    checkAll (parseList value)
    modify fun s => { s with exclude := parseList value }

theorem checkAll_run (ts : List Text) (s : Settings) :
    (checkAll ts).run s =
      match Selection.parseAll ts with
      | .error e => .error (.invalidPattern e) s
      | .ok _ => .ok () s := by
  induction ts with
  | nil => rfl
  | cons t ts ih =>
    rw [checkAll, Selection.parseAll]
    cases Glob.parse t with
    | error e => rfl
    | ok g =>
      rw [ih]
      cases Selection.parseAll ts <;> rfl

/-- A change that fails has stored nothing. -/
theorem assign_run (name value : Text) (s : Settings) :
    (assign name value).run s =
      match s.set name value with
      | .error f => .error f s
      | .ok s' => .ok () s' := by
  rw [assign, set]
  match Key.ofName? name with
  | none => rfl
  | some .extensions => rfl
  | some .exclude =>
    simp only [EStateM.run_bind, checkAll_run]
    cases Selection.parseAll (parseList value) <;> rfl

/-! ## Usable settings -/

/-- The patterns are patterns and not empty, the extensions have no dot in front, and each list can be
given as one text with commas. -/
structure Usable (s : Settings) : Prop where
  patterns : ∀ t ∈ s.exclude, t ≠ [] ∧ Glob.Valid t
  undotted : ∀ t ∈ s.extensions, t.head? ≠ some '.'
  separable : ∀ k, ∀ t ∈ s.value k, ',' ∉ t

theorem usable_default : default.Usable where
  patterns t ht := by
    have hne : ∀ t ∈ Selection.defaultExcludes, t ≠ [] := by decide
    exact ⟨hne t ht, Selection.valid_defaultExcludes t ht⟩
  undotted := by decide
  separable
    | .extensions => by decide
    | .exclude => by decide

theorem head?_dropWhile_ne (t : Text) : (t.dropWhile (· = '.')).head? ≠ some '.' := by
  intro h
  simpa [h] using List.head?_dropWhile_not (· = '.') t

namespace Usable

theorem put (h : s.Usable) (hvalid : k = .exclude → ∀ t ∈ valueOf value k, Glob.Valid t) :
    (s.put (valueOf value k) k).Usable := by
  have hseparable : ∀ k', ∀ t ∈ (s.put (valueOf value k) k).value k', ',' ∉ t := by
    intro k' t ht
    by_cases hk : k' = k
    · subst hk
      rw [value_put_self] at ht
      exact comma_not_mem_valueOf k' ht
    · rw [value_put_ne s _ hk] at ht
      exact h.separable k' t ht
  cases k with
  | extensions =>
    refine ⟨h.patterns, fun t ht => ?_, hseparable⟩
    obtain ⟨u, _, rfl⟩ := List.mem_map.1 ht
    exact head?_dropWhile_ne u
  | exclude => exact ⟨fun t ht => ⟨(mem_parseList ht).1, hvalid rfl t ht⟩, h.undotted, hseparable⟩

theorem set (h : s.Usable) (hset : s.set name value = .ok s') : s'.Usable := by
  obtain ⟨k, _, hvalid, rfl⟩ := eq_put_of_set hset
  exact h.put hvalid

theorem exists_selection (h : s.Usable) : ∃ r, s.selection [] = .ok r :=
  Settings.exists_selection.2 fun t ht => (h.patterns t (by simpa using ht)).2

end Usable

/-- What a change leaves, whether it fails or not. -/
def left (m : InPlace Unit) (s : Settings) : Settings :=
  match m.run s with
  | .ok _ s' => s'
  | .error _ s' => s'

/-- Keys set to values one after the other, on and on when one cannot be set. -/
def assignAll (calls : List (Text × Text)) (s : Settings) : Settings :=
  calls.foldl (fun s c => left (assign c.1 c.2) s) s

theorem Usable.left_assign (h : s.Usable) (name value : Text) : (left (assign name value) s).Usable := by
  rw [left, assign_run]
  cases hset : s.set name value with
  | error f => exact h
  | ok s' => exact h.set hset

theorem Usable.assignAll (h : s.Usable) (calls : List (Text × Text)) :
    (assignAll calls s).Usable := by
  induction calls generalizing s with
  | nil => exact h
  | cons c calls ih => exact ih (h.left_assign c.1 c.2)

/-- Setting a key fails exactly for a key that is none or for a text that is no pattern, and then
nothing has changed; else only the list of the key has changed. No run of such changes from the
default settings, whichever of them fail, leads to settings that are not usable. -/
theorem set_atomic (s : Settings) (name value : Text) (calls : List (Text × Text)) :
    inner? (Text.trimmed value) = some (Utf8.encode (withoutBrackets (Text.trimmed value))) ∧
    (∀ f, s.set name value = .error f ↔ Refused name value f) ∧
    (∀ f, Refused name value f → (assign name value).run s = .error f s) ∧
    (∀ s', s.set name value = .ok s' → (assign name value).run s = .ok () s' ∧
      ∃ k : Key, k.name = name ∧ s'.value k = valueOf value k ∧
        ∀ k', k' ≠ k → s'.value k' = s.value k') ∧
    (assignAll calls default).Usable ∧ ∃ r, (assignAll calls default).selection [] = .ok r := by
  have husable : (assignAll calls default).Usable := usable_default.assignAll calls
  refine ⟨inner?_eq _, fun f => set_eq_error, fun f hf => ?_, fun s' hs' => ⟨?_, ?_⟩, husable,
    husable.exists_selection⟩
  · rw [assign_run, set_eq_error.2 hf]
  · rw [assign_run, hs']
  · obtain ⟨k, hk, _, rfl⟩ := eq_put_of_set hs'
    exact ⟨k, hk, value_put_self s _ k, fun k' hk' => value_put_ne s _ hk'⟩

/-- Brackets, both kinds of quotes and empty elements; a text behind one that is a pattern; dots; and a
name that is none. -/
def awkwardCalls : List (Text × Text) :=
  [(Key.exclude.name, " ['x y', \"b*\", ,] ".toList), (Key.exclude.name, "ok, a**, [".toList),
   (Key.extensions.name, "..cc,'h'".toList), ("files".toList, "x".toList)]

theorem set_atomic_awkward :
    (assign Key.exclude.name "ok, a**, [".toList).run default =
      .error (.invalidPattern ⟨0, .partOfComponent⟩) default ∧
    (assign Key.extensions.name "..cc,'h'".toList).run default =
      .ok () ⟨["cc".toList, "h".toList], Selection.defaultExcludes⟩ ∧
    assignAll awkwardCalls default = ⟨["cc".toList, "h".toList], ["x y".toList, "b*".toList]⟩ ∧
    (assignAll awkwardCalls default).Usable := by
  obtain ⟨_, _, hfails, _⟩ :=
    set_atomic default Key.exclude.name "ok, a**, [".toList []
  obtain ⟨_, _, _, hsets, husable, _⟩ :=
    set_atomic default Key.extensions.name "..cc,'h'".toList awkwardCalls
  have hvalid : ∀ t ∈ [['o', 'k']], Glob.Valid t :=
    List.forall_mem_singleton.2 (Glob.valid_plain rfl)
  have hfault : Glob.FirstFault (parseList "ok, a**, [".toList) ⟨0, .partOfComponent⟩ :=
    ⟨[['o', 'k']], ['a', '*', '*'], [['[']], by cbv, hvalid, by cbv⟩
  exact ⟨hfails _ (.invalid rfl hfault), (hsets _ rfl).1, by cbv, husable⟩

end Settings
end IncludeOrder
