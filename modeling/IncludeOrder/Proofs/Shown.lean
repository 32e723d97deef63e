import IncludeOrder.Proofs.Elements

/-!
# IncludeOrder.Proofs.Shown

A list as it is shown, given back as a value. Each element is shown between quotes, and what is read of it
is the element if it is `Showable` (`Showable.element_quoted`). Else it is not: a comma divides it, an
escape brings a backslash that was not there before (`unescaped_of_count`), and a single quote at an end
is taken off. So the list of a key is set to itself exactly if each of its elements is showable and what
the key asks for (`set_shown`).
-/

namespace IncludeOrder

variable {t : Text} {ts : List Text}

/-! ## Quotes and escapes -/

namespace Text

variable {c : Char} {n : Nat}

theorem exists_digitChar (h : c ∈ hex n) : ∃ d, c = Nat.digitChar d := by
  induction n using Nat.strongRecOn with
  | _ n ih =>
    by_cases hn : n < 16
    · rw [hex, Nat.toDigits_of_lt_base hn, List.mem_singleton] at h
      exact ⟨n, h⟩
    · have hsplit : hex (n / 16) ++ hex (n % 16) = hex n := by
        have happend := Nat.toDigits_append_toDigits (b := 16) (n := n / 16) (d := n % 16)
          (by decide) (by omega) (by omega)
        rwa [Nat.div_add_mod] at happend
      rw [← hsplit, List.mem_append] at h
      exact h.elim (ih _ (by omega)) (ih _ (by omega))

theorem comma_not_mem_quotedChar (h : c ≠ ',') : ',' ∉ quotedChar c := by
  have hhex : ',' ∉ hex c.toNat := by
    intro hmem
    obtain ⟨d, hd⟩ := exists_digitChar hmem
    exact Nat.digitChar_ne ',' rfl hd.symm
  unfold quotedChar
  split_ifs <;> simp [hhex, Ne.symm h]

theorem comma_not_mem_quoted (h : ',' ∉ t) : ',' ∉ quoted t := by
  have hbody : ',' ∉ t.flatMap quotedChar := by
    intro hmem
    obtain ⟨c, hc, hcomma⟩ := List.mem_flatMap.1 hmem
    exact comma_not_mem_quotedChar (ne_of_mem_of_not_mem hc h) hcomma
  simp [quoted, hbody]

/-- Each escape has a backslash more than the character. -/
theorem count_quotedChar (c : Char) :
    quotedChar c = [c] ∨ [c].count '\\' < (quotedChar c).count '\\' := by
  unfold quotedChar
  by_cases hc : c = '\\'
  · subst hc
    exact .inr (by decide)
  · have hzero : [c].count '\\' = 0 := by simp [hc]
    rw [hzero]
    split_ifs <;> simp

theorem flatMap_eq_self (h : ∀ c ∈ t, quotedChar c = [c]) : t.flatMap quotedChar = t := by
  induction t with
  | nil => rfl
  | cons c t ih =>
    obtain ⟨hc, ht⟩ := List.forall_mem_cons.1 h
    rw [List.flatMap_cons, hc, ih ht, List.singleton_append]

theorem count_flatMap_quotedChar (t : Text) :
    (∀ c ∈ t, quotedChar c = [c]) ∨ t.count '\\' < (t.flatMap quotedChar).count '\\' := by
  induction t with
  | nil => exact .inl (List.forall_mem_nil _)
  | cons c t ih =>
    have hcount : (c :: t).count '\\' = [c].count '\\' + t.count '\\' := by
      rw [← List.singleton_append, List.count_append]
    rw [List.flatMap_cons, List.count_append, hcount, List.forall_mem_cons]
    rcases count_quotedChar c with hc | hc
    · refine ih.imp (fun ht => ⟨hc, ht⟩) fun ht => ?_
      rw [hc]
      exact Nat.add_lt_add_left ht _
    · refine .inr ?_
      rcases ih with ht | ht
      · rw [flatMap_eq_self ht]
        exact Nat.add_lt_add_right hc _
      · exact Nat.add_lt_add hc ht

end Text

namespace Settings

open Text (quoted quotedChar)

variable {s s' : Settings} {k : Key} {value : Text}

/-! ## What is read of an element -/

/-- The text is shown as it is, and it is one element of which nothing is taken off. -/
structure Showable (t : Text) : Prop where
  ne_nil : t ≠ []
  no_comma : ',' ∉ t
  unescaped : ∀ c ∈ t, quotedChar c = [c]
  head : ∀ c ∈ t.head?, c ≠ '\''
  last : ∀ c ∈ t.getLast?, c ≠ '\''

theorem trimmed_quoted (t : Text) : Text.trimmed (quoted t) = quoted t := by
  have hquote : Text.isWhiteSpace '"' = false := by decide
  refine Text.stripped_eq_self (by simp [quoted, hquote]) fun c hc => ?_
  rw [quoted, List.getLast?_concat] at hc
  cases hc
  exact hquote

/-- Without escapes only the single quotes at the ends are lost. -/
theorem element_quoted (h : ∀ c ∈ t, quotedChar c = [c]) :
    element (quoted t) = Text.stripped (· = '\'') t := by
  have hno : ∀ c ∈ t, decide (c = '"') = false := by
    intro c hc
    refine decide_eq_false ?_
    rintro rfl
    exact absurd (h '"' hc) (by decide)
  have hquotes : Text.stripped (· = '"') (quoted t) = t := by
    rw [quoted, Text.flatMap_eq_self h]
    have hends := Text.stripped_append (u := ['"']) (v := ['"']) (p := (· = '"'))
      (by simp) (by simp) t
    rw [List.singleton_append] at hends
    rw [hends]
    exact Text.stripped_eq_self (fun c hc => hno c (List.mem_of_head? hc))
      fun c hc => hno c (List.mem_of_getLast? hc)
  rw [element, trimmed_quoted, hquotes]

theorem Showable.element_quoted (h : Showable t) : element (quoted t) = t := by
  rw [Settings.element_quoted h.unescaped]
  exact Text.stripped_eq_self (fun c hc => decide_eq_false (h.head c hc))
    fun c hc => decide_eq_false (h.last c hc)

/-- No backslash is taken off, so those of the escapes are read as well. -/
theorem unescaped_of_count (h : t.count '\\' = (element (quoted t)).count '\\') :
    ∀ c ∈ t, quotedChar c = [c] := by
  have hspace : Text.isWhiteSpace '\\' = false := by decide
  have hcount : (element (quoted t)).count '\\' = (t.flatMap quotedChar).count '\\' := by
    rw [element, Text.count_stripped (by decide), Text.count_stripped (by decide), Text.trimmed,
      Text.count_stripped hspace, quoted]
    simp
  refine (Text.count_flatMap_quotedChar t).resolve_right fun hlt => ?_
  omega

/-! ## What is read of a list -/

theorem element_space (t : Text) : element (' ' :: t) = element t := by
  have hspace : Text.isWhiteSpace ' ' = true := by decide
  have htrimmed : Text.trimmed (' ' :: t) = Text.trimmed t := by
    simpa [Text.trimmed] using
      Text.stripped_append (u := [' ']) (v := []) (List.forall_mem_singleton.2 hspace) (by simp) t
  rw [element, htrimmed, element]

theorem intercalate_spaced (t : Text) (ts : List Text) :
    [',', ' '].intercalate (t :: ts) = [','].intercalate (t :: ts.map (' ' :: ·)) := by
  induction ts generalizing t with
  | nil => simp
  | cons u us ih =>
    rw [List.intercalate_cons_cons, ih, List.map_cons, List.intercalate_cons_cons]
    cases us <;> simp [List.intercalate_cons_cons]

theorem elements_shown (h : ∀ t ∈ ts, ',' ∉ t) :
    elements ([',', ' '].intercalate (ts.map quoted)) =
      (ts.map fun t => element (quoted t)).filter (· ≠ []) := by
  cases ts with
  | nil => rfl
  | cons t ts =>
    have hcomma : ∀ u ∈ quoted t :: (ts.map quoted).map (' ' :: ·), ',' ∉ u := by
      intro u hu
      simp only [List.map_map, List.mem_cons, List.mem_map, Function.comp_apply] at hu
      rcases hu with rfl | ⟨x, hx, rfl⟩
      · exact Text.comma_not_mem_quoted (h t List.mem_cons_self)
      · simpa using Text.comma_not_mem_quoted (h x (List.mem_cons_of_mem t hx))
    rw [List.map_cons, intercalate_spaced, elements_intercalate (List.cons_ne_nil _ _) hcomma]
    simp only [List.map_cons, List.map_map, Function.comp_def, element_space]

theorem parseList_quotedList (h : ∀ t ∈ ts, ',' ∉ t) :
    parseList (Text.quotedList ts) = (ts.map fun t => element (quoted t)).filter (· ≠ []) := by
  rw [Text.quotedList, parseList_of_brackets, elements_shown h]

/-- What is taken off in front of an element. -/
def Key.cleaned : Key → Text → Text
  | .extensions => fun t => t.dropWhile (· = '.')
  | .exclude => id

theorem valueOf_eq (value : Text) (k : Key) : valueOf value k = (parseList value).map k.cleaned := by
  cases k with
  | extensions => rfl
  | exclude => exact (List.map_id _).symm

theorem Key.cleaned_sublist (k : Key) (t : Text) : (k.cleaned t).Sublist t := by
  cases k with
  | extensions => exact List.dropWhile_sublist _
  | exclude => exact List.Sublist.refl t

theorem Key.count_cleaned (k : Key) (t : Text) : (k.cleaned t).count '\\' = t.count '\\' := by
  cases k with
  | extensions => exact Text.count_dropWhile (by decide) t
  | exclude => rfl

/-- What a key asks of the elements of its list. -/
def Key.Admits : Key → Text → Prop
  | .extensions, t => t.head? ≠ some '.'
  | .exclude, t => Glob.Valid t

theorem Key.admits_iff : k.Admits t ↔ (k = .exclude → Glob.Valid t) ∧ k.cleaned t = t := by
  cases k with
  | extensions =>
    simp only [Admits, cleaned, reduceCtorEq, false_implies, true_and]
    constructor
    · intro h
      exact Text.dropWhile_eq_self fun c hc => decide_eq_false fun hdot => h (hdot ▸ hc)
    · intro h
      rw [← h]
      exact head?_dropWhile_ne t
  | exclude => simp [Admits, cleaned]

theorem set_name_eq_ok_iff : s.set k.name value = .ok s' ↔
    (k = .exclude → ∀ t ∈ valueOf value k, Glob.Valid t) ∧ s' = s.put (valueOf value k) k := by
  cases k with
  | extensions =>
    have hset : s.set Key.extensions.name value = .ok (s.put (valueOf value .extensions) .extensions) :=
      rfl
    simp [hset, eq_comm]
  | exclude =>
    rw [set_exclude, valueOf, ← Selection.exists_parseAll]
    cases Selection.parseAll (parseList value) <;> simp [eq_comm]

theorem put_eq_self_iff {ts : List Text} : s = s.put ts k ↔ ts = s.value k := by
  cases k <;> cases s <;> simp [put, value, eq_comm]

theorem get?_name (s : Settings) (k : Key) : s.get? k.name = some (Text.quotedList (s.value k)) := by
  cases k <;> rfl

/-- A list is kept by dropping and changing elements only if none is dropped or changed. -/
theorem forall_of_map_filter_map {α : Type} {f g : α → α} {p : α → Bool} {xs : List α}
    (h : ((xs.map f).filter p).map g = xs) : ∀ x ∈ xs, p (f x) = true ∧ g (f x) = x := by
  have hlength : ((xs.map f).filter p).length = (xs.map f).length := by
    rw [List.length_map, ← List.length_map g, h]
  have hall := List.length_filter_eq_length_iff.1 hlength
  rw [List.filter_eq_self.2 hall, List.map_map] at h
  intro x hx
  refine ⟨hall _ (List.mem_map_of_mem hx), ?_⟩
  have hid : xs.map (g ∘ f) = xs.map id := by rw [h, List.map_id]
  exact List.map_inj_left.1 hid x hx

/-- The shown list of a key is read back, whatever is in it, exactly if its elements are showable and
nothing is taken off in front of them. -/
theorem valueOf_quotedList_iff :
    valueOf (Text.quotedList ts) k = ts ↔ ∀ t ∈ ts, Showable t ∧ k.cleaned t = t := by
  constructor
  · intro h t ht
    have hcomma : ∀ t ∈ ts, ',' ∉ t := fun t ht => comma_not_mem_valueOf k (by rwa [h])
    rw [valueOf_eq, parseList_quotedList hcomma] at h
    obtain ⟨hne, hread⟩ := forall_of_map_filter_map h t ht
    have hcount := k.count_cleaned (element (quoted t))
    rw [hread] at hcount
    have hunescaped : ∀ c ∈ t, quotedChar c = [c] := unescaped_of_count hcount
    have hsub : t.Sublist (element (quoted t)) := by
      conv_lhs => rw [← hread]
      exact k.cleaned_sublist _
    have helement := element_quoted hunescaped
    rw [helement] at hne hread hsub
    -- nothing is taken off, because something would be missing then
    have hself : Text.stripped (· = '\'') t = t := (Text.stripped_sublist _ t).antisymm hsub
    obtain ⟨hhead, hlast⟩ := Text.ends_stripped (· = '\'') t
    rw [hself] at hne hread hhead hlast
    exact ⟨⟨of_decide_eq_true hne, hcomma t ht, hunescaped, fun c hc => of_decide_eq_false (hhead c hc),
      fun c hc => of_decide_eq_false (hlast c hc)⟩, hread⟩
  · intro h
    have hmap : (ts.map fun t => element (quoted t)) = ts :=
      map_eq_self fun t ht => (h t ht).1.element_quoted
    have hfilter : ts.filter (· ≠ []) = ts :=
      List.filter_eq_self.2 fun t ht => decide_eq_true (h t ht).1.ne_nil
    rw [valueOf_eq, parseList_quotedList fun t ht => (h t ht).1.no_comma, hmap, hfilter]
    exact map_eq_self fun t ht => (h t ht).2

/-- The list of a key, set to what is shown of it, stays as it is exactly if each of its elements is
showable, and an extension has no dot in front and a pattern is one. So brackets and spaces in elements
do no harm, wherever they stand, and neither do single quotes inside of them. -/
theorem set_shown (s : Settings) (k : Key) :
    ∃ shown, s.get? k.name = some shown ∧
      (s.set k.name shown = .ok s ↔ ∀ t ∈ s.value k, Showable t ∧ k.Admits t) := by
  refine ⟨_, get?_name s k, ?_⟩
  rw [set_name_eq_ok_iff, put_eq_self_iff]
  simp only [Key.admits_iff]
  constructor
  · rintro ⟨hvalid, hread⟩ t ht
    rw [hread] at hvalid
    obtain ⟨hshow, hcleaned⟩ := valueOf_quotedList_iff.1 hread t ht
    exact ⟨hshow, fun hk => hvalid hk t ht, hcleaned⟩
  · intro h
    have hread := valueOf_quotedList_iff.2 fun t ht => ⟨(h t ht).1, (h t ht).2.2⟩
    rw [hread]
    exact ⟨fun hk t ht => (h t ht).2.1 hk, rfl⟩

end Settings
end IncludeOrder
