import IncludeOrder.Proofs.Assignment
import IncludeOrder.Proofs.Block

/-!
# IncludeOrder.Proofs.Elements

The two notations of a list, one text with commas and the same text in brackets, are told apart by the
first and the last character. An element that is `Bare` is what was written (`element_eq_self`), and so is
a list of them, in brackets (`parseList_bracketed`), and without them (`parseList_commas`) unless it looks
as if it were in brackets: then the brackets of its patterns are taken off, and what is read is never
the list (`parseList_ne_of_bracketed`).
-/

namespace IncludeOrder

theorem map_eq_self {α : Type} {f : α → α} {xs : List α} (h : ∀ x ∈ xs, f x = x) : xs.map f = xs := by
  have hid : xs.map f = xs.map id := List.map_congr_left h
  rw [hid, List.map_id]

/-! ## Characters taken off at the ends -/

namespace Text

variable {p : Char → Bool} {c : Char} {t u v : Text}

theorem dropWhile_eq_self (h : ∀ c ∈ t.head?, p c = false) : t.dropWhile p = t := by
  have hsplit : t = [] ++ t := rfl
  exact (takeWhile_dropWhile_iff.2 ⟨hsplit, List.forall_mem_nil _, h⟩).2

theorem stripped_eq_self (hhead : ∀ c ∈ t.head?, p c = false) (hlast : ∀ c ∈ t.getLast?, p c = false) :
    stripped p t = t := by
  rw [stripped, dropWhile_eq_self hhead, dropWhile_eq_self (by simpa using hlast), List.reverse_reverse]

/-- What can be taken off at the ends may stand there. -/
theorem stripped_append (hu : ∀ c ∈ u, p c = true) (hv : ∀ c ∈ v, p c = true) (t : Text) :
    stripped p (u ++ t ++ v) = stripped p t := by
  have hv' : ∀ c ∈ v.reverse, p c = true := fun c hc => hv c (List.mem_reverse.1 hc)
  have hall : v.dropWhile p = [] := List.dropWhile_eq_nil_iff.2 hv
  rw [stripped, stripped, List.append_assoc, List.dropWhile_append_of_pos hu, List.dropWhile_append]
  split
  · rename_i hnil
    rw [List.isEmpty_iff.1 hnil, hall]
  · rw [List.reverse_append, List.dropWhile_append_of_pos hv']

theorem ends_stripped (p : Char → Bool) (t : Text) :
    (∀ c ∈ (stripped p t).head?, p c = false) ∧ ∀ c ∈ (stripped p t).getLast?, p c = false := by
  constructor
  · intro c hc
    -- the first character is also the first one before characters were taken off at the end
    obtain ⟨r, hr⟩ := List.reverse_prefix.2 (List.dropWhile_suffix (l := (t.dropWhile p).reverse) p)
    rw [List.reverse_reverse] at hr
    refine (takeWhile_dropWhile p t).2.2 c ?_
    rw [stripped, Option.mem_def] at hc
    rw [← hr, List.head?_append, hc]
    rfl
  · intro c hc
    rw [stripped, List.getLast?_reverse] at hc
    exact (takeWhile_dropWhile p _).2.2 c hc

theorem count_dropWhile (h : p c = false) (t : Text) : (t.dropWhile p).count c = t.count c := by
  obtain ⟨hsplit, hall, _⟩ := takeWhile_dropWhile p t
  have hno : c ∉ t.takeWhile p := fun hc => by simp [hall c hc] at h
  have hcount := congrArg (List.count c) hsplit
  rw [List.count_append, List.count_eq_zero.2 hno, Nat.zero_add] at hcount
  exact hcount.symm

theorem count_stripped (h : p c = false) (t : Text) : (stripped p t).count c = t.count c := by
  rw [stripped, List.count_reverse, count_dropWhile h, List.count_reverse, count_dropWhile h]

end Text

namespace Settings

variable {s : Settings} {ts ps : List Text} {t v : Text}

/-! ## Elements between commas -/

/-- The elements of a list that is not in brackets. -/
def elements (t : Text) : List Text :=
  ((t.splitOn ',').map element).filter (· ≠ [])

theorem parseList_eq (v : Text) : parseList v = elements (withoutBrackets (Text.trimmed v)) := rfl

theorem elements_intercalate (hne : ts ≠ []) (h : ∀ t ∈ ts, ',' ∉ t) :
    elements ([','].intercalate ts) = (ts.map element).filter (· ≠ []) := by
  rw [elements, List.splitOn_intercalate ',' h hne]

theorem flatten_sublist_intercalate (ts : List Text) :
    (ts.map element).flatten.Sublist ([','].intercalate ts) := by
  induction ts with
  | nil => exact List.Sublist.refl []
  | cons t ts ih =>
    cases ts with
    | nil => simpa using element_sublist t
    | cons u us =>
      rw [List.map_cons, List.flatten_cons, List.intercalate_cons_cons, List.append_assoc]
      exact (element_sublist t).append (ih.trans (List.sublist_append_right _ _))

/-- All that is read stands in the text, in this order. -/
theorem flatten_elements_sublist (t : Text) : (elements t).flatten.Sublist t := by
  have hfilter : (elements t).flatten.Sublist ((t.splitOn ',').map element).flatten :=
    List.filter_sublist.flatten
  have hsplit := flatten_sublist_intercalate (t.splitOn ',')
  rw [List.intercalate_splitOn] at hsplit
  exact hfilter.trans hsplit

theorem count_intercalate {c : Char} (h : c ≠ ',') (ts : List Text) :
    ([','].intercalate ts).count c = ts.flatten.count c := by
  induction ts with
  | nil => rfl
  | cons t ts ih =>
    cases ts with
    | nil => simp
    | cons u us =>
      rw [List.intercalate_cons_cons, List.count_append, List.count_append, ih, List.flatten_cons,
        List.count_append]
      simp [Ne.symm h]

/-! ## Lists in brackets and without them -/

/-- What is taken off around an element. -/
def isMargin (c : Char) : Bool :=
  Text.isWhiteSpace c || c = '"' || c = '\''

/-- The text can be an element of a list as it is, without quotes. -/
structure Bare (t : Text) : Prop where
  ne_nil : t ≠ []
  no_comma : ',' ∉ t
  head : ∀ c ∈ t.head?, isMargin c = false
  last : ∀ c ∈ t.getLast?, isMargin c = false

theorem isMargin_eq_false_iff {c : Char} :
    isMargin c = false ↔ Text.isWhiteSpace c = false ∧ c ≠ '"' ∧ c ≠ '\'' := by
  simp [isMargin, and_assoc]

theorem bare_iff : Bare t ↔
    t ≠ [] ∧ ',' ∉ t ∧ t.head?.any isMargin = false ∧ t.getLast?.any isMargin = false := by
  constructor
  · intro h
    exact ⟨h.ne_nil, h.no_comma, (Option.any_eq_false _ _).2 h.head, (Option.any_eq_false _ _).2 h.last⟩
  · rintro ⟨hnil, hcomma, hhead, hlast⟩
    exact ⟨hnil, hcomma, (Option.any_eq_false _ _).1 hhead, (Option.any_eq_false _ _).1 hlast⟩

instance (t : Text) : Decidable (Bare t) :=
  decidable_of_iff _ bare_iff.symm

theorem Bare.element_eq_self (h : Bare t) : element t = t := by
  have hends : ∀ p : Char → Bool, (∀ c, isMargin c = false → p c = false) →
      Text.stripped p t = t := fun p hp =>
    Text.stripped_eq_self (fun c hc => hp c (h.head c hc)) fun c hc => hp c (h.last c hc)
  have hspace : Text.trimmed t = t := hends _ fun c hc => (isMargin_eq_false_iff.1 hc).1
  have hdouble : Text.stripped (· = '"') t = t :=
    hends _ fun c hc => decide_eq_false (isMargin_eq_false_iff.1 hc).2.1
  have hsingle : Text.stripped (· = '\'') t = t :=
    hends _ fun c hc => decide_eq_false (isMargin_eq_false_iff.1 hc).2.2
  rw [element, hspace, hdouble, hsingle]

/-- The text looks like a list in brackets. -/
def Bracketed (t : Text) : Prop :=
  t.head? = some '[' ∧ t.getLast? = some ']'

instance (t : Text) : Decidable (Bracketed t) :=
  inferInstanceAs (Decidable (_ ∧ _))

theorem withoutBrackets_bracketed (t : Text) : withoutBrackets ('[' :: t ++ [']']) = t := by
  simp [withoutBrackets]

theorem Bracketed.exists_inner (h : Bracketed t) : ∃ m, t = '[' :: m ++ [']'] := by
  obtain ⟨r, rfl⟩ := List.head?_eq_some_iff.1 h.1
  rcases List.eq_nil_or_concat r with rfl | ⟨m, d, rfl⟩
  · simp [Bracketed] at h
  · have hd : d = ']' := by
      have hlast := h.2
      rw [List.concat_eq_append, ← List.cons_append, List.getLast?_concat] at hlast
      exact Option.some.inj hlast
    exact ⟨m, by rw [hd, List.concat_eq_append, List.cons_append]⟩

theorem withoutBrackets_of_not_bracketed (h : ¬ Bracketed t) : withoutBrackets t = t := by
  rw [withoutBrackets.eq_def]
  split
  · rename_i r
    refine if_neg fun hlast => h ⟨rfl, ?_⟩
    rw [List.getLast?_cons, hlast]
    rfl
  · rfl

theorem trimmed_bracketed (t : Text) : Text.trimmed ('[' :: t ++ [']']) = '[' :: t ++ [']'] := by
  have hopen : Text.isWhiteSpace '[' = false := by decide
  have hclose : Text.isWhiteSpace ']' = false := by decide
  refine Text.stripped_eq_self (by simp [hopen]) fun c hc => ?_
  rw [List.getLast?_concat] at hc
  cases hc
  exact hclose

theorem head?_intercalate (hts : ∀ t ∈ ts, t ≠ []) :
    ∀ c ∈ ([','].intercalate ts).head?, ∃ t ∈ ts, c ∈ t.head? := by
  intro c hc
  cases ts with
  | nil => cases hc
  | cons t ts =>
    refine ⟨t, List.mem_cons_self, ?_⟩
    cases ts with
    | nil => simpa using hc
    | cons u us =>
      rwa [List.intercalate_cons_cons, List.append_assoc,
        List.head?_append_of_ne_nil _ (hts t List.mem_cons_self)] at hc

theorem getLast?_intercalate (hts : ∀ t ∈ ts, t ≠ []) :
    ∀ c ∈ ([','].intercalate ts).getLast?, ∃ t ∈ ts, c ∈ t.getLast? := by
  induction ts with
  | nil =>
    intro c hc
    cases hc
  | cons t ts ih =>
    intro c hc
    cases ts with
    | nil => exact ⟨t, List.mem_cons_self, by simpa using hc⟩
    | cons u us =>
      have hus := ih fun x hx => hts x (List.mem_cons_of_mem t hx)
      have hu : u ≠ [] := hts u (by simp)
      have hne : [','].intercalate (u :: us) ≠ [] := by
        cases us <;> simp [List.intercalate_cons_cons, hu]
      rw [List.intercalate_cons_cons, List.getLast?_append_of_ne_nil _ hne] at hc
      obtain ⟨x, hx, hcx⟩ := hus c hc
      exact ⟨x, List.mem_cons_of_mem t hx, hcx⟩

theorem parseList_of_brackets (t : Text) : parseList ('[' :: t ++ [']']) = elements t := by
  rw [parseList_eq, trimmed_bracketed, withoutBrackets_bracketed]

/-- Bare texts are what is read of them. -/
theorem elements_of_bare (hne : ps ≠ []) (hps : ∀ p ∈ ps, Bare p) :
    elements ([','].intercalate ps) = ps := by
  have hmap : ps.map element = ps := map_eq_self fun p hp => (hps p hp).element_eq_self
  rw [elements_intercalate hne fun p hp => (hps p hp).no_comma, hmap, List.filter_eq_self]
  exact fun p hp => decide_eq_true (hps p hp).ne_nil

theorem parseList_bracketed (hne : ps ≠ []) (hps : ∀ p ∈ ps, Bare p) :
    parseList ('[' :: [','].intercalate ps ++ [']']) = ps := by
  rw [parseList_of_brackets, elements_of_bare hne hps]

theorem trimmed_intercalate (hps : ∀ p ∈ ps, Bare p) :
    Text.trimmed ([','].intercalate ps) = [','].intercalate ps := by
  have hnil : ∀ p ∈ ps, p ≠ [] := fun p hp => (hps p hp).ne_nil
  refine Text.stripped_eq_self (fun c hc => ?_) fun c hc => ?_
  · obtain ⟨p, hp, hpc⟩ := head?_intercalate hnil c hc
    exact (isMargin_eq_false_iff.1 ((hps p hp).head c hpc)).1
  · obtain ⟨p, hp, hpc⟩ := getLast?_intercalate hnil c hc
    exact (isMargin_eq_false_iff.1 ((hps p hp).last c hpc)).1

theorem parseList_commas (hne : ps ≠ []) (hps : ∀ p ∈ ps, Bare p)
    (h : ¬ Bracketed ([','].intercalate ps)) : parseList ([','].intercalate ps) = ps := by
  rw [parseList_eq, trimmed_intercalate hps, withoutBrackets_of_not_bracketed h,
    elements_of_bare hne hps]

/-- A bracket that is taken off is missing in what is read. -/
theorem parseList_ne_of_bracketed (hps : ∀ p ∈ ps, Bare p) (h : Bracketed ([','].intercalate ps)) :
    parseList ([','].intercalate ps) ≠ ps := by
  intro hread
  obtain ⟨m, hm⟩ := h.exists_inner
  have helements : elements m = ps := by
    rw [← withoutBrackets_bracketed m, ← hm, ← trimmed_intercalate hps, ← parseList_eq, hread]
  have hle := (flatten_elements_sublist m).count_le '['
  have hcount := count_intercalate (c := '[') (by decide) ps
  rw [helements] at hle
  rw [hm] at hcount
  simp at hcount
  omega

theorem parseList_commas_iff (hne : ps ≠ []) (hps : ∀ p ∈ ps, Bare p) :
    parseList ([','].intercalate ps) = ps ↔ ¬ Bracketed ([','].intercalate ps) :=
  ⟨fun hread h => parseList_ne_of_bracketed hps h hread, parseList_commas hne hps⟩

/-! ## Patterns with commas between them -/

theorem set_exclude_eq_ok_iff {value : Text} (hps : ∀ p ∈ ps, Glob.Valid p) :
    s.set Key.exclude.name value = .ok { s with exclude := ps } ↔ parseList value = ps := by
  rw [set_exclude]
  constructor
  · intro h
    split at h
    · cases h
    · injection h with h
      exact congrArg Settings.exclude h
  · rintro rfl
    obtain ⟨gs, hgs⟩ := Selection.exists_parseAll.2 hps
    rw [hgs]
    rfl

/-- Valid patterns with commas between them are stored as they are written exactly if the first one does
not begin with a bracket or the last one does not end with one. With brackets around the whole they always
are. Then a name is excluded exactly if one of the patterns matches it. -/
theorem set_patterns (s : Settings) {ps : List Text} (hne : ps ≠ [])
    (hps : ∀ p ∈ ps, Bare p ∧ Glob.Valid p) :
    (s.set Key.exclude.name ([','].intercalate ps) = .ok { s with exclude := ps } ↔
      ¬ Bracketed ([','].intercalate ps)) ∧
    s.set Key.exclude.name ('[' :: [','].intercalate ps ++ [']']) = .ok { s with exclude := ps } ∧
    ∃ r, Settings.selection { s with exclude := ps } [] = .ok r ∧
      ∀ n, r.excludes n = true ↔ ∃ p ∈ ps, Glob.Matches p n := by
  have hbare : ∀ p ∈ ps, Bare p := fun p hp => (hps p hp).1
  have hvalid : ∀ p ∈ ps, Glob.Valid p := fun p hp => (hps p hp).2
  refine ⟨?_, ?_, ?_⟩
  · rw [set_exclude_eq_ok_iff hvalid, parseList_commas_iff hne hbare]
  · rw [set_exclude_eq_ok_iff hvalid, parseList_bracketed hne hbare]
  · obtain ⟨r, hr⟩ : ∃ r, Selection.ofLists s.extensions ps = .ok r :=
      Selection.exists_ofLists.2 hvalid
    refine ⟨r, selection_eq_ok.2 ?_, fun n => Selection.excludes_ofLists hr⟩
    rw [List.append_nil]
    exact hr

/-- A class at the end of the first pattern, and a class in neither place of the second one. -/
def plainList : List Text :=
  ["*.[ch]".toList, "third_party*".toList]

theorem set_patterns_plain :
    (∀ p ∈ plainList, Bare p ∧ Glob.Valid p) ∧
    ¬ Bracketed ([','].intercalate plainList) ∧
    default.set Key.exclude.name ([','].intercalate plainList) =
      .ok { default with exclude := plainList } := by
  have hbare : ∀ p ∈ plainList, Bare p := by decide +kernel
  have hvalid : ∀ p ∈ plainList, Glob.Valid p := Selection.exists_parseAll.1 ⟨_, by cbv⟩
  have hplain : ¬ Bracketed ([','].intercalate plainList) := by decide
  have hps := fun p hp => And.intro (hbare p hp) (hvalid p hp)
  obtain ⟨hset, _⟩ := set_patterns default (List.cons_ne_nil _ _) hps
  exact ⟨hps, hplain, hset.2 hplain⟩

/-- A class at the start of the first pattern and one at the end of the last pattern. -/
def classList : List Text :=
  ["[Bb]uild".toList, "tmp[0-9]".toList]

theorem set_patterns_classes :
    (∀ p ∈ classList, Bare p ∧ Glob.Valid p) ∧
    default.set Key.exclude.name ([','].intercalate classList) =
      .error (.invalidPattern ⟨3, .badClass⟩) := by
  have hbare : ∀ p ∈ classList, Bare p := by decide +kernel
  have hvalid : ∀ p ∈ classList, Glob.Valid p := Selection.exists_parseAll.1 ⟨_, by cbv⟩
  exact ⟨fun p hp => ⟨hbare p hp, hvalid p hp⟩, by cbv⟩

end Settings
end IncludeOrder
