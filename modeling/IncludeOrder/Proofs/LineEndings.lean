import IncludeOrder.Proofs.Classification
import IncludeOrder.Proofs.Splice
import IncludeOrder.Proofs.Stability

/-!
# IncludeOrder.Proofs.LineEndings

Include lines that end in a carriage return. Without it they have the same header token and the same
category, and the blank ones are blank; with it their keys have one character more (`lowercase_returned`).
So only two lines of one category can change places, and only if the key of one goes on behind that of the
other with a character that comes before a carriage return, such as a tab (`Overtakes`, `keyLe_returned`,
`keyLe_of_overtakes`). Two orders sort lines alike exactly if they compare all of them alike
(`mergeSort_eq_iff`), hence lines are arranged alike with both line endings exactly if none of them
overtakes another one of its category (`arranged_returned_iff`).
-/

namespace IncludeOrder

/-! ## Sorting by two orders -/

section

variable {α : Type} {xs : List α}

/-- Two orders with the same ties sort a list alike exactly if they compare its elements alike. -/
theorem mergeSort_eq_iff {le le' : α → α → Bool}
    (trans : ∀ a b c, le a b = true → le b c = true → le a c = true)
    (total : ∀ a b, (le a b || le b a) = true)
    (trans' : ∀ a b c, le' a b = true → le' b c = true → le' a c = true)
    (total' : ∀ a b, (le' a b || le' b a) = true)
    (hties : ∀ a b, tied le a b = tied le' a b) :
    xs.mergeSort le = xs.mergeSort le' ↔ ∀ a ∈ xs, ∀ b ∈ xs, le a b = le' a b := by
  constructor
  · intro h a ha b hb
    have hle := List.pairwise_mergeSort trans total xs
    have hle' := List.pairwise_mergeSort trans' total' xs
    rw [← h] at hle'
    -- of two elements the first comes first in both orders, and the rest is whether they are tied
    have hboth := hle.and hle'
    refine List.Pairwise.forall_of_forall_of_flip (l := xs.mergeSort le)
      (R := fun a b => le a b = le' a b) (fun c _ => ?_) (hboth.imp fun h => by rw [h.1, h.2])
      (hboth.imp fun {c d} h => ?_) (List.mem_mergeSort.2 ha) (List.mem_mergeSort.2 hb)
    · have hself := total c c
      have hself' := total' c c
      rw [Bool.or_self] at hself hself'
      rw [hself, hself']
    · have hcd := hties c d
      rw [tied, tied, h.1, h.2, Bool.true_and, Bool.true_and] at hcd
      exact hcd
  · intro h
    simpa using List.map_mergeSort (f := id) h

end

variable {l : Line} {file : Path} {ls : List Line}

/-- The line with a carriage return at its end. -/
def Text.returned (l : Line) : Line :=
  l ++ ['\r']

open Text (returned withoutReturn isBlank filled)

/-! ## What a line is -/

namespace Text

@[simp] theorem withoutReturn_returned (l : Line) : withoutReturn (returned l) = l := by
  rw [returned]
  induction l with
  | nil => rfl
  | cons c l ih =>
    cases l with
    | nil => rfl
    | cons d l =>
      rw [List.cons_append] at ih ⊢
      rw [List.cons_append, withoutReturn, ih]

theorem isBlank_returned (l : Line) : isBlank (returned l) = isBlank l := by
  have hreturn : isWhiteSpace '\r' = true := by decide
  simp [returned, isBlank, hreturn]

theorem filled_map_returned (ls : List Line) : filled (ls.map returned) = (filled ls).map returned := by
  rw [filled, List.filter_map, filled]
  congr 1
  refine List.filter_congr fun l _ => ?_
  rw [Function.comp_apply, isBlank_returned]

end Text

namespace Directive

theorem Token.getLast?_append_ne {h : Text} (ht : Token h) (before : Text) :
    (before ++ h).getLast? ≠ some '\r' := by
  cases ht with
  | angles => simp [inAngles, List.getLast?_cons]
  | quotes => simp [inQuotes, List.getLast?_cons]

theorem starts_returned {h : Text} : Starts h (returned l) ↔ Starts h l := by
  constructor
  · generalize hl : returned l = k
    rintro ⟨rest, hne, hgap, htoken⟩
    -- the carriage return is not the last character of the token, so it is in the rest
    rcases List.eq_nil_or_concat rest with rfl | ⟨rest, d, rfl⟩
    · have hlast := congrArg List.getLast? hl
      rw [returned, List.getLast?_concat, List.append_nil] at hlast
      exact absurd hlast.symm (htoken.getLast?_append_ne _)
    · rw [returned, List.concat_eq_append, ← List.append_assoc] at hl
      obtain ⟨rfl, _⟩ := List.append_inj' hl rfl
      exact .intro rest hne hgap htoken
  · rintro ⟨rest, hne, hgap, htoken⟩
    rw [returned, List.append_assoc]
    exact .intro (rest ++ ['\r']) hne hgap htoken

theorem directive?_returned (l : Line) : directive? (returned l) = directive? l := by
  refine Option.ext fun h => ?_
  rw [directive?_eq_some_iff, directive?_eq_some_iff, starts_returned]

theorem headerToken?_returned (l : Line) : headerToken? (returned l) = headerToken? l := by
  rw [returned]
  induction l with
  | nil => rfl
  | cons c l ih =>
    have hdirective := directive?_returned (c :: l)
    rw [returned] at hdirective
    rw [List.cons_append] at hdirective ⊢
    rw [headerToken?, headerToken?, hdirective, ih]

end Directive

theorem Category.ofLine_returned (file : Path) (l : Line) :
    Category.ofLine file (returned l) = Category.ofLine file l := by
  rw [Category.ofLine, Directive.headerToken?_returned, Category.ofLine]

/-! ## Keys -/

namespace Text

/-- A carriage return is not cased, so in front of it there is no more ahead than at the end. -/
theorem casedAhead_returned (t : Text) : casedAhead (returned t) = casedAhead t := by
  have hcased : casedAhead ['\r'] = false := by decide +kernel
  rw [casedAhead] at hcased
  rw [casedAhead, casedAhead, returned, List.dropWhile_append]
  cases t.dropWhile isCaseIgnorable with
  | nil =>
    rw [List.isEmpty_nil, if_pos rfl]
    exact hcased
  | cons c r => rfl

theorem lowercaseAfter_returned (before t : Text) :
    lowercaseAfter before (returned t) = returned (lowercaseAfter before t) := by
  induction t generalizing before with
  | nil => rfl
  | cons c t ih =>
    have hsigma : lowerSigma before (returned t) = lowerSigma before t := by
      rw [lowerSigma, casedAhead_returned, lowerSigma]
    rw [returned] at *
    rw [List.cons_append, lowercaseAfter, lowercaseAfter, hsigma, ih]
    split <;> simp [returned]

theorem lowercase_returned (l : Line) : lowercase (returned l) = returned (lowercase l) :=
  lowercaseAfter_returned [] l

end Text

namespace Utf8

/-- A text whose bytes go on behind those of another one goes on behind it as a text. -/
theorem encode_eq_append {s t : Text} {b : Bytes} (h : encode t = encode s ++ b) :
    ∃ r, t = s ++ r ∧ b = encode r := by
  have hunits := congrArg (units none) h
  rw [units_encode, units_encode_append] at hunits
  obtain ⟨s', r, rfl, hs, _⟩ := List.map_eq_append_iff.1 hunits
  obtain rfl : s' = s := List.map_injective_iff.2 (Option.some_injective _) hs
  rw [encode_append, List.append_cancel_left_eq] at h
  exact ⟨r, rfl, h.symm⟩

/-- The first byte of a character is below a carriage return exactly if the character is. -/
theorem exists_encodeChar (c : Char) :
    ∃ b r, String.utf8EncodeChar c = b :: r ∧ (b < 0x0D ↔ c < '\r') := by
  have hreturn : (0x0D : UInt8).toNat = 13 := rfl
  have hlt : c < '\r' ↔ c.val.toNat < 13 := UInt32.lt_iff_toNat_lt
  rw [hlt]
  rcases encodeChar_cases c with ⟨hascii, hbytes⟩ | ⟨hhigh, hbytes⟩
  · refine ⟨_, [], hbytes, ?_⟩
    rw [UInt8.lt_iff_toNat_lt, toNat_ofNat (by omega), hreturn]
  · cases hencode : String.utf8EncodeChar c with
    | nil =>
      have hlength := String.length_utf8EncodeChar c
      rw [hencode, List.length_nil] at hlength
      exact absurd hlength.symm c.utf8Size_pos.ne'
    | cons b r =>
      have hb := hbytes b (by rw [hencode]; exact List.mem_cons_self)
      refine ⟨b, r, rfl, ?_⟩
      rw [UInt8.lt_iff_toNat_lt]
      omega

/-! ### The order of bytes -/

/-- Behind both texts, `x` does not change their order unless one of them goes on where the other ends,
with less than `x`. -/
theorem append_singleton_le_iff {x : UInt8} {k m : Bytes} (hk : ∀ b r, k = m ++ b :: r → ¬ b < x)
    (hm : ∀ b r, m = k ++ b :: r → ¬ b < x) : k ++ [x] ≤ m ++ [x] ↔ k ≤ m := by
  induction k generalizing m with
  | nil =>
    cases m with
    | nil => simp
    | cons b m =>
      have hb : x < b ∨ x = b := by
        have hle := UInt8.not_lt.1 (hm b m rfl)
        exact Decidable.or_iff_not_imp_right.2 (UInt8.lt_of_le_of_ne hle)
      simp [List.cons_le_cons_iff, hb]
  | cons a k ih =>
    cases m with
    | nil => simp [List.cons_le_cons_iff, hk a k rfl]
    | cons b m =>
      rw [List.cons_append, List.cons_append, List.cons_le_cons_iff, List.cons_le_cons_iff]
      refine or_congr_right (and_congr_right fun hab => ih (fun c r h => ?_) fun c r h => ?_)
      · exact hk c r (by rw [hab, h, List.cons_append])
      · exact hm c r (by rw [hab, h, List.cons_append])

/-- Behind both texts, `x` puts the one that goes on with less than `x` first. -/
theorem append_singleton_not_le {b x : UInt8} (h : b < x) (k r : Bytes) :
    ¬ k ++ [x] ≤ k ++ b :: r ++ [x] := by
  induction k with
  | nil =>
    have hlt : ¬ x < b := UInt8.lt_asymm h
    have hne : x ≠ b := (UInt8.ne_of_lt h).symm
    simp [List.cons_le_cons_iff, hlt, hne]
  | cons a k ih => simpa [List.cons_le_cons_iff] using ih

end Utf8

namespace Arrangement

open Text (lowercase)

variable {k m : Line}

/-! ## Lines that change places -/

/-- The key of the line `m` is that of `k` and goes on with a character that comes before a carriage return.
So the key of `m` is the later one of both, until a carriage return stands behind them. -/
def Overtakes (m k : Line) : Prop :=
  ∃ c r, lowercase m = lowercase k ++ c :: r ∧ c < '\r'

theorem sortKey_returned (l : Line) : sortKey (returned l) = sortKey l ++ [0x0D] := by
  rw [sortKey, Text.lowercase_returned, returned, Utf8.encode_append]
  rfl

theorem overtakes_iff : Overtakes m k ↔ ∃ b r, sortKey m = sortKey k ++ b :: r ∧ b < 0x0D := by
  constructor
  · rintro ⟨c, r, hm, hc⟩
    obtain ⟨b, s, hencode, hb⟩ := Utf8.exists_encodeChar c
    refine ⟨b, s ++ Utf8.encode r, ?_, hb.2 hc⟩
    rw [sortKey, hm, Utf8.encode_append, Utf8.encode, Utf8.encode, List.flatMap_cons, hencode,
      ← Utf8.encode, ← Utf8.encode, List.cons_append, sortKey]
  · rintro ⟨b, s, hm, hb⟩
    obtain ⟨r, hr, hs⟩ := Utf8.encode_eq_append hm
    cases r with
    | nil => cases hs
    | cons c r =>
      obtain ⟨b', s', hencode, hb'⟩ := Utf8.exists_encodeChar c
      rw [Utf8.encode, List.flatMap_cons, hencode, List.cons_append, List.cons.injEq] at hs
      rw [hs.1] at hb
      exact ⟨c, r, hr, hb'.1 hb⟩

theorem keyLe_returned (hk : ¬ Overtakes k m) (hm : ¬ Overtakes m k) :
    keyLe (returned k) (returned m) = keyLe k m := by
  rw [keyLe, keyLe, sortKey_returned, sortKey_returned, decide_eq_decide]
  refine Utf8.append_singleton_le_iff (fun b r h hb => ?_) fun b r h hb => ?_
  · exact hk (overtakes_iff.2 ⟨b, r, h, hb⟩)
  · exact hm (overtakes_iff.2 ⟨b, r, h, hb⟩)

theorem keyLe_of_overtakes (h : Overtakes m k) :
    keyLe k m = true ∧ keyLe (returned k) (returned m) = false := by
  obtain ⟨b, r, hm, hb⟩ := overtakes_iff.1 h
  rw [keyLe, keyLe, sortKey_returned, sortKey_returned, hm, decide_eq_true_eq, decide_eq_false_iff_not]
  exact ⟨List.le_append_left, Utf8.append_singleton_not_le hb _ _⟩

theorem lineLe_of_category_eq (hc : Category.ofLine file k = Category.ofLine file m) :
    lineLe file k m = keyLe k m := by
  simp [lineLe, hc]

theorem lineLe_returned (h : Category.ofLine file k = Category.ofLine file m →
    ¬ Overtakes k m ∧ ¬ Overtakes m k) :
    lineLe file (returned k) (returned m) = lineLe file k m := by
  rw [lineLe, Category.ofLine_returned, Category.ofLine_returned, lineLe]
  by_cases hc : Category.ofLine file k = Category.ofLine file m
  · rw [keyLe_returned (h hc).1 (h hc).2]
  · have hpriority : (Category.ofLine file k).priority ≠ (Category.ofLine file m).priority :=
      fun heq => hc (priority_inj heq)
    simp [hpriority]

theorem tied_returned (file : Path) (k m : Line) :
    tied (fun a b => lineLe file (returned a) (returned b)) k m = tied (lineLe file) k m := by
  have hreturned : tied (lineLe file) (returned k) (returned m) = tied (lineLe file) k m := by
    rw [Bool.eq_iff_iff, tied_lineLe_iff, tied_lineLe_iff, Category.ofLine_returned,
      Category.ofLine_returned, Text.lowercase_returned, Text.lowercase_returned, returned, returned,
      List.append_left_inj]
  exact hreturned

/-- Lines of two categories never change places, nor do lines of which none overtakes the other. -/
theorem mergeSort_returned_iff {xs : List Line} :
    xs.mergeSort (fun a b => lineLe file (returned a) (returned b)) = xs.mergeSort (lineLe file) ↔
      ∀ k ∈ xs, ∀ m ∈ xs, Category.ofLine file k = Category.ofLine file m → ¬ Overtakes m k := by
  refine (mergeSort_eq_iff (fun a b c => lineLe_trans (returned a) (returned b) (returned c))
    (fun a b => lineLe_total (returned a) (returned b)) lineLe_trans lineLe_total
    (tied_returned file)).trans ?_
  constructor
  · intro h k hk m hm hc hovertakes
    have hreturned : Category.ofLine file (returned k) = Category.ofLine file (returned m) := by
      rw [Category.ofLine_returned, Category.ofLine_returned, hc]
    have hlines := h k hk m hm
    obtain ⟨hkey, hkey'⟩ := keyLe_of_overtakes hovertakes
    rw [lineLe_of_category_eq hreturned, lineLe_of_category_eq hc, hkey, hkey'] at hlines
    cases hlines
  · intro h k hk m hm
    exact lineLe_returned fun hc => ⟨h m hm k hk hc.symm, h k hk m hm hc⟩

/-! ## The arrangement -/

theorem framed_map_returned (file : Path) (ls : List Line) :
    (framed file (ls.map returned)).map withoutReturn = framed file ls := by
  induction ls with
  | nil => rfl
  | cons l ls ih =>
    cases ls with
    | nil => simp [framed, withoutReturn]
    | cons m ls =>
      rw [List.map_cons, List.map_cons, framed, framed, Category.ofLine_returned,
        Category.ofLine_returned, ← List.map_cons]
      split
      · rw [List.map_cons, Text.withoutReturn_returned, ih]
      · rw [List.map_cons, List.map_cons, Text.withoutReturn_returned, ih, withoutReturn]

theorem filled_framed (h : ∀ l ∈ ls, isBlank l = false) : filled (framed file ls) = ls := by
  have hnil : isBlank [] = true := rfl
  induction ls with
  | nil => rfl
  | cons l ls ih =>
    rw [List.forall_mem_cons] at h
    cases ls with
    | nil => simp [framed, filled, h.1, hnil]
    | cons m ls =>
      have hrest := ih h.2
      rw [filled] at hrest
      rw [framed, filled]
      split <;> simp [h.1, hnil, hrest]

/-- What is arranged with carriage returns, which are dropped afterwards. -/
theorem arranged_returned (file : Path) (ls : List Line) :
    (arranged file (ls.map returned)).map withoutReturn =
      framed file ((filled ls).mergeSort fun a b => lineLe file (returned a) (returned b)) := by
  have hsort : ordered file (ls.map returned) =
      ((filled ls).mergeSort fun a b => lineLe file (returned a) (returned b)).map returned := by
    rw [ordered_eq_mergeSort, Text.filled_map_returned]
    exact (List.map_mergeSort (f := returned) fun a _ b _ => rfl).symm
  rw [arranged_eq_framed, hsort, framed_map_returned]

/-- Include lines come in the same order with both line endings exactly if none of them overtakes another
one of its category. Blank lines are dropped, so they do not count. -/
theorem arranged_returned_iff (file : Path) (ls : List Line) :
    (arranged file (ls.map returned)).map withoutReturn = arranged file ls ↔
      ∀ k ∈ filled ls, ∀ m ∈ filled ls, Category.ofLine file k = Category.ofLine file m →
        ¬ Overtakes m k := by
  have hblank : ∀ le : Line → Line → Bool, ∀ l ∈ (filled ls).mergeSort le, isBlank l = false :=
    fun le l hl => (Text.mem_filled.1 (List.mem_mergeSort.1 hl)).2
  rw [arranged_returned, arranged_eq_framed, ordered_eq_mergeSort, ← mergeSort_returned_iff]
  constructor
  · intro h
    have hfilled := congrArg filled h
    rw [filled_framed (hblank _), filled_framed (hblank _)] at hfilled
    exact hfilled
  · intro h
    rw [h]

/-- Two lines of which the second one overtakes the first, with a tab behind the header token. -/
def tabbed : List Line :=
  ["#include <a>".toList, "#include <a>\t".toList]

theorem arranged_returned_tabbed :
    (∀ l ∈ tabbed, '\r' ∉ l ∧ '\n' ∉ l) ∧
      (arranged ⟨[]⟩ (tabbed.map returned)).map withoutReturn ≠ arranged ⟨[]⟩ tabbed := by
  have hbare : ∀ l ∈ tabbed, '\r' ∉ l ∧ '\n' ∉ l := by decide
  have hreturned : (arranged ⟨[]⟩ (tabbed.map returned)).map withoutReturn = tabbed.reverse ++ [[]] := by
    cbv
  have hplain : arranged ⟨[]⟩ tabbed = tabbed ++ [[]] := by cbv
  rw [hreturned, hplain]
  exact ⟨hbare, by decide⟩

end Arrangement
end IncludeOrder
