import IncludeOrder.Category
import IncludeOrder.Proofs.Grammar
import IncludeOrder.Proofs.Lines
import Mathlib

/-!
# IncludeOrder.Proofs.Classification

The categories without the order of the tests. `Belongs` says for each category which header tokens
belong to it; no token belongs to two of them, and each belongs to one. The category of a line is the one
that its header token belongs to (`ofLine_eq_iff`), so what an earlier test leaves to a later one
is known: a token between quotes is never left to the last category, and what is left to it is a
token between angle brackets that holds no slash and is neither a word nor a word with `.h`.
-/

namespace IncludeOrder

open Directive (inAngles inQuotes headerToken? Token)

/-- Letters, digits and underscores, at least one of them. -/
structure IsWord (w : Text) : Prop where
  ne_nil : w ≠ []
  chars : ∀ c ∈ w,
    ('a' ≤ c ∧ c ≤ 'z') ∨ ('A' ≤ c ∧ c ≤ 'Z') ∨ ('0' ≤ c ∧ c ≤ '9') ∨ c = '_'

variable {file : Path} {h t u w : Text} {c : Category} {l : Line}

/-! ## The shapes -/

namespace Shape

theorem isWordChar_iff {c : Char} : isWordChar c = true ↔
    ('a' ≤ c ∧ c ≤ 'z') ∨ ('A' ≤ c ∧ c ≤ 'Z') ∨ ('0' ≤ c ∧ c ≤ '9') ∨ c = '_' := by
  simp only [isWordChar, Char.isAlphanum, Char.isAlpha, Char.isUpper, Char.isLower, Char.isDigit,
    Bool.or_eq_true, Bool.and_eq_true, decide_eq_true_eq]
  rw [or_assoc, or_assoc, or_left_comm]
  rfl

theorem isWordThen_iff {rest : Text} (hrest : ∀ c ∈ rest.head?, isWordChar c = false) :
    isWordThen rest t = true ↔ ∃ w, IsWord w ∧ t = w ++ rest := by
  constructor
  · intro ht
    obtain ⟨hsplit, hword, _⟩ := takeWhile_dropWhile isWordChar t
    simp only [isWordThen] at ht
    split at ht
    · cases ht
    · rename_i c w hw
      rw [hw, of_decide_eq_true ht] at hsplit
      rw [hw] at hword
      exact ⟨c :: w, ⟨List.cons_ne_nil c w, fun d hd => isWordChar_iff.1 (hword d hd)⟩, hsplit⟩
  · rintro ⟨w, hw, rfl⟩
    obtain ⟨htake, hdrop⟩ :=
      takeWhile_dropWhile_iff.2 ⟨rfl, fun c hc => isWordChar_iff.2 (hw.chars c hc), hrest⟩
    obtain ⟨c, r, hcr⟩ := List.exists_cons_of_ne_nil hw.ne_nil
    simp only [isWordThen, htake, hdrop]
    rw [hcr]
    exact decide_eq_true trivial

theorem endsInQuote_iff : endsInQuote t = true ↔ ∃ w, '\n' ∉ w ∧ t = w ++ ['"'] := by
  fun_induction endsInQuote t with
  | case1 => simp
  | case2 c =>
    rw [decide_eq_true_eq]
    constructor
    · rintro rfl
      exact ⟨[], List.not_mem_nil, rfl⟩
    · rintro ⟨w, _, hw⟩
      cases w with
      | nil => simpa using hw
      | cons d w => simp at hw
  | case3 c d r ih =>
    rw [Bool.and_eq_true, ih, decide_eq_true_eq]
    constructor
    · rintro ⟨hc, w, hw, hr⟩
      exact ⟨c :: w, by simp [hw, Ne.symm hc], by rw [hr, List.cons_append]⟩
    · rintro ⟨w, hw, hr⟩
      cases w with
      | nil => simp at hr
      | cons b w =>
        rw [List.cons_append, List.cons.injEq] at hr
        obtain ⟨rfl, hr⟩ := hr
        rw [List.mem_cons, not_or] at hw
        exact ⟨Ne.symm hw.1, w, hw.2, hr⟩

theorem holds_angleWord : angleWord.holds h = true ↔ ∃ w, IsWord w ∧ h = inAngles w := by
  cases h with
  | nil => simp [holds, inAngles]
  | cons c r =>
    have hr : isWordThen ['>'] r = true ↔ _ := isWordThen_iff (by rintro c ⟨⟩; rfl)
    simp only [holds, Bool.and_eq_true, decide_eq_true_eq, hr, inAngles, List.cons_append,
      List.cons.injEq, exists_and_left, and_left_comm]

theorem holds_angleWordDotH :
    angleWordDotH.holds h = true ↔ ∃ w, IsWord w ∧ h = inAngles (w ++ ['.', 'h']) := by
  cases h with
  | nil => simp [holds, inAngles]
  | cons c r =>
    have hr : isWordThen ['.', 'h', '>'] r = true ↔ _ :=
      isWordThen_iff (by rintro c ⟨⟩; rfl)
    simp only [holds, Bool.and_eq_true, decide_eq_true_eq, hr, inAngles, List.cons_append,
      List.append_assoc, List.nil_append, List.cons.injEq, exists_and_left, and_left_comm]

theorem holds_anglePath :
    anglePath.holds h = true ↔ ∃ u v, '\n' ∉ u ∧ h = '<' :: u ++ '/' :: v := by
  cases h with
  | nil => simp [holds]
  | cons c r =>
    simp only [holds, Bool.and_eq_true, decide_eq_true_eq, List.contains_iff_mem]
    constructor
    · rintro ⟨rfl, hslash⟩
      obtain ⟨hsplit, hno, _⟩ := takeWhile_dropWhile (· ≠ '\n') r
      obtain ⟨u, v, hu⟩ := List.append_of_mem hslash
      rw [hu] at hsplit hno
      refine ⟨u, v ++ r.dropWhile (· ≠ '\n'), fun hn => ?_, ?_⟩
      · simpa using hno '\n' (List.mem_append_left _ hn)
      · rw [List.append_assoc] at hsplit
        exact congrArg ('<' :: ·) hsplit
    · rintro ⟨u, v, hu, hr⟩
      rw [List.cons_append, List.cons.injEq] at hr
      obtain ⟨rfl, rfl⟩ := hr
      have hpos : ∀ d ∈ u, decide (d ≠ '\n') = true :=
        fun d hd => decide_eq_true (ne_of_mem_of_not_mem hd hu)
      rw [List.takeWhile_append_of_pos hpos]
      exact ⟨rfl, by simp⟩

theorem holds_quotes : quotes.holds h = true ↔ ∃ w, '\n' ∉ w ∧ h = inQuotes w := by
  cases h with
  | nil => simp [holds, inQuotes]
  | cons c r =>
    simp only [holds, Bool.and_eq_true, decide_eq_true_eq, endsInQuote_iff, inQuotes,
      List.cons_append, List.cons.injEq, exists_and_left, and_left_comm]

/-! ## Tokens between angle brackets -/

theorem inAngles_inj {v : Text} : inAngles w = inAngles v ↔ w = v := by
  simp [inAngles]

theorem angleWord_inAngles : angleWord.holds (inAngles w) = true ↔ IsWord w := by
  simp only [holds_angleWord, inAngles_inj, exists_eq_right']

theorem angleWordDotH_inAngles :
    angleWordDotH.holds (inAngles w) = true ↔ ∃ v, IsWord v ∧ w = v ++ ['.', 'h'] := by
  simp only [holds_angleWordDotH, inAngles_inj]

theorem anglePath_inAngles (hn : '\n' ∉ w) :
    anglePath.holds (inAngles w) = true ↔ '/' ∈ w := by
  rw [holds_anglePath]
  constructor
  · rintro ⟨u, v, _, huv⟩
    have hmem : '/' ∈ inAngles w := by simp [huv]
    simpa [inAngles] using hmem
  · intro hslash
    obtain ⟨u, v, rfl⟩ := List.append_of_mem hslash
    exact ⟨u, v ++ ['>'], fun hu => hn (List.mem_append_left _ hu), by simp [inAngles]⟩

end Shape

theorem IsWord.not_mem (hw : IsWord w) {d : Char} (hd : Shape.isWordChar d = false) : d ∉ w := by
  intro hmem
  rw [Shape.isWordChar_iff.2 (hw.chars d hmem)] at hd
  cases hd

theorem sameIgnoringCase_inAngles (file : Path) (w : Text) :
    Text.sameIgnoringCase (inAngles w) (selfHeader file) = false := by
  simp [Text.sameIgnoringCase, inAngles, selfHeader]

/-! ## The categories -/

namespace Category

/-- What belongs to each category: lines without a header token, and header tokens. -/
inductive Belongs (file : Path) : Option Text → Category → Prop where
  | unread : Belongs file none other
  | selfHeader {h : Text} (hsame : Text.sameIgnoringCase h (IncludeOrder.selfHeader file) = true) :
      Belongs file (some h) selfHeader
  | quoted {w : Text}
      (hdiff : Text.sameIgnoringCase (inQuotes w) (IncludeOrder.selfHeader file) = false) :
      Belongs file (some (inQuotes w)) quoted
  | system {w : Text} (hw : IsWord w) : Belongs file (some (inAngles w)) system
  | systemHeader {w : Text} (hw : IsWord w) :
      Belongs file (some (inAngles (w ++ ['.', 'h']))) systemHeader
  | nested {w : Text} (hslash : '/' ∈ w) : Belongs file (some (inAngles w)) nested
  | other {w : Text} (hword : ¬ IsWord w) (hdot : ∀ v, IsWord v → w ≠ v ++ ['.', 'h'])
      (hslash : '/' ∉ w) : Belongs file (some (inAngles w)) other

/-- The first category whose rule is met. -/
theorem ofHeader_eq_of_first (before behind : List Category) (hall : all = before ++ c :: behind)
    (hc : c.rule.holds file h = true) (hbefore : ∀ d ∈ before, d.rule.holds file h = false) :
    ofHeader file h = c := by
  have hfind : all.find? (fun d => d.rule.holds file h) = some c :=
    List.find?_eq_some_iff_append.2 ⟨hc, before, behind, hall, by simpa using hbefore⟩
  rw [ofHeader, hfind]
  rfl

theorem Belongs.ofHeader_eq (hb : Belongs file (some h) c) (hn : '\n' ∉ h) :
    ofHeader file h = c := by
  cases hb with
  | selfHeader hsame => exact ofHeader_eq_of_first [] _ rfl hsame nofun
  | @quoted w hdiff =>
    have hw : '\n' ∉ w := fun hmem => hn (by simp [inQuotes, hmem])
    have hquotes : Shape.quotes.holds (inQuotes w) = true := Shape.holds_quotes.2 ⟨w, hw, rfl⟩
    refine ofHeader_eq_of_first [.selfHeader, .system, .systemHeader, .nested] _ rfl hquotes ?_
    simp only [List.forall_mem_cons]
    exact ⟨hdiff, rfl, rfl, rfl, nofun⟩
  | @system w hw =>
    refine ofHeader_eq_of_first [.selfHeader] _ rfl (Shape.angleWord_inAngles.2 hw) ?_
    simp only [List.forall_mem_cons]
    exact ⟨sameIgnoringCase_inAngles file w, nofun⟩
  | @systemHeader w hw =>
    have hword : ¬ IsWord (w ++ ['.', 'h']) :=
      fun h => h.not_mem (by decide : Shape.isWordChar '.' = false) (by simp)
    refine ofHeader_eq_of_first [.selfHeader, .system] _ rfl
      (Shape.angleWordDotH_inAngles.2 ⟨w, hw, rfl⟩) ?_
    simp only [List.forall_mem_cons]
    exact ⟨sameIgnoringCase_inAngles file _,
      Bool.eq_false_iff.2 fun h => hword (Shape.angleWord_inAngles.1 h), nofun⟩
  | @nested w hslash =>
    have hw : '\n' ∉ w := fun hmem => hn (by simp [inAngles, hmem])
    have hplain : ∀ v, IsWord v → '/' ∉ v := fun v hv => hv.not_mem (by decide)
    refine ofHeader_eq_of_first [.selfHeader, .system, .systemHeader] _ rfl
      ((Shape.anglePath_inAngles hw).2 hslash) ?_
    simp only [List.forall_mem_cons]
    refine ⟨sameIgnoringCase_inAngles file w, Bool.eq_false_iff.2 fun h => ?_,
      Bool.eq_false_iff.2 fun h => ?_, nofun⟩
    · exact hplain w (Shape.angleWord_inAngles.1 h) hslash
    · obtain ⟨v, hv, rfl⟩ := Shape.angleWordDotH_inAngles.1 h
      simp [hplain v hv] at hslash
  | @other w hword hdot hslash =>
    have hw : '\n' ∉ w := fun hmem => hn (by simp [inAngles, hmem])
    refine ofHeader_eq_of_first [.selfHeader, .system, .systemHeader, .nested, .quoted] _ rfl rfl ?_
    simp only [List.forall_mem_cons]
    refine ⟨sameIgnoringCase_inAngles file w, Bool.eq_false_iff.2 fun h => ?_,
      Bool.eq_false_iff.2 fun h => ?_, Bool.eq_false_iff.2 fun h => ?_, rfl, nofun⟩
    · exact hword (Shape.angleWord_inAngles.1 h)
    · obtain ⟨v, hv, heq⟩ := Shape.angleWordDotH_inAngles.1 h
      exact hdot v hv heq
    · exact hslash ((Shape.anglePath_inAngles hw).1 h)

theorem exists_belongs (file : Path) (ht : Token h) : ∃ c, Belongs file (some h) c := by
  cases ht with
  | @angles w _ _ =>
    by_cases hword : IsWord w
    · exact ⟨_, .system hword⟩
    · by_cases hdot : ∃ v, IsWord v ∧ w = v ++ ['.', 'h']
      · obtain ⟨v, hv, rfl⟩ := hdot
        exact ⟨_, .systemHeader hv⟩
      · by_cases hslash : '/' ∈ w
        · exact ⟨_, .nested hslash⟩
        · exact ⟨_, .other hword (fun v hv heq => hdot ⟨v, hv, heq⟩) hslash⟩
  | @quotes w _ _ =>
    cases hsame : Text.sameIgnoringCase (inQuotes w) (IncludeOrder.selfHeader file) with
    | true => exact ⟨_, .selfHeader hsame⟩
    | false => exact ⟨_, .quoted hsame⟩

/-! ## Lines -/

theorem token_of_headerToken? (hl : headerToken? l = some h) : Token h ∧ ∀ d ∈ h, d ∈ l := by
  obtain ⟨i, hstarts, _⟩ := Directive.headerToken?_eq_some_iff.1 hl
  generalize hr : l.drop i = r at hstarts
  cases hstarts with
  | intro rest _ _ htoken =>
    refine ⟨htoken, fun d hd => List.mem_of_mem_drop (i := i) ?_⟩
    simp [hr, hd]

/-- A line without line feed is of the category to which its header token belongs. -/
theorem ofLine_eq_iff (hn : '\n' ∉ l) : ofLine file l = c ↔ Belongs file (headerToken? l) c := by
  cases hl : headerToken? l with
  | none =>
    simp only [ofLine, hl]
    constructor
    · rintro rfl
      exact .unread
    · rintro ⟨⟩
      rfl
  | some h =>
    obtain ⟨htoken, hsub⟩ := token_of_headerToken? hl
    have hh : '\n' ∉ h := fun hmem => hn (hsub _ hmem)
    simp only [ofLine, hl]
    constructor
    · rintro rfl
      obtain ⟨d, hd⟩ := exists_belongs file htoken
      rw [hd.ofHeader_eq hh]
      exact hd
    · intro hb
      exact hb.ofHeader_eq hh

/-- What is left to the last category. -/
theorem belongs_other_iff {o : Option Text} : Belongs file o other ↔ o = none ∨
    ∃ w, o = some (inAngles w) ∧ '/' ∉ w ∧ ¬ IsWord w ∧
      ∀ v, IsWord v → w ≠ v ++ ['.', 'h'] := by
  constructor
  · rintro (_ | _ | _ | _ | _ | _ | ⟨hword, hdot, hslash⟩)
    · exact .inl rfl
    · exact .inr ⟨_, rfl, hslash, hword, hdot⟩
  · rintro (rfl | ⟨w, rfl, hslash, hword, hdot⟩)
    · exact .unread
    · exact .other hword hdot hslash

/-- The categories divide the lines without line feed. Only a token between quotes can be the self
header, such a token is never left to the last category, and an include line of a text is
left to it exactly if its token is a text between angle brackets without a slash that is neither a word
nor a word with `.h` behind it. -/
theorem ofLine_partition (file : Path) :
    (∀ l c, '\n' ∉ l → (ofLine file l = c ↔ Belongs file (headerToken? l) c)) ∧
    (∀ w, Text.sameIgnoringCase (inAngles w) (IncludeOrder.selfHeader file) = false) ∧
    (∀ l w, '\n' ∉ l → headerToken? l = some (inQuotes w) → ofLine file l ≠ other) ∧
    ∀ t b l, Block.locate (Text.lines t) = some b → l ∈ b.includes →
      (ofLine file l = other ↔ ∃ w, headerToken? l = some (inAngles w) ∧ '/' ∉ w ∧ ¬ IsWord w ∧
        ∀ v, IsWord v → w ≠ v ++ ['.', 'h']) := by
  refine ⟨fun l c => ofLine_eq_iff, sameIgnoringCase_inAngles file, ?_, ?_⟩
  · intro l w hn hl hother
    have hb := (ofLine_eq_iff hn).1 hother
    rw [hl, belongs_other_iff] at hb
    rcases hb with hnone | ⟨v, hv, _⟩
    · cases hnone
    · cases hv
  · intro t b l hb hl
    obtain ⟨hmem, hinclude⟩ := Block.mem_includes hb hl
    obtain ⟨h, hh, _⟩ := Directive.exists_headerToken? hinclude
    rw [ofLine_eq_iff (Text.not_mem_of_mem_lines hmem), belongs_other_iff]
    simp [hh]

/-- A file whose name would be a pattern of another one, were it read as a pattern. -/
def plusFile : Path :=
  Path.ofText "x/a+b.cpp".toList

theorem ofLine_partition_plus :
    ('\n' ∉ "#include \"A+B.H\"".toList ∧
      ofLine plusFile "#include \"A+B.H\"".toList = selfHeader) ∧
    ('\n' ∉ "#include \"aab.h\"".toList ∧
      headerToken? "#include \"aab.h\"".toList = some (inQuotes "aab.h".toList) ∧
      ofLine plusFile "#include \"aab.h\"".toList ≠ other) ∧
    ∃ b, Block.locate (Text.lines "#include <s.hpp>".toList) = some b ∧
      "#include <s.hpp>".toList ∈ b.includes ∧
      ofLine plusFile "#include <s.hpp>".toList = other := by
  obtain ⟨hbelongs, _, hquoted, hother⟩ := ofLine_partition plusFile
  have hself : '\n' ∉ "#include \"A+B.H\"".toList := by decide
  have haab : '\n' ∉ "#include \"aab.h\"".toList := by decide
  have htoken : headerToken? "#include \"aab.h\"".toList = some (inQuotes "aab.h".toList) := by
    decide
  have hb : Block.locate (Text.lines "#include <s.hpp>".toList) =
      some ⟨0, 0, ["#include <s.hpp>".toList]⟩ := by decide
  refine ⟨⟨hself, (hbelongs _ _ hself).2 (.selfHeader (by decide))⟩,
    ⟨haab, htoken, hquoted _ _ haab htoken⟩, _, hb, List.mem_singleton.2 rfl, ?_⟩
  refine (hother _ _ _ hb (List.mem_singleton.2 rfl)).2
    ⟨"s.hpp".toList, by decide, by decide, fun h => ?_, fun v _ heq => ?_⟩
  · exact h.not_mem (by decide : Shape.isWordChar '.' = false) (by decide)
  · have hlast := congrArg List.getLast? heq
    simp at hlast

end Category
end IncludeOrder
