import IncludeOrder.Toml.Strings
import IncludeOrder.Toml.Writer

/-!
# IncludeOrder.Proofs.Toml.Strings

A string that was written is read back: `readString_writeString`, for every string and every text
behind it that does not go on with a quote. There is one lemma for each of the four forms.

* `Escaping` — how one character stands between double quotes; both readers of such strings take it
  whole (`readBasic_escaping`, `readBasicLines_escaping`).
* `closing?_body` — of the quotes at the end of a string of several lines, the last three close it, if
  no three quotes stand together before.
-/

namespace IncludeOrder
namespace Toml

variable {c q : Char} {t r w : Text} {k : Nat}

/-- The text does not go on with a quote. -/
def NoQuote (r : Text) : Prop :=
  ∀ c ∈ r.head?, c ≠ '"' ∧ c ≠ '\''

/-! ## Single characters -/

theorem ne_newline_of_isPlain (h : isPlain c = true) : c ≠ '\n' := by
  rintro rfl
  exact absurd h (by decide)

theorem ne_return_of_isPlain (h : isPlain c = true) : c ≠ '\r' := by
  rintro rfl
  exact absurd h (by decide)

theorem isPlain_of_not_code (h : isCode c = false) (hn : c ≠ '\n') : isPlain c = true := by
  simp only [isCode, isPlain] at h ⊢
  by_cases ht : c = '\t'
  · simp [ht]
  · simp [ht, hn] at h ⊢
    omega

theorem charOf?_fourDigits : ∀ n < 0x80, (fourDigits n).length = 4 ∧
    charOf? (fourDigits n) = some (Char.ofNat n) := by
  decide

/-- How a character stands between double quotes. -/
inductive Escaping (c : Char) : Text → Prop
  | itself (hp : isPlain c = true) (hq : c ≠ '"') (hb : c ≠ '\\') : Escaping c [c]
  | short (e : Char) (he : shortEscape? e = some c) : Escaping c ['\\', e]
  | code (d₁ d₂ d₃ d₄ : Char) (h : charOf? [d₁, d₂, d₃, d₄] = some c) :
      Escaping c ['\\', 'u', d₁, d₂, d₃, d₄]

theorem escaping_code (h : isCode c = true) : Escaping c (['\\', 'u'] ++ fourDigits c.toNat) := by
  have hlt : c.toNat < 0x80 := by
    simp only [isCode, Bool.or_eq_true, Bool.and_eq_true, decide_eq_true_eq] at h
    omega
  obtain ⟨hlen, hchar⟩ := charOf?_fourDigits c.toNat hlt
  match hd : fourDigits c.toNat, hlen with
  | [d₁, d₂, d₃, d₄], _ =>
    rw [hd, Char.ofNat_toNat] at hchar
    exact .code d₁ d₂ d₃ d₄ hchar

theorem escaping_escaped (hq : c ≠ '"') (hn : c ≠ '\n') : Escaping c (escaped c) := by
  simp only [escaped]
  split
  · rename_i h
    exact .short 'b' (by rw [h]; rfl)
  · split
    · rename_i h
      exact .short 't' (by rw [h]; rfl)
    · split
      · rename_i h
        exact .short 'f' (by rw [h]; rfl)
      · split
        · rename_i h
          exact .short 'r' (by rw [h]; rfl)
        · split
          · rename_i h
            exact .short '\\' (by rw [h]; rfl)
          · rename_i hb
            split
            · rename_i h
              exact escaping_code h
            · rename_i h
              exact .itself (isPlain_of_not_code (by simpa using h) hn) hq hb

theorem Escaping.head (h : Escaping c w) : ∃ x v, w = x :: v ∧ x ≠ '"' ∧ x ≠ '\n' ∧ x ≠ '\r' := by
  cases h with
  | itself hp hq hb =>
    exact ⟨c, [], rfl, hq, ne_newline_of_isPlain hp, ne_return_of_isPlain hp⟩
  | short e he => exact ⟨_, _, rfl, by decide, by decide, by decide⟩
  | code d₁ d₂ d₃ d₄ h => exact ⟨_, _, rfl, by decide, by decide, by decide⟩

/-! ## One line -/

theorem readBasic_escaping (h : Escaping c w) (r : Text) :
    readBasic (w ++ r) = withChar (some c) (readBasic r) := by
  cases h with
  | itself hp hq hb =>
    rw [List.singleton_append, readBasic.eq_def]
    simp [hp, hq, hb]
  | short e he =>
    have hu : e ≠ 'u' := by
      rintro rfl
      cases he
    have hU : e ≠ 'U' := by
      rintro rfl
      cases he
    have hb : ('\\' : Char) ≠ '"' := by decide
    rw [List.cons_append, List.singleton_append, readBasic.eq_def]
    simp only [if_neg hb, if_true]
    split
    · rename_i h
      cases h
      exact absurd rfl hu
    · rename_i h
      cases h
      exact absurd rfl hU
    · rename_i h
      cases h
      rw [he]
    · rename_i h
      cases h
  | code d₁ d₂ d₃ d₄ h =>
    rw [readBasic.eq_def]
    simp [h]

theorem escaping_basic (c : Char) :
    Escaping c (if c = '"' then ['\\', '"'] else if c = '\n' then ['\\', 'n'] else escaped c) := by
  split
  · rename_i h
    exact .short '"' (by rw [h]; rfl)
  split
  · rename_i h
    exact .short 'n' (by rw [h]; rfl)
  · rename_i hq hn
    exact escaping_escaped hq hn

theorem readBasic_basicBody (t r : Text) : readBasic (basicBody t ++ '"' :: r) = some (t, r) := by
  induction t with
  | nil =>
    rw [basicBody, List.nil_append, readBasic.eq_def]
    rfl
  | cons c t ih =>
    rw [basicBody, List.append_assoc, readBasic_escaping (escaping_basic c), ih]
    rfl

theorem readLiteral_append (h : ∀ c ∈ t, isPlain c = true ∧ c ≠ '\'') (r : Text) :
    readLiteral (t ++ '\'' :: r) = some (t, r) := by
  induction t with
  | nil => rw [List.nil_append, readLiteral, if_pos rfl]
  | cons c t ih =>
    obtain ⟨hp, hq⟩ := h c List.mem_cons_self
    rw [List.cons_append, readLiteral, if_neg hq, if_pos hp,
      ih fun d hd => h d (List.mem_cons_of_mem c hd)]
    rfl

/-! ## Several lines -/

/-- The three quotes behind a string. -/
theorem closing?_quotes (hr : ∀ c ∈ r.head?, c ≠ q) : closing? q (q :: q :: r) = some ([], r) := by
  cases r with
  | nil => simp [closing?]
  | cons c r => simp [closing?, hr c rfl]

/-- Behind a quote, `w` and the three quotes that follow the string: they end it if `w` has nothing
else than at most one more quote. -/
theorem closing?_body (hw : ∀ v, w ≠ q :: q :: v) (hr : ∀ c ∈ r.head?, c ≠ q) :
    closing? q (w ++ q :: q :: q :: r) =
      if w = [] ∨ w = [q] then some (q :: w, r) else none := by
  match w, hw with
  | [], _ =>
    cases r with
    | nil => simp [closing?]
    | cons c r => simp [closing?, hr c rfl]
  | [a], _ => by_cases ha : a = q <;> simp [closing?, ha]
  | a :: b :: v, hw =>
    have hab : ¬ (a = q ∧ b = q) := by
      rintro ⟨rfl, rfl⟩
      exact hw v rfl
    simp only [List.cons_append, closing?, if_neg hab]
    simp

theorem readBasicLines_escaping (h : Escaping c w) (r : Text) :
    readBasicLines .none (w ++ r) = withChar (some c) (readBasicLines .none r) := by
  cases h with
  | itself hp hq hb =>
    rw [List.singleton_append, readBasicLines.eq_def]
    simp [hp, hq, hb, ne_newline_of_isPlain hp, ne_return_of_isPlain hp]
  | short e he =>
    have hne : ∀ x, shortEscape? x = none → e ≠ x := by
      rintro x hx rfl
      rw [hx] at he
      cases he
    rw [List.cons_append, List.singleton_append, readBasicLines.eq_def]
    simp only
    rw [if_neg (by decide), if_neg (by decide), if_neg (by decide), if_neg (by decide),
      if_neg (by decide), if_pos trivial]
    split
    · rename_i h
      cases h
      exact absurd rfl (hne 'u' rfl)
    · rename_i h
      cases h
      exact absurd rfl (hne 'U' rfl)
    · rename_i h
      cases h
      have hs : isSpace e = false := by
        simp [isSpace, hne ' ' rfl, hne '\t' rfl]
      simp only [hs, Bool.false_eq_true, if_false, if_neg (hne '\n' rfl), if_neg (hne '\r' rfl), he]
    · rename_i h
      cases h
  | code d₁ d₂ d₃ d₄ h =>
    rw [readBasicLines.eq_def]
    simp [h]

theorem readBasicLines_quote (r : Text) : readBasicLines .none ('"' :: r) =
    match closing? '"' r with
    | some e => some e
    | none => withChar (some '"') (readBasicLines .none r) := by
  rw [readBasicLines.eq_def]
  rfl

theorem readBasicLines_newline (r : Text) :
    readBasicLines .none ('\n' :: r) = withChar (some '\n') (readBasicLines .none r) := by
  rw [readBasicLines.eq_def]
  rfl

/-- Only a quote that has an escape or stands among the first two begins with a quote. -/
theorem basicLinesBody_head (hk : 2 ≤ k ∨ c ≠ '"') :
    ∃ x v, basicLinesBody k (c :: t) = x :: v ∧ x ≠ '"' := by
  rw [basicLinesBody]
  split
  · rename_i hc
    rw [if_neg (by simp [hc] at hk; omega)]
    exact ⟨_, _, rfl, by decide⟩
  split
  · exact ⟨_, _, rfl, by decide⟩
  · rename_i hq hn
    obtain ⟨x, v, hw, hx, _⟩ := (escaping_escaped hq hn).head
    exact ⟨x, v ++ basicLinesBody 0 t, by rw [hw, List.cons_append], hx⟩

/-- Behind one quote, there are no two more in a row. -/
theorem basicLinesBody_ne (v : Text) : basicLinesBody (k + 1) t ≠ '"' :: '"' :: v := by
  intro h
  cases t with
  | nil => cases h
  | cons c t =>
    by_cases hc : 2 ≤ k + 1 ∨ c ≠ '"'
    · obtain ⟨x, v', hx, hne⟩ := basicLinesBody_head (t := t) hc
      rw [hx] at h
      exact hne (List.head_eq_of_cons_eq h)
    · obtain ⟨hk, hq⟩ : k = 0 ∧ c = '"' := by simpa using hc
      subst hk hq
      rw [basicLinesBody, if_pos rfl, if_pos (by decide), List.cons.injEq] at h
      cases t with
      | nil => cases h.2
      | cons d t =>
        obtain ⟨x, v', hx, hne⟩ := basicLinesBody_head (c := d) (t := t) (.inl (Nat.le_refl 2))
        rw [hx] at h
        exact hne (List.head_eq_of_cons_eq h.2)

/-- What stands there as quotes alone stands for itself. -/
theorem eq_of_basicLinesBody (h : basicLinesBody k t = [] ∨ basicLinesBody k t = ['"']) :
    basicLinesBody k t = t := by
  cases t with
  | nil => rfl
  | cons c t =>
    by_cases hc : 2 ≤ k ∨ c ≠ '"'
    · obtain ⟨x, v, hx, hne⟩ := basicLinesBody_head (t := t) hc
      rw [hx] at h
      simp [hne] at h
    · obtain ⟨hk, hq⟩ : k < 2 ∧ c = '"' := by simpa using hc
      subst hq
      rw [basicLinesBody, if_pos rfl, if_pos hk] at h ⊢
      have hnil : basicLinesBody (k + 1) t = [] := by simpa using h
      cases t with
      | nil => rfl
      | cons d t =>
        by_cases hd : 2 ≤ k + 1 ∨ d ≠ '"'
        · obtain ⟨x, v, hx, _⟩ := basicLinesBody_head (t := t) hd
          rw [hx] at hnil
          cases hnil
        · obtain ⟨rfl, rfl⟩ : k = 0 ∧ d = '"' := by simpa using hd
          rw [basicLinesBody, if_pos rfl, if_pos (by decide)] at hnil
          cases hnil

theorem readBasicLines_body (hr : NoQuote r) :
    readBasicLines .none (basicLinesBody k t ++ '"' :: '"' :: '"' :: r) = some (t, r) := by
  have hr' : ∀ c ∈ r.head?, c ≠ '"' := fun c hc => (hr c hc).1
  induction t generalizing k with
  | nil =>
    rw [basicLinesBody, List.nil_append, readBasicLines_quote, closing?_quotes hr']
  | cons c t ih =>
    by_cases hq : c = '"'
    · subst hq
      rw [basicLinesBody, if_pos rfl]
      split
      · -- a quote as it is: it may be the first of those that end the string
        rw [List.cons_append, readBasicLines_quote, closing?_body basicLinesBody_ne hr']
        split
        · rename_i e he
          split at he
          · rename_i hw
            rw [eq_of_basicLinesBody hw] at he
            exact he.symm
          · cases he
        · rw [ih]
          rfl
      · rw [List.append_assoc, readBasicLines_escaping (.short '"' rfl), ih]
        rfl
    · rw [basicLinesBody, if_neg hq]
      split
      · rename_i hn
        rw [List.cons_append, readBasicLines_newline, ih, hn]
        rfl
      · rename_i hn
        rw [List.append_assoc, readBasicLines_escaping (escaping_escaped hq hn), ih]
        rfl

theorem readLiteralLines_quote (r : Text) : readLiteralLines ('\'' :: r) =
    match closing? '\'' r with
    | some e => some e
    | none => withChar (some '\'') (readLiteralLines r) := by
  rw [readLiteralLines.eq_def]
  rfl

theorem readLiteralLines_newline (r : Text) :
    readLiteralLines ('\n' :: r) = withChar (some '\n') (readLiteralLines r) := by
  rw [readLiteralLines.eq_def]
  rfl

theorem readLiteralLines_plain (hp : isPlain c = true) (hq : c ≠ '\'') (r : Text) :
    readLiteralLines (c :: r) = withChar (some c) (readLiteralLines r) := by
  rw [readLiteralLines.eq_def]
  simp [hp, hq, ne_newline_of_isPlain hp, ne_return_of_isPlain hp]

theorem le_longestRun (q : Char) (k : Nat) (t : Text) : k ≤ longestRun q k t := by
  induction t generalizing k with
  | nil => exact Nat.le_refl k
  | cons c t ih =>
    rw [longestRun]
    split
    · exact Nat.le_trans (Nat.le_succ k) (ih (k + 1))
    · exact Nat.le_max_left _ _

theorem readLiteralLines_append (hc : ∀ c ∈ t, isCode c = false) (hk : longestRun '\'' k t ≤ 2)
    (hr : NoQuote r) :
    readLiteralLines (t ++ '\'' :: '\'' :: '\'' :: r) = some (t, r) := by
  have hr' : ∀ c ∈ r.head?, c ≠ '\'' := fun c hc => (hr c hc).2
  induction t generalizing k with
  | nil => rw [List.nil_append, readLiteralLines_quote, closing?_quotes hr']
  | cons c t ih =>
    have hc' : ∀ d ∈ t, isCode d = false := fun d hd => hc d (List.mem_cons_of_mem c hd)
    rw [longestRun] at hk
    by_cases hq : c = '\''
    · subst hq
      rw [if_pos rfl] at hk
      have hne : ∀ v, t ≠ '\'' :: '\'' :: v := by
        rintro v rfl
        rw [longestRun, if_pos rfl, longestRun, if_pos rfl] at hk
        have := le_longestRun '\'' (k + 1 + 1 + 1) v
        omega
      rw [List.cons_append, readLiteralLines_quote, closing?_body hne hr']
      split
      · rename_i e he
        split at he
        · exact he.symm
        · cases he
      · rw [ih hc' hk]
        rfl
    · rw [if_neg hq] at hk
      have hk' : longestRun '\'' 0 t ≤ 2 := Nat.le_trans (Nat.le_max_right _ _) hk
      rw [List.cons_append]
      by_cases hn : c = '\n'
      · rw [hn, readLiteralLines_newline, ih hc' hk']
        rfl
      · have hp := isPlain_of_not_code (hc c List.mem_cons_self) hn
        rw [readLiteralLines_plain hp hq, ih hc' hk']
        rfl

/-! ## All forms -/

theorem not_code_of_any (h : t.any isCode = false) : ∀ c ∈ t, isCode c = false := by
  simpa using h

theorem of_eq_literal (h : Form.of t = .literal) :
    t ≠ [] ∧ ∀ c ∈ t, isPlain c = true ∧ c ≠ '\'' := by
  simp only [Form.of] at h
  split at h
  · cases h
  split at h
  · rename_i hbasic hlit
    simp only [Bool.and_eq_true, Bool.not_eq_true', List.contains_eq_mem, decide_eq_false_iff_not]
      at hlit
    refine ⟨?_, fun c hc => ⟨isPlain_of_not_code (not_code_of_any hlit.1.1 c hc) ?_, ?_⟩⟩
    · rintro rfl
      exact hbasic rfl
    · rintro rfl
      exact hlit.1.2 hc
    · rintro rfl
      exact hlit.2 hc
  · split at h
    · cases h
    · split at h
      · cases h
      · split at h <;> cases h

theorem of_eq_literalLines (h : Form.of t = .literalLines) :
    (∀ c ∈ t, isCode c = false) ∧ longestRun '\'' 0 t ≤ 2 := by
  simp only [Form.of] at h
  split at h
  · cases h
  split at h
  · cases h
  split at h
  · cases h
  split at h
  · rename_i hrun
    simp only [Bool.and_eq_true, Bool.not_eq_true', decide_eq_true_eq] at hrun
    exact ⟨not_code_of_any hrun.1, hrun.2⟩
  · split at h <;> cases h

/-- Behind one quote, a string of one line does not begin with two more. -/
theorem readString_eq_line (h : ∀ v, r ≠ c :: c :: v) :
    readString (c :: r) = readLineString (c :: r) := by
  rw [readString.eq_def]
  split
  · rename_i heq
    cases heq
    exact absurd rfl (h _)
  · rename_i heq
    cases heq
    exact absurd rfl (h _)
  · rfl

theorem afterLineFeed_opening (hw : ∀ c ∈ w.head?, c ≠ '\r' ∧ ('\n' ∉ t → c ≠ '\n')) :
    afterLineFeed (opening t ++ w) = w := by
  rw [opening]
  split
  · rfl
  · rename_i hn
    have hn' : '\n' ∉ t := by simpa using hn
    cases w with
    | nil => rfl
    | cons c w =>
      obtain ⟨hr, hf⟩ := hw c rfl
      simp [afterLineFeed, lineFeed?, hr, hf hn']

theorem readString_basic (hr : NoQuote r) :
    readString ('"' :: basicBody t ++ '"' :: r) = some (t, r) := by
  have hne : ∀ v, basicBody t ++ '"' :: r ≠ '"' :: '"' :: v := by
    intro v h
    cases t with
    | nil =>
      cases h
      exact (hr '"' rfl).1 rfl
    | cons c t =>
      obtain ⟨x, w, hw, hx, _⟩ := (escaping_basic c).head
      rw [basicBody, hw] at h
      exact hx (List.head_eq_of_cons_eq h)
  rw [List.cons_append, readString_eq_line hne]
  exact readBasic_basicBody t r

theorem readString_literal (ht : t ≠ []) (h : ∀ c ∈ t, isPlain c = true ∧ c ≠ '\'') (r : Text) :
    readString ('\'' :: t ++ '\'' :: r) = some (t, r) := by
  have hne : ∀ v, t ++ '\'' :: r ≠ '\'' :: '\'' :: v := by
    intro v heq
    cases t with
    | nil => exact ht rfl
    | cons c t => exact (h c List.mem_cons_self).2 (List.head_eq_of_cons_eq heq)
  rw [List.cons_append, readString_eq_line hne]
  exact readLiteral_append h r

theorem readString_basicLines (t : Text) (hr : NoQuote r) :
    readString ('"' :: '"' :: '"' :: (opening t ++ (basicLinesBody 0 t ++ '"' :: '"' :: '"' :: r))) =
      some (t, r) := by
  have hhead : ∀ c ∈ (basicLinesBody 0 t ++ '"' :: '"' :: '"' :: r).head?,
      c ≠ '\r' ∧ ('\n' ∉ t → c ≠ '\n') := by
    cases t with
    | nil =>
      rintro c ⟨⟩
      decide
    | cons d t =>
      rw [basicLinesBody]
      split
      · rintro c ⟨⟩
        exact ⟨by decide, fun _ => by decide⟩
      split
      · rename_i hn
        rintro c ⟨⟩
        exact ⟨by decide, fun hnot => absurd (hn ▸ List.mem_cons_self) hnot⟩
      · rename_i hq hn
        obtain ⟨x, v, hw, _, hxn, hxr⟩ := (escaping_escaped hq hn).head
        rw [hw]
        rintro c ⟨⟩
        exact ⟨hxr, fun _ => hxn⟩
  have hread : readString ('"' :: '"' :: '"' ::
      (opening t ++ (basicLinesBody 0 t ++ '"' :: '"' :: '"' :: r))) = readBasicLines .none
        (afterLineFeed (opening t ++ (basicLinesBody 0 t ++ '"' :: '"' :: '"' :: r))) := rfl
  rw [hread, afterLineFeed_opening hhead, readBasicLines_body hr]

theorem readString_literalLines (hc : ∀ c ∈ t, isCode c = false) (hk : longestRun '\'' 0 t ≤ 2)
    (hr : NoQuote r) :
    readString ('\'' :: '\'' :: '\'' :: (opening t ++ (t ++ '\'' :: '\'' :: '\'' :: r))) =
      some (t, r) := by
  have hhead : ∀ c ∈ (t ++ '\'' :: '\'' :: '\'' :: r).head?, c ≠ '\r' ∧ ('\n' ∉ t → c ≠ '\n') := by
    cases t with
    | nil =>
      rintro c ⟨⟩
      decide
    | cons d t =>
      rintro c ⟨⟩
      refine ⟨?_, fun hnot => ?_⟩
      · rintro rfl
        exact absurd (hc '\r' List.mem_cons_self) (by decide)
      · rintro rfl
        exact hnot List.mem_cons_self
  have hread : readString ('\'' :: '\'' :: '\'' ::
      (opening t ++ (t ++ '\'' :: '\'' :: '\'' :: r))) = readLiteralLines
        (afterLineFeed (opening t ++ (t ++ '\'' :: '\'' :: '\'' :: r))) := rfl
  rw [hread, afterLineFeed_opening hhead, readLiteralLines_append hc hk hr]

/-- A string that was written is read back, whatever its form. -/
theorem readString_writeString (t : Text) (hr : NoQuote r) :
    readString (writeString t ++ r) = some (t, r) := by
  rw [writeString]
  cases hf : Form.of t with
  | basic => simpa using readString_basic hr
  | literal =>
    obtain ⟨hne, hall⟩ := of_eq_literal hf
    simpa using readString_literal hne hall r
  | basicLines => simpa using readString_basicLines t hr
  | literalLines =>
    obtain ⟨hcode, hrun⟩ := of_eq_literalLines hf
    simpa using readString_literalLines hcode hrun hr

/-- Every form begins with a quote. -/
theorem writeString_eq_cons (t : Text) :
    ∃ q v, writeString t = q :: v ∧ (q = '"' ∨ q = '\'') := by
  rw [writeString]
  split
  · exact ⟨_, _, rfl, .inl rfl⟩
  · exact ⟨_, _, rfl, .inr rfl⟩
  · exact ⟨_, _, rfl, .inl rfl⟩
  · exact ⟨_, _, rfl, .inr rfl⟩

end Toml
end IncludeOrder
