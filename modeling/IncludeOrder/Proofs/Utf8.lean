import IncludeOrder.Text.Utf8

/-!
# IncludeOrder.Proofs.Utf8

What is written as bytes is read back: `decode?_encode`. The reader takes each character of an encoded
text whole (`units_encodeChar`); the cases are the four lengths that a character can have. So two texts
with the same bytes are the same (`encode_inj`).
-/

namespace IncludeOrder
namespace Utf8

/-! ## Steps of the reader -/

theorem units_cons (s : Option Partial) (b : UInt8) (r : Bytes) :
    units s (b :: r) = (step s b).1 ++ units (step s b).2 r := by
  cases s <;> rfl

theorem toNat_ofNat {n : Nat} (h : n < 256) : (UInt8.ofNat n).toNat = n :=
  UInt8.toNat_ofNat_of_lt h

theorem step_none {n : Nat} (h : n < 256) : step none (UInt8.ofNat n) = start n := by
  rw [step, toNat_ofNat h]

theorem step_some (p : Partial) {n : Nat} (h : n < 256) :
    step (some p) (UInt8.ofNat n) = p.feed n := by
  rw [step, toNat_ofNat h]

theorem start_one {b : Nat} (h : b < 0x80) : start b = ([some (Char.ofNat b)], none) := by
  simp [start, h]

theorem start_two {b : Nat} (h : 0xC2 ≤ b) (h' : b < 0xE0) :
    start b = ([], some ⟨b - 0xC0, 0, 0x80, 0xBF⟩) := by
  simp only [start]
  rw [if_neg (by omega), if_neg (by omega), if_pos h']

/-- After the first byte of three, overlong forms and surrogates are excluded. -/
theorem start_three {b : Nat} (h : 0xE0 ≤ b) (h' : b < 0xF0) :
    start b = ([], some ⟨b - 0xE0, 1, if b = 0xE0 then 0xA0 else 0x80,
      if b = 0xED then 0x9F else 0xBF⟩) := by
  simp only [start]
  rw [if_neg (by omega), if_neg (by omega), if_neg (by omega)]
  by_cases h0 : b = 0xE0
  · simp [h0]
  · by_cases hd : b = 0xED
    · simp [hd]
    · simp [h0, hd, h']

/-- After the first byte of four, overlong forms and what lies past the last character. -/
theorem start_four {b : Nat} (h : 0xF0 ≤ b) (h' : b < 0xF5) :
    start b = ([], some ⟨b - 0xF0, 2, if b = 0xF0 then 0x90 else 0x80,
      if b = 0xF4 then 0x8F else 0xBF⟩) := by
  simp only [start]
  rw [if_neg (by omega), if_neg (by omega), if_neg (by omega), if_neg (by omega),
    if_neg (by omega), if_neg (by omega)]
  by_cases h0 : b = 0xF0
  · simp [h0]
  · by_cases h4 : b = 0xF4
    · simp [h4]
    · have hlt : b < 0xF4 := by omega
      simp [h0, h4, hlt]

theorem feed_last {bits low high b : Nat} (h : low ≤ b) (h' : b ≤ high) :
    Partial.feed ⟨bits, 0, low, high⟩ b =
      ([some (Char.ofNat (bits * 64 + (b - 0x80)))], none) := by
  simp [Partial.feed, h, h']

theorem feed_more {bits n low high b : Nat} (h : low ≤ b) (h' : b ≤ high) :
    Partial.feed ⟨bits, n + 1, low, high⟩ b =
      ([], some ⟨bits * 64 + (b - 0x80), n, 0x80, 0xBF⟩) := by
  simp [Partial.feed, h, h']

/-! ## Whole characters -/

theorem units_one {n : Nat} (h : n < 0x80) (r : Bytes) :
    units none (UInt8.ofNat n :: r) = some (Char.ofNat n) :: units none r := by
  rw [units_cons, step_none (by omega), start_one h]
  rfl

theorem units_two {n : Nat} (h : 0x80 ≤ n) (h' : n < 0x800) (r : Bytes) :
    units none (UInt8.ofNat (n / 64 % 0x20 + 0xC0) :: UInt8.ofNat (n % 0x40 + 0x80) :: r) =
      some (Char.ofNat n) :: units none r := by
  have hbits : (n / 64 % 0x20 + 0xC0 - 0xC0) * 64 + (n % 0x40 + 0x80 - 0x80) = n := by omega
  rw [units_cons, step_none (by omega), start_two (by omega) (by omega), units_cons,
    step_some _ (by omega), feed_last (by omega) (by omega), hbits]
  rfl

theorem units_three {n : Nat} (h : 0x800 ≤ n) (h' : n < 0x10000)
    (hs : n < 0xD800 ∨ 0xDFFF < n) (r : Bytes) :
    units none (UInt8.ofNat (n / 4096 % 0x10 + 0xE0) :: UInt8.ofNat (n / 64 % 0x40 + 0x80) ::
        UInt8.ofNat (n % 0x40 + 0x80) :: r) =
      some (Char.ofNat n) :: units none r := by
  have hbits : ((n / 4096 % 0x10 + 0xE0 - 0xE0) * 64 + (n / 64 % 0x40 + 0x80 - 0x80)) * 64 +
      (n % 0x40 + 0x80 - 0x80) = n := by omega
  rw [units_cons, step_none (by omega), start_three (by omega) (by omega), units_cons,
    step_some _ (by omega), feed_more (by split <;> omega) (by split <;> omega), units_cons,
    step_some _ (by omega), feed_last (by omega) (by omega), hbits]
  rfl

theorem units_four {n : Nat} (h : 0x10000 ≤ n) (h' : n < 0x110000) (r : Bytes) :
    units none (UInt8.ofNat (n / 262144 % 0x08 + 0xF0) :: UInt8.ofNat (n / 4096 % 0x40 + 0x80) ::
        UInt8.ofNat (n / 64 % 0x40 + 0x80) :: UInt8.ofNat (n % 0x40 + 0x80) :: r) =
      some (Char.ofNat n) :: units none r := by
  have hbits : (((n / 262144 % 0x08 + 0xF0 - 0xF0) * 64 + (n / 4096 % 0x40 + 0x80 - 0x80)) * 64 +
      (n / 64 % 0x40 + 0x80 - 0x80)) * 64 + (n % 0x40 + 0x80 - 0x80) = n := by omega
  rw [units_cons, step_none (by omega), start_four (by omega) (by omega), units_cons,
    step_some _ (by omega), feed_more (by split <;> omega) (by split <;> omega), units_cons,
    step_some _ (by omega), feed_more (by omega) (by omega), units_cons,
    step_some _ (by omega), feed_last (by omega) (by omega), hbits]
  rfl

theorem units_encodeChar (c : Char) (r : Bytes) :
    units none (String.utf8EncodeChar c ++ r) = some c :: units none r := by
  have hc : Char.ofNat c.val.toNat = c := Char.ofNat_toNat c
  have hvalid : c.val.toNat < 0xD800 ∨ 0xDFFF < c.val.toNat ∧ c.val.toNat < 0x110000 := c.valid
  simp only [String.utf8EncodeChar]
  split
  · rw [List.singleton_append, units_one (by omega), hc]
  · split
    · simp only [List.cons_append, List.nil_append]
      rw [units_two (by omega) (by omega), hc]
    · split
      · simp only [List.cons_append, List.nil_append]
        rw [units_three (by omega) (by omega) (by omega), hc]
      · simp only [List.cons_append, List.nil_append]
        rw [units_four (by omega) (by omega), hc]

/-- A character is one byte with its own number, or all its bytes are past ASCII. -/
theorem encodeChar_cases (c : Char) :
    (c.val.toNat < 0x80 ∧ String.utf8EncodeChar c = [UInt8.ofNat c.val.toNat]) ∨
      (0x80 ≤ c.val.toNat ∧ ∀ b ∈ String.utf8EncodeChar c, 0x80 ≤ b.toNat) := by
  have hhigh : ∀ n, 0x80 ≤ n → n < 256 → 0x80 ≤ (UInt8.ofNat n).toNat := by
    intro n hn hn'
    rwa [toNat_ofNat hn']
  simp only [String.utf8EncodeChar]
  split
  · exact .inl ⟨by omega, rfl⟩
  · refine .inr ⟨by omega, ?_⟩
    split
    · simp only [List.forall_mem_cons]
      exact ⟨hhigh _ (by omega) (by omega), hhigh _ (by omega) (by omega), List.forall_mem_nil _⟩
    · split
      · simp only [List.forall_mem_cons]
        exact ⟨hhigh _ (by omega) (by omega), hhigh _ (by omega) (by omega),
          hhigh _ (by omega) (by omega), List.forall_mem_nil _⟩
      · simp only [List.forall_mem_cons]
        exact ⟨hhigh _ (by omega) (by omega), hhigh _ (by omega) (by omega),
          hhigh _ (by omega) (by omega), hhigh _ (by omega) (by omega), List.forall_mem_nil _⟩

/-! ## Texts -/

theorem units_encode_append (t : Text) (b : Bytes) :
    units none (encode t ++ b) = t.map some ++ units none b := by
  induction t with
  | nil => rfl
  | cons c t ih =>
    rw [encode, List.flatMap_cons, List.append_assoc, units_encodeChar, ← encode, ih, List.map_cons,
      List.cons_append]

theorem units_encode (t : Text) : units none (encode t) = t.map some := by
  simpa [units] using units_encode_append t []

theorem allSome_map_some (t : Text) : allSome (t.map some) = some t := by
  induction t with
  | nil => rfl
  | cons c t ih => simp [allSome, ih]

theorem decode?_encode (t : Text) : decode? (encode t) = some t := by
  rw [decode?, units_encode, allSome_map_some]

theorem encode_inj {s t : Text} : encode s = encode t ↔ s = t := by
  constructor
  · intro h
    have hread := congrArg decode? h
    rw [decode?_encode, decode?_encode] at hread
    exact Option.some.inj hread
  · rintro rfl
    rfl

end Utf8
end IncludeOrder
