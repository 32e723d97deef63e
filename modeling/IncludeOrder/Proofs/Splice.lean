import IncludeOrder.Proofs.Lines
import IncludeOrder.Proofs.Utf8

/-!
# IncludeOrder.Proofs.Splice

What an edit does to the bytes of a text. `lineStart` is the place where a line starts: behind as many
line feeds as there are lines before it. An edit keeps the bytes up to the start of its first line
and those from the start of the line behind its last one, and puts its own text between them
(`apply_splices`). Both places are ends of characters, and no place beyond the text is ever asked for:
`splice?` cuts only where there is something to be cut, and never fails.
-/

namespace IncludeOrder

/-- What lies between the places `i` and `j`, if they are places of the list and in this order. -/
def slice? {α : Type} (xs : List α) (i j : Nat) : Option (List α) :=
  if i ≤ j ∧ j ≤ xs.length then some ((xs.take j).drop i) else none

theorem slice?_left {α : Type} (xs ys : List α) : slice? (xs ++ ys) 0 xs.length = some xs := by
  simp [slice?]

theorem slice?_right {α : Type} (xs ys : List α) :
    slice? (xs ++ ys) xs.length (xs ++ ys).length = some ys := by
  rw [slice?, List.take_length, List.drop_left]
  simp

theorem slice?_take {α : Type} {xs : List α} {n : Nat} (h : n ≤ xs.length) :
    slice? xs 0 n = some (xs.take n) := by
  simp [slice?, h]

theorem slice?_drop {α : Type} {xs : List α} {n : Nat} (h : n ≤ xs.length) :
    slice? xs n xs.length = some (xs.drop n) := by
  simp [slice?, h]

namespace Utf8

variable {t : Text} {a r : Bytes}

def lineFeed : UInt8 := 0x0A

/-- Where line `k` starts, which is behind the first `k` line feeds. Lines that are not there start at
the end. -/
def lineStart : (k : Nat) → Bytes → Nat
  | 0, _ => 0
  | _ + 1, [] => 0
  | k + 1, b :: r => (if b = lineFeed then lineStart k r else lineStart (k + 1) r) + 1

/-! ## Line feeds in bytes -/

theorem encode_append (s t : Text) : encode (s ++ t) = encode s ++ encode t :=
  List.flatMap_append

theorem lineFeed_mem_encodeChar {c : Char} (h : lineFeed ∈ String.utf8EncodeChar c) :
    c = '\n' := by
  rcases encodeChar_cases c with ⟨hascii, hbytes⟩ | ⟨_, hbytes⟩
  · rw [hbytes, List.mem_singleton] at h
    have hval := congrArg UInt8.toNat h
    rw [toNat_ofNat (by omega)] at hval
    have hc : Char.ofNat c.val.toNat = c := Char.ofNat_toNat c
    rw [← hc, ← hval]
    rfl
  · exact absurd (hbytes _ h) (by decide)

theorem lineFeed_not_mem_encode (h : '\n' ∉ t) : lineFeed ∉ encode t := by
  intro hmem
  obtain ⟨c, hc, hb⟩ := List.mem_flatMap.1 hmem
  exact h (lineFeed_mem_encodeChar hb ▸ hc)

theorem lineStart_of_not_mem (h : lineFeed ∉ a) (k : Nat) : lineStart (k + 1) a = a.length := by
  induction a with
  | nil => rfl
  | cons b a ih =>
    rw [List.mem_cons, not_or] at h
    rw [lineStart, if_neg (Ne.symm h.1), ih h.2, List.length_cons]

theorem lineStart_append (h : lineFeed ∉ a) (k : Nat) (r : Bytes) :
    lineStart (k + 1) (a ++ lineFeed :: r) = a.length + 1 + lineStart k r := by
  induction a with
  | nil => simp [lineStart, Nat.add_comm]
  | cons b a ih =>
    rw [List.mem_cons, not_or] at h
    rw [List.cons_append, lineStart, if_neg (Ne.symm h.1), ih h.2, List.length_cons]
    omega

end Utf8

namespace Text

open Utf8 (encode lineStart)

theorem length_lines (t : Text) : (lines t).length = t.count '\n' + 1 := by
  induction t with
  | nil => simp [lines]
  | cons c t ih =>
    rw [lines, List.splitOn_cons_eq_if_modifyHead]
    by_cases hc : c = '\n'
    · simp [hc, ← ih, lines]
    · simp [hc, ← ih, lines]

theorem encode_joined_cons {l : Line} {ls : List Line} (h : ls ≠ []) :
    encode (joined (l :: ls)) = encode l ++ Utf8.lineFeed :: encode (joined ls) := by
  rw [joined_cons h, Utf8.encode_append]
  rfl

/-- The lines before line `k`, each with its line feed, lead to the start of line `k`. -/
theorem lineStart_joined {ls : List Line} {k : Nat} (hls : ∀ l ∈ ls, '\n' ∉ l)
    (hk : k < ls.length) :
    lineStart k (encode (joined ls)) = (encode (Edit.terminated (ls.take k))).length := by
  induction ls generalizing k with
  | nil => cases hk
  | cons l ls ih =>
    rw [List.forall_mem_cons] at hls
    cases k with
    | zero => simp [Utf8.lineStart, Utf8.encode]
    | succ k =>
      rw [List.length_cons, Nat.add_lt_add_iff_right] at hk
      have hne : ls ≠ [] := List.length_pos_iff.1 (by omega)
      rw [encode_joined_cons hne, Utf8.lineStart_append (Utf8.lineFeed_not_mem_encode hls.1),
        ih hls.2 hk, List.take_succ_cons, Edit.terminated_cons, Utf8.encode_append,
        List.length_append, Nat.add_assoc, Nat.add_comm 1]
      rfl

theorem lineStart_joined_of_le {ls : List Line} {k : Nat} (hls : ∀ l ∈ ls, '\n' ∉ l)
    (hne : ls ≠ []) (hk : ls.length ≤ k) :
    lineStart k (encode (joined ls)) = (encode (joined ls)).length := by
  induction ls generalizing k with
  | nil => exact absurd rfl hne
  | cons l ls ih =>
    rw [List.forall_mem_cons] at hls
    have hl := Utf8.lineFeed_not_mem_encode hls.1
    rw [List.length_cons] at hk
    obtain ⟨k, rfl⟩ : ∃ j, k = j + 1 := Nat.exists_eq_add_one.2 (by omega)
    rw [Nat.add_le_add_iff_right] at hk
    cases ls with
    | nil =>
      have hjoined : joined [l] = l := by simp [joined]
      rw [hjoined, Utf8.lineStart_of_not_mem hl]
    | cons m ms =>
      have hms : m :: ms ≠ [] := List.cons_ne_nil m ms
      rw [encode_joined_cons hms, Utf8.lineStart_append hl, ih hls.2 hms hk, List.length_append,
        List.length_cons]
      omega

/-- A text is divided where its line `k` starts, between two characters. -/
theorem exists_split (t : Text) (k : Nat) : ∃ before,
    t = before ++ joined ((lines t).drop k) ∧ (encode before).length = lineStart k (encode t) ∧
      (k < (lines t).length → before = Edit.terminated ((lines t).take k)) := by
  have hlines : ∀ l ∈ lines t, '\n' ∉ l := fun l hl => not_mem_of_mem_lines hl
  have hne : lines t ≠ [] := List.splitOn_ne_nil '\n' t
  by_cases hk : k < (lines t).length
  · refine ⟨Edit.terminated ((lines t).take k), ?_, ?_, fun _ => rfl⟩
    · have hdrop : (lines t).drop k ≠ [] := by
        rw [ne_eq, List.drop_eq_nil_iff]
        exact Nat.not_le_of_lt hk
      rw [Edit.terminated_append_joined _ hdrop, List.take_append_drop, joined_lines]
    · rw [← lineStart_joined hlines hk, joined_lines]
  · refine ⟨t, ?_, ?_, fun h => absurd h hk⟩
    · rw [List.drop_of_length_le (Nat.le_of_not_lt hk)]
      simp [joined]
    · have hend := lineStart_joined_of_le hlines hne (Nat.le_of_not_lt hk)
      rw [joined_lines] at hend
      exact hend.symm

end Text

namespace Edit

open Text (lines joined)
open Utf8 (encode lineStart)

variable {e : Edit} {t : Text}

/-- One line of the part in front of the edit. -/
def push (out : Text) (l : Line) : Text :=
  out ++ l ++ ['\n']

/-- Applying an edit where lines can only be cut at places that they have. -/
def splice? (e : Edit) (t : Text) : Option Text :=
  let ls := lines t
  let start := min e.firstLine ls.length
  let after := max (min (e.lastLine + 1) ls.length) start
  match slice? ls 0 start, slice? ls after ls.length with
  | some before, some behind => some (before.foldl push [] ++ e.newText ++ joined behind)
  | _, _ => none

theorem foldl_push (out : Text) (ls : List Line) : ls.foldl push out = out ++ terminated ls := by
  induction ls generalizing out with
  | nil => simp
  | cons l ls ih => rw [List.foldl_cons, ih, push, terminated_cons, List.append_assoc,
      List.append_assoc, List.singleton_append]

theorem splice?_eq (e : Edit) (t : Text) : e.splice? t = some (e.apply t) := by
  simp only [splice?]
  rw [slice?_take (Nat.min_le_right _ _), slice?_drop (by omega)]
  simp only [foldl_push, List.nil_append, apply]

theorem drop_after (h : e.firstLine < (lines t).length) :
    (lines t).drop (max (min (e.lastLine + 1) (lines t).length) e.firstLine) =
      (lines t).drop (max (e.lastLine + 1) e.firstLine) := by
  by_cases hlast : e.lastLine + 1 ≤ (lines t).length
  · rw [Nat.min_eq_left hlast]
  · rw [List.drop_of_length_le (by omega), List.drop_of_length_le (by omega)]

theorem slice?_encode {before behind : Text} (h : t = before ++ behind) :
    slice? (encode t) 0 (encode before).length = some (encode before) ∧
      slice? (encode t) (encode before).length (encode t).length = some (encode behind) := by
  rw [h, Utf8.encode_append]
  exact ⟨slice?_left _ _, slice?_right _ _⟩

/-- An edit replaces the bytes from the start of its first line to the start of the line behind its last
one, or to the end of the text if there is none; the range is empty if it ends before it starts, and
then nothing is lost. Behind the text, it adds a line. What it cuts, in lines and in bytes, is
always there to be cut. -/
theorem apply_splices (e : Edit) (t : Text) :
    e.splice? t = some (e.apply t) ∧
    (e.firstLine < t.count '\n' + 1 → ∃ before behind,
      slice? (encode t) 0 (lineStart e.firstLine (encode t)) = some (encode before) ∧
      slice? (encode t) (lineStart (max (e.lastLine + 1) e.firstLine) (encode t))
        (encode t).length = some (encode behind) ∧
      e.apply t = before ++ e.newText ++ behind ∧
      (e.lastLine < e.firstLine → t = before ++ behind)) ∧
    (t.count '\n' + 1 ≤ e.firstLine → e.apply t = t ++ '\n' :: e.newText) := by
  rw [← Text.length_lines]
  refine ⟨splice?_eq e t, fun hfirst => ?_, fun hfirst => ?_⟩
  · obtain ⟨before, hsplit, hlength, hbefore⟩ := Text.exists_split t e.firstLine
    obtain ⟨kept, hsplit', hlength', _⟩ := Text.exists_split t (max (e.lastLine + 1) e.firstLine)
    have hcut := (slice?_encode hsplit).1
    have hcut' := (slice?_encode hsplit').2
    rw [hlength] at hcut
    rw [hlength'] at hcut'
    refine ⟨before, _, hcut, hcut', ?_, fun hlast => ?_⟩
    · rw [hbefore hfirst]
      simp only [apply, Nat.min_eq_left (Nat.le_of_lt hfirst), drop_after hfirst]
    · rw [Nat.max_eq_right hlast]
      exact hsplit
  · have hne : lines t ≠ [] := List.splitOn_ne_nil '\n' t
    have hafter : max (min (e.lastLine + 1) (lines t).length) (lines t).length =
        (lines t).length := Nat.max_eq_right (Nat.min_le_right _ _)
    simp only [apply, Nat.min_eq_right hfirst, hafter, List.take_length, List.drop_length,
      ← joined_append_lineFeed hne, Text.joined_lines]
    simp [joined]

/-- A character of two bytes, and an edit that ends before it starts. -/
theorem apply_splices_accented :
    (1 < "é\nb".toList.count '\n' + 1 ∧ 0 < 1 ∧ lineStart 1 (encode "é\nb".toList) = 3 ∧
      ∃ before behind, slice? (encode "é\nb".toList) 0 3 = some (encode before) ∧
        (apply ⟨1, 0, "x".toList⟩ "é\nb".toList = before ++ "x".toList ++ behind) ∧
        "é\nb".toList = before ++ behind) ∧
    "é\nb".toList.count '\n' + 1 ≤ 5 ∧
      apply ⟨5, 9, "x".toList⟩ "é\nb".toList = "é\nb".toList ++ '\n' :: "x".toList := by
  have hfirst : 1 < "é\nb".toList.count '\n' + 1 := by decide
  have hstart : lineStart 1 (encode "é\nb".toList) = 3 := by decide
  have hbeyond : "é\nb".toList.count '\n' + 1 ≤ 5 := by decide
  obtain ⟨_, hinside, _⟩ := apply_splices ⟨1, 0, "x".toList⟩ "é\nb".toList
  obtain ⟨_, _, hbehind⟩ := apply_splices ⟨5, 9, "x".toList⟩ "é\nb".toList
  obtain ⟨before, behind, hcut, _, happly, hsplit⟩ := hinside hfirst
  rw [hstart] at hcut
  exact ⟨⟨hfirst, Nat.one_pos, hstart, before, behind, hcut, happly, hsplit Nat.one_pos⟩,
    hbeyond, hbehind hbeyond⟩

end Edit
end IncludeOrder
