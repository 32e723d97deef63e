import IncludeOrder.Proofs.Toml.Strings
import IncludeOrder.Toml.Reader

/-!
# IncludeOrder.Proofs.Toml.Arrays

An array of strings that was written is read back (`readValue_writeArray`), on one line or with a line
for each element (`readElements_lines`). The reader takes one element at a time; its fuel is the length
of the text, and each element takes up more than one character.
-/

namespace IncludeOrder
namespace Toml

variable {c : Char} {t r s : Text} {ts : List Text} {n : Node} {fuel : Nat}

/-! ## Between the elements -/

theorem trivia?_newline (r : Text) : trivia? false ('\n' :: r) = trivia? false r := by
  rw [trivia?.eq_def]
  rfl

theorem trivia?_space (r : Text) : trivia? false (' ' :: r) = trivia? false r := by
  rw [trivia?.eq_def]
  rfl

/-- Where an element, a comma or a bracket stands, nothing is passed over. -/
theorem trivia?_stop (hs : isSpace c = false) (hn : c ≠ '\n') (hr : c ≠ '\r') (hc : c ≠ '#') :
    trivia? false (c :: r) = some (c :: r) := by
  rw [trivia?.eq_def]
  simp [hs, hn, hr, hc]

theorem trivia?_writeString (t r : Text) :
    trivia? false (writeString t ++ r) = some (writeString t ++ r) := by
  obtain ⟨q, v, hq, hquote⟩ := writeString_eq_cons t
  rw [hq, List.cons_append]
  rcases hquote with rfl | rfl
  · exact trivia?_stop (by decide) (by decide) (by decide) (by decide)
  · exact trivia?_stop (by decide) (by decide) (by decide) (by decide)

theorem trivia?_comma (r : Text) : trivia? false (',' :: r) = some (',' :: r) :=
  trivia?_stop (by decide) (by decide) (by decide) (by decide)

theorem trivia?_bracket (r : Text) : trivia? false (']' :: r) = some (']' :: r) :=
  trivia?_stop (by decide) (by decide) (by decide) (by decide)

/-! ## Elements -/

theorem readSimple_writeString (t : Text) (hr : NoQuote r) :
    readSimple (writeString t ++ r) = some (.text t, r) := by
  have hread := readString_writeString t hr
  obtain ⟨q, v, hq, hquote⟩ := writeString_eq_cons t
  rw [hq, List.cons_append] at hread ⊢
  simp only [readSimple, if_pos hquote, hread]

theorem readValue_writeString (depth : Nat) (t : Text) (hr : NoQuote r) :
    readValue depth (writeString t ++ r) = some (.text t, r) := by
  cases depth with
  | zero => exact readSimple_writeString t hr
  | succ depth =>
    have hread := readSimple_writeString t hr
    obtain ⟨q, v, hq, hquote⟩ := writeString_eq_cons t
    rw [hq, List.cons_append] at hread ⊢
    rw [readValue.eq_def]
    rcases hquote with rfl | rfl
    · exact hread
    · exact hread

section

variable {value : Text → Reading Node}

theorem readElements_end (h : trivia? false s = some (']' :: r)) :
    readElements value (fuel + 1) s = some ([], r) := by
  simp only [readElements, h]

theorem readElements_last {r' : Text} (hs : trivia? false s = some (writeString t ++ r))
    (hv : value (writeString t ++ r) = some (n, r)) (hr : trivia? false r = some (']' :: r')) :
    readElements value (fuel + 1) s = some ([n], r') := by
  obtain ⟨q, v, hq, hquote⟩ := writeString_eq_cons t
  rw [hq, List.cons_append] at hs hv
  rcases hquote with rfl | rfl
  · simp [readElements, hs, hv, hr]
  · simp [readElements, hs, hv, hr]

theorem readElements_comma {r' r'' : Text} {ns : List Node}
    (hs : trivia? false s = some (writeString t ++ r))
    (hv : value (writeString t ++ r) = some (n, r)) (hr : trivia? false r = some (',' :: r'))
    (hrest : readElements value fuel r' = some (ns, r'')) :
    readElements value (fuel + 1) s = some (n :: ns, r'') := by
  obtain ⟨q, v, hq, hquote⟩ := writeString_eq_cons t
  rw [hq, List.cons_append] at hs hv
  rcases hquote with rfl | rfl
  · simp [readElements, hs, hv, hr, hrest]
  · simp [readElements, hs, hv, hr, hrest]

end

theorem noQuote_cons (hd : c ≠ '"') (hs : c ≠ '\'') (r : Text) : NoQuote (c :: r) := by
  rintro d ⟨⟩
  exact ⟨hd, hs⟩

/-- The elements of an array, each on a line of its own. -/
theorem readElements_lines (depth : Nat) (hf : ts.length < fuel) :
    readElements (readValue depth) fuel ('\n' :: (ts.flatMap elementLine ++ ']' :: r)) =
      some (ts.map Node.text, r) := by
  induction ts generalizing fuel with
  | nil =>
    obtain ⟨fuel, rfl⟩ := Nat.exists_eq_succ_of_ne_zero (Nat.ne_of_gt hf)
    refine readElements_end ?_
    rw [trivia?_newline]
    exact trivia?_bracket r
  | cons t ts ih =>
    obtain ⟨fuel, rfl⟩ := Nat.exists_eq_succ_of_ne_zero (Nat.ne_of_gt (Nat.zero_lt_of_lt hf))
    have hquote := noQuote_cons (c := ',') (by decide) (by decide)
      ('\n' :: (ts.flatMap elementLine ++ ']' :: r))
    have hs : trivia? false ('\n' :: ((t :: ts).flatMap elementLine ++ ']' :: r)) =
        some (writeString t ++ ',' :: '\n' :: (ts.flatMap elementLine ++ ']' :: r)) := by
      simp only [List.flatMap_cons, elementLine, List.append_assoc, List.cons_append,
        List.nil_append, trivia?_newline, trivia?_space, trivia?_writeString]
    exact readElements_comma hs (readValue_writeString depth t hquote) (trivia?_comma _)
      (ih (Nat.lt_of_succ_lt_succ hf))

theorem length_le_flatMap_elementLine (ts : List Text) :
    ts.length ≤ (ts.flatMap elementLine).length := by
  induction ts with
  | nil => exact Nat.le_refl 0
  | cons t ts ih =>
    simp only [List.flatMap_cons, List.length_append, List.length_cons, elementLine]
    omega

theorem readValue_writeArray (depth : Nat) (ts : List Text) (r : Text) :
    readValue (depth + 1) (writeArray ts ++ r) = some (.array (ts.map Node.text), r) := by
  match ts with
  | [] =>
    have hread : readElements (readValue depth) ((']' :: r).length + 1) (']' :: r) = some ([], r) :=
      readElements_end (trivia?_bracket r)
    simp only [writeArray, List.cons_append, List.nil_append, readValue, hread, List.map_nil]
  | [t] =>
    have hquote := noQuote_cons (c := ']') (by decide) (by decide) r
    have hread : readElements (readValue depth) ((writeString t ++ ']' :: r).length + 1)
        (writeString t ++ ']' :: r) = some ([.text t], r) :=
      readElements_last (trivia?_writeString t (']' :: r)) (readValue_writeString depth t hquote)
        (trivia?_bracket r)
    simp only [writeArray, List.cons_append, List.append_assoc, List.nil_append, readValue, hread,
      List.map_cons, List.map_nil]
  | t :: u :: ts =>
    have hlen := length_le_flatMap_elementLine (t :: u :: ts)
    have hread : readElements (readValue depth)
        (('\n' :: ((t :: u :: ts).flatMap elementLine ++ ']' :: r)).length + 1)
        ('\n' :: ((t :: u :: ts).flatMap elementLine ++ ']' :: r)) =
          some ((t :: u :: ts).map Node.text, r) := by
      refine readElements_lines depth ?_
      simp only [List.length_cons, List.length_append] at hlen ⊢
      omega
    simp only [writeArray, List.cons_append, List.append_assoc, List.nil_append, readValue, hread]

end Toml
end IncludeOrder
