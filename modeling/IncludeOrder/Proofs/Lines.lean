import IncludeOrder.Edit

/-!
# IncludeOrder.Proofs.Lines

A text and its lines say the same: joining undoes splitting (`joined_lines`), and splitting undoes
joining for lines that hold no line feed, of which there is at least one (`lines_joined`). Lines with
a line feed behind each of them (`Edit.terminated`) are what an edit writes in front of the rest.
-/

namespace IncludeOrder

theorem not_mem_of_mem_splitOn {α : Type} [DecidableEq α] {sep : α} {xs ys : List α}
    (h : ys ∈ xs.splitOn sep) : sep ∉ ys := by
  induction xs generalizing ys with
  | nil =>
    have hys : ys = [] := by simpa using h
    simp [hys]
  | cons x xs ih =>
    rw [List.splitOn_cons_eq_if_modifyHead] at h
    cases hs : xs.splitOn sep with
    | nil => exact absurd hs (List.splitOn_ne_nil sep xs)
    | cons z zs =>
      rw [hs] at h ih
      by_cases hx : (x == sep) = true
      · rw [if_pos hx] at h
        rcases List.mem_cons.1 h with rfl | hys
        · exact List.not_mem_nil
        · exact ih hys
      · rw [if_neg hx] at h
        rcases List.mem_cons.1 h with rfl | hys
        · have hz : sep ∉ z := ih List.mem_cons_self
          have hne : x ≠ sep := by simpa using hx
          simp [hz, Ne.symm hne]
        · exact ih (List.mem_cons_of_mem z hys)

namespace Text

theorem joined_lines (t : Text) : joined (lines t) = t :=
  List.intercalate_splitOn '\n'

theorem lines_joined {ls : List Line} (h : ∀ l ∈ ls, '\n' ∉ l) (hn : ls ≠ []) :
    lines (joined ls) = ls :=
  List.splitOn_intercalate '\n' h hn

theorem not_mem_of_mem_lines {t : Text} {l : Line} (h : l ∈ lines t) : '\n' ∉ l :=
  not_mem_of_mem_splitOn h

theorem joined_cons {l : Line} {ls : List Line} (h : ls ≠ []) :
    joined (l :: ls) = l ++ '\n' :: joined ls := by
  simp [joined, List.intercalate_cons_of_ne_nil h]

end Text

namespace Edit

@[simp] theorem terminated_nil : terminated [] = [] := rfl

@[simp] theorem terminated_cons (l : Line) (ls : List Line) :
    terminated (l :: ls) = l ++ '\n' :: terminated ls := by
  simp [terminated]

@[simp] theorem terminated_append (ls ms : List Line) :
    terminated (ls ++ ms) = terminated ls ++ terminated ms :=
  List.flatMap_append

theorem terminated_append_joined (ls : List Line) {ms : List Line} (h : ms ≠ []) :
    terminated ls ++ Text.joined ms = Text.joined (ls ++ ms) := by
  induction ls with
  | nil => rfl
  | cons l ls ih =>
    have hn : ls ++ ms ≠ [] := by simp [h]
    rw [List.cons_append, Text.joined_cons hn, ← ih]
    simp

theorem joined_append_lineFeed {ls : List Line} (h : ls ≠ []) :
    Text.joined ls ++ ['\n'] = terminated ls := by
  induction ls with
  | nil => exact absurd rfl h
  | cons l ls ih =>
    cases ls with
    | nil => simp [Text.joined]
    | cons m ms =>
      rw [Text.joined_cons (List.cons_ne_nil m ms), terminated_cons, ← ih (List.cons_ne_nil m ms)]
      simp

end Edit
end IncludeOrder
