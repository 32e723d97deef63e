import IncludeOrder.Proofs.Arrangement
import IncludeOrder.Proofs.Block
import IncludeOrder.Proofs.Lines

/-!
# IncludeOrder.Proofs.SortedText

A text with its include block in order, line by line. `Cut.lines_sortIncludes` gives its lines from
the parts of the text around the block: the lines before and behind it stay, and between them stands
the arrangement of the include lines. At the end of a text an empty line is added, since an edit ends
with a line feed. `Cut.sorted` locates the block once more in the result, which is why sorting twice is
sorting once (`sortIncludes_idem`).
-/

namespace IncludeOrder

open Directive (isInclude)
open Arrangement (arranged ordered)
open Text (filled isBlank)

namespace Block

def ending (behind : List Line) : List Line :=
  if behind = [] then [[]] else behind

/-- The empty line that the block gains at the end of a text. -/
def lastEmpty (behind : List Line) : List Line :=
  if behind = [] then [[]] else []

/-- The text of the lines `run`, with the line feed that parts them from those behind them. -/
def textOf (run behind : List Line) : Text :=
  if behind = [] then Text.joined run else Edit.terminated run

theorem lastEmpty_append (behind : List Line) : lastEmpty behind ++ behind = ending behind := by
  by_cases h : behind = [] <;> simp [lastEmpty, ending, h]

theorem ending_ne_nil (behind : List Line) : ending behind ≠ [] := by
  by_cases h : behind = [] <;> simp [ending, h]

theorem joined_ending (behind : List Line) : Text.joined (ending behind) = Text.joined behind := by
  by_cases h : behind = [] <;> simp [ending, h, Text.joined]

theorem eq_nil_of_mem_lastEmpty {behind : List Line} {l : Line} (h : l ∈ lastEmpty behind) :
    l = [] := by
  by_cases hb : behind = []
  · simpa [lastEmpty, hb] using h
  · simp [lastEmpty, hb] at h

theorem filled_lastEmpty (behind : List Line) : filled (lastEmpty behind) = [] := by
  by_cases h : behind = [] <;> simp [lastEmpty, h, filled, isBlank]

theorem filled_ending (behind : List Line) : filled (ending behind) = filled behind := by
  rw [← lastEmpty_append, Text.filled_append, filled_lastEmpty, List.nil_append]

theorem arranged_include {file : Path} {ls : List Line} (hls : ∀ l ∈ ls, isInclude l = true)
    {l : Line} (h : l ∈ arranged file ls) : l = [] ∨ isInclude l = true := by
  rcases Arrangement.mem_arranged h with rfl | ⟨hl, _⟩
  · exact .inl rfl
  · exact .inr (hls l hl)

theorem isMember_nil : isMember [] = true := rfl

theorem filter_isInclude {ls : List Line} (h : ∀ l ∈ ls, isMember l = true) :
    ls.filter isInclude = filled ls := by
  refine List.filter_congr fun l hl => ?_
  have hm := h l hl
  cases hi : isInclude l with
  | true => simp [Directive.isBlank_of_isInclude hi]
  | false =>
    rw [isMember, hi, Bool.false_or] at hm
    simp [hm]

namespace Cut

variable {t : Text} {before run behind : List Line}

theorem text_eq (h : Cut (Text.lines t) before run behind) :
    t = Edit.terminated before ++ textOf run behind ++ Text.joined behind := by
  have htext : textOf run behind ++ Text.joined behind = Text.joined (run ++ behind) := by
    by_cases hb : behind = []
    · simp [textOf, hb, Text.joined]
    · rw [textOf, if_neg hb, Edit.terminated_append_joined run hb]
  have hne : run ++ behind ≠ [] := by simp [h.run_ne_nil]
  rw [List.append_assoc, htext, Edit.terminated_append_joined before hne, ← List.append_assoc,
    ← h.lines_eq, Text.joined_lines]

theorem apply_eq (h : Cut (Text.lines t) before run behind) (r : Text) :
    Edit.apply ⟨before.length, before.length + run.length - 1, r⟩ t =
      Edit.terminated before ++ r ++ Text.joined behind := by
  have hrun := h.length_run_pos
  have hlen := h.length_eq
  -- the limits of an edit are cut down to the lines there are, which changes nothing here
  have hstart : min before.length (Text.lines t).length = before.length := by omega
  have hafter : max (min (before.length + run.length - 1 + 1) (Text.lines t).length)
      before.length = (before ++ run).length := by
    rw [List.length_append]
    omega
  simp only [Edit.apply, hstart, hafter]
  rw [h.lines_eq, List.drop_left, List.append_assoc before, List.take_left]

theorem arranged_ne_nil (h : Cut (Text.lines t) before run behind) (file : Path) :
    arranged file (run.filter isInclude) ≠ [] := by
  apply Arrangement.arranged_ne_nil
  rw [← filter_isInclude fun l hl => isMember_of_isInclude (List.mem_filter.1 hl).2,
    List.filter_filter]
  simpa using h.includes_ne_nil

theorem ofText?_eq (h : Cut (Text.lines t) before run behind) (file : Path) :
    Edit.ofText? file t =
      some ⟨before.length, before.length + run.length - 1,
        Edit.terminated (arranged file (run.filter isInclude))⟩ := by
  have hne := h.arranged_ne_nil file
  simp only [Edit.ofText?, h.locate_eq, ← Edit.joined_append_lineFeed hne]
  cases harr : arranged file (run.filter isInclude) with
  | nil => exact absurd harr hne
  | cons l r => rfl

theorem sortIncludes_eq (h : Cut (Text.lines t) before run behind) (file : Path) :
    sortIncludes file t =
      Edit.terminated before ++ Edit.terminated (arranged file (run.filter isInclude)) ++
        Text.joined behind := by
  simp only [sortIncludes, h.ofText?_eq file]
  exact h.apply_eq _

theorem lines_sortIncludes (h : Cut (Text.lines t) before run behind) (file : Path) :
    Text.lines (sortIncludes file t) =
      before ++ arranged file (run.filter isInclude) ++ ending behind := by
  -- joining is undone by splitting if no line holds a line feed, and no line here is a new one
  have hjoined : sortIncludes file t =
      Text.joined (before ++ arranged file (run.filter isInclude) ++ ending behind) := by
    rw [h.sortIncludes_eq file, ← Edit.terminated_append, ← joined_ending,
      Edit.terminated_append_joined _ (ending_ne_nil behind)]
  have hline : ∀ l ∈ before ++ arranged file (run.filter isInclude) ++ ending behind,
      l = [] ∨ l ∈ Text.lines t := by
    intro l hl
    rw [h.lines_eq]
    simp only [List.mem_append] at hl ⊢
    rcases hl with (hl | hl) | hl
    · exact .inr (.inl (.inl hl))
    · rcases Arrangement.mem_arranged hl with hnil | ⟨hinc, _⟩
      · exact .inl hnil
      · exact .inr (.inl (.inr (List.mem_filter.1 hinc).1))
    · rw [← lastEmpty_append, List.mem_append] at hl
      exact hl.imp eq_nil_of_mem_lastEmpty .inr
  rw [hjoined, Text.lines_joined]
  · intro l hl
    rcases hline l hl with rfl | hmem
    · exact List.not_mem_nil
    · exact Text.not_mem_of_mem_lines hmem
  · simp [ending_ne_nil]

/-- The block of a sorted text: it starts where it did and ends before the same line. -/
theorem sorted (h : Cut (Text.lines t) before run behind) (file : Path) :
    Cut (Text.lines (sortIncludes file t)) before
      (arranged file (run.filter isInclude) ++ lastEmpty behind) behind := by
  have hinc : ∀ l ∈ run.filter isInclude, isInclude l = true :=
    fun l hl => (List.mem_filter.1 hl).2
  refine ⟨?_, h.before_none, ?_, ?_, h.ends⟩
  · rw [h.lines_sortIncludes file, ← lastEmpty_append]
    simp
  · obtain ⟨l, r, hl⟩ := List.exists_cons_of_ne_nil (h.arranged_ne_nil file)
    have hhead : (arranged file (run.filter isInclude)).head? = some l := by rw [hl]; rfl
    exact ⟨l, by simp [hl], hinc l (Arrangement.mem_of_head?_arranged hhead).1⟩
  · intro l hl
    rcases List.mem_append.1 hl with hl | hl
    · rcases arranged_include hinc hl with rfl | hi
      · exact isMember_nil
      · exact isMember_of_isInclude hi
    · rw [eq_nil_of_mem_lastEmpty hl]
      exact isMember_nil

theorem filter_sorted (h : Cut (Text.lines t) before run behind) (file : Path) :
    (arranged file (run.filter isInclude) ++ lastEmpty behind).filter isInclude =
      ordered file (run.filter isInclude) := by
  rw [filter_isInclude (h.sorted file).members, Text.filled_append, filled_lastEmpty,
    List.append_nil, Arrangement.filter_arranged]

theorem sortIncludes_sortIncludes (h : Cut (Text.lines t) before run behind) (file : Path) :
    sortIncludes file (sortIncludes file t) = sortIncludes file t := by
  rw [(h.sorted file).sortIncludes_eq file, h.filter_sorted file, Arrangement.arranged_ordered,
    ← h.sortIncludes_eq file]

theorem filled_perm (h : Cut (Text.lines t) before run behind) (file : Path) :
    (filled (Text.lines (sortIncludes file t))).Perm (filled (Text.lines t)) := by
  have hfilled : filled (run.filter isInclude) = filled run := by
    rw [filter_isInclude h.members]
    simp [filled]
  have hrun : (filled (arranged file (run.filter isInclude))).Perm (filled run) := by
    rw [Arrangement.filter_arranged, ← hfilled]
    exact Arrangement.ordered_perm file _
  rw [h.lines_sortIncludes file, h.lines_eq]
  simp only [Text.filled_append, filled_ending]
  exact (hrun.append_left _).append_right _

end Cut
end Block

/-! ## Texts -/

section

variable {file : Path} {t : Text}

theorem Edit.ofText?_eq_none_iff :
    Edit.ofText? file t = none ↔ ∀ l ∈ Text.lines t, isInclude l = false := by
  constructor
  · intro hnone
    rcases Block.none_or_cut (Text.lines t) with hall | ⟨before, run, behind, h⟩
    · exact hall
    · rw [h.ofText?_eq file] at hnone
      cases hnone
  · intro hall
    simp [Edit.ofText?, Block.locate_eq_none_iff.2 hall]

theorem sortIncludes_eq_self (h : ∀ l ∈ Text.lines t, isInclude l = false) :
    sortIncludes file t = t := by
  simp [sortIncludes, Edit.ofText?_eq_none_iff.2 h]

theorem sortIncludes_eq_apply {e : Edit} (h : Edit.ofText? file t = some e) :
    sortIncludes file t = e.apply t := by
  simp [sortIncludes, h]

end

theorem sortIncludes_idem (file : Path) (t : Text) :
    sortIncludes file (sortIncludes file t) = sortIncludes file t := by
  rcases Block.none_or_cut (Text.lines t) with hnone | ⟨before, run, behind, h⟩
  · rw [sortIncludes_eq_self hnone, sortIncludes_eq_self hnone]
  · exact h.sortIncludes_sortIncludes file

/-- A sorted text is a fixed point: sorting it again gives it back, and the edit for it, if there is
one, does nothing. -/
theorem sortIncludes_fixed (file : Path) (t : Text) :
    sortIncludes file (sortIncludes file t) = sortIncludes file t ∧
      ∀ e, Edit.ofText? file (sortIncludes file t) = some e →
        e.isNoop (sortIncludes file t) = true := by
  refine ⟨sortIncludes_idem file t, fun e he => ?_⟩
  have happly : e.apply (sortIncludes file t) = sortIncludes file t := by
    rw [← sortIncludes_eq_apply he, sortIncludes_idem]
  simp [Edit.isNoop, happly]

/-- The lines of a sorted text. Without an include line there is no edit and the text stays; else the
lines around the block stay and the block becomes the arrangement of its include lines, so that no
line but a blank one is lost or comes twice. An edit is missing only for want of an include line:
the arrangement of a block is never empty. -/
theorem sortIncludes_lines (file : Path) (t : Text) :
    ((∀ l ∈ Text.lines t, isInclude l = false) →
      Edit.ofText? file t = none ∧ sortIncludes file t = t) ∧
    ((∃ l ∈ Text.lines t, isInclude l = true) →
      ∃ before run behind, Block.Cut (Text.lines t) before run behind) ∧
    (∀ before run behind, Block.Cut (Text.lines t) before run behind →
      Text.lines (sortIncludes file t) =
        before ++ arranged file (run.filter isInclude) ++
          (if behind = [] then [[]] else behind)) ∧
    (filled (Text.lines (sortIncludes file t))).Perm (filled (Text.lines t)) ∧
    (Edit.ofText? file t = none ↔ ¬ ∃ l ∈ Text.lines t, isInclude l = true) ∧
    ∀ b, Block.locate (Text.lines t) = some b → arranged file b.includes ≠ [] := by
  refine ⟨fun h => ⟨Edit.ofText?_eq_none_iff.2 h, sortIncludes_eq_self h⟩, Block.exists_cut,
    fun before run behind h => h.lines_sortIncludes file, ?_, ?_, ?_⟩
  · rcases Block.none_or_cut (Text.lines t) with hnone | ⟨before, run, behind, h⟩
    · rw [sortIncludes_eq_self hnone]
    · exact h.filled_perm file
  · rw [Edit.ofText?_eq_none_iff]
    simp
  · intro b hb
    rcases Block.none_or_cut (Text.lines t) with hnone | ⟨before, run, behind, h⟩
    · rw [Block.locate_eq_none_iff.2 hnone] at hb
      cases hb
    · rw [h.locate_eq] at hb
      cases hb
      exact h.arranged_ne_nil file

end IncludeOrder
