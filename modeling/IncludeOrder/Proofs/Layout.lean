import IncludeOrder.Proofs.Run
import IncludeOrder.Proofs.Stability
import Mathlib.Data.List.Basic

/-!
# IncludeOrder.Proofs.Layout

The layout of a block that sorting leaves alone, said of its lines one by one (`LaidOut`): its include
lines are in order, and the gap behind each of them holds what it has to hold. A block has these gaps
exactly if it is its include lines framed (`spaced_iff_eq_framed`), and an edit does nothing exactly
if the block is laid out (`isNoop_iff_laidOut`).
-/

namespace IncludeOrder

open Directive (isInclude)
open Arrangement (arranged ordered framed lineLe)
open Text (filled)

namespace Block

variable {file : Path} {ls run gap rest tail last before behind : List Line} {t : Text} {b : Block}

/-- The lines that a block covers. -/
def linesIn (b : Block) (ls : List Line) : List Line :=
  (ls.drop b.first).take b.span

/-- What stands behind an include line in its block: nothing before one of the same category, an empty
line before one of another category, and `last` behind the last one. -/
structure Spaced (file : Path) (run last : List Line) : Prop where
  between : ∀ xs k gap m ys, run = xs ++ k :: gap ++ m :: ys → isInclude k = true →
    isInclude m = true → (∀ l ∈ gap, isInclude l = false) →
    gap = if Category.ofLine file k = Category.ofLine file m then [] else [[]]
  behind : ∀ xs k gap, run = xs ++ k :: gap → isInclude k = true →
    (∀ l ∈ gap, isInclude l = false) → gap = last

/-- The lines of a block that sorting leaves alone. -/
structure LaidOut (file : Path) (run last : List Line) : Prop where
  sorted : (run.filter isInclude).Pairwise fun k m => lineLe file k m = true
  spaced : Spaced file run last

/-! ## Gaps -/

theorem not_mem_gap {m : Line} (hgap : ∀ l ∈ gap, isInclude l = false) (hm : isInclude m = true) :
    m ∉ gap := by
  intro hmem
  rw [hgap m hmem] at hm
  cases hm

/-- An include line that comes after a gap and what follows it does not come in the gap. -/
theorem split_after_gap {xs ys : List Line} {k : Line} (hgap : ∀ l ∈ gap, isInclude l = false)
    (hk : isInclude k = true) (h : gap ++ rest = xs ++ k :: ys) :
    ∃ zs, xs = gap ++ zs ∧ rest = zs ++ k :: ys := by
  rcases List.append_eq_append_iff.1 h with ⟨zs, hxs, hrest⟩ | ⟨zs, hgap', hrest⟩
  · exact ⟨zs, hxs, hrest⟩
  · cases zs with
    | nil =>
      rw [List.append_nil] at hgap'
      exact ⟨[], by simp [hgap'], by simpa using hrest.symm⟩
    | cons z zs =>
      rw [List.cons_append, List.cons.injEq] at hrest
      exact absurd (by simp [hgap', hrest.1]) (not_mem_gap hgap hk)

/-- The gap before the next include line is all that stands before it. -/
theorem gap_unique {gap' ys zs : List Line} {m m' : Line} (hgap : ∀ l ∈ gap, isInclude l = false)
    (hgap' : ∀ l ∈ gap', isInclude l = false) (hm : isInclude m = true) (hm' : isInclude m' = true)
    (h : gap ++ m :: ys = gap' ++ m' :: zs) : gap = gap' ∧ m = m' := by
  obtain ⟨us, hus, hrest⟩ := split_after_gap hgap hm' h
  cases us with
  | nil =>
    rw [List.nil_append, List.cons.injEq] at hrest
    exact ⟨by simpa using hus.symm, hrest.1⟩
  | cons u us =>
    rw [List.cons_append, List.cons.injEq] at hrest
    exact absurd (by simp [hus, hrest.1]) (not_mem_gap hgap' hm)

/-- The gap between two include lines. -/
def gapOf (file : Path) (k m : Line) : List Line :=
  if Category.ofLine file k = Category.ofLine file m then [] else [[]]

theorem gapOf_none (file : Path) (k m : Line) : ∀ l ∈ gapOf file k m, isInclude l = false := by
  intro l hl
  unfold gapOf at hl
  split at hl
  · cases hl
  · rw [List.mem_singleton.1 hl]
    rfl

theorem framed_cons_cons (file : Path) (k m : Line) (ls : List Line) :
    framed file (k :: m :: ls) = k :: gapOf file k m ++ framed file (m :: ls) := by
  by_cases h : Category.ofLine file k = Category.ofLine file m <;> simp [framed, gapOf, h]

theorem exists_framed_append (file : Path) (m : Line) (ls : List Line) :
    ∃ ys l, framed file (m :: ls) = ys ++ [l, []] := by
  induction ls generalizing m with
  | nil => exact ⟨[], m, rfl⟩
  | cons k ls ih =>
    obtain ⟨ys, l, hys⟩ := ih k
    exact ⟨m :: gapOf file m k ++ ys, l, by rw [framed_cons_cons, hys, List.append_assoc]⟩

theorem exists_framed_cons (file : Path) (m : Line) (ls : List Line) :
    ∃ ys, framed file (m :: ls) = m :: ys :=
  List.head?_eq_some_iff.1 (Arrangement.head?_framed file (m :: ls))

/-! ## Spaced lines are framed -/

theorem Spaced.of_append (h : Spaced file (ls ++ run) last) : Spaced file run last := by
  constructor
  · intro xs k gap m ys hrun hk hm hgap
    exact h.between (ls ++ xs) k gap m ys (by simp [hrun]) hk hm hgap
  · intro xs k gap hrun hk hgap
    exact h.behind (ls ++ xs) k gap (by simp [hrun]) hk hgap

theorem Spaced.eq_framed {ks : List Line} {k : Line} (h : Spaced file (k :: rest) ([] :: tail))
    (hk : isInclude k = true) (hks : rest.filter isInclude = ks) :
    k :: rest = framed file (k :: ks) ++ tail := by
  induction ks generalizing k rest with
  | nil =>
    have hrest : ∀ l ∈ rest, isInclude l = false := by
      intro l hl
      simpa using List.filter_eq_nil_iff.1 hks l hl
    have hlast : rest = [] :: tail := h.behind [] k rest rfl hk hrest
    rw [hlast]
    rfl
  | cons m ks ih =>
    obtain ⟨gap, ys, hrest, hgap, hm, hys⟩ := List.filter_eq_cons_iff.1 hks
    have hgap' : ∀ l ∈ gap, isInclude l = false := fun l hl => by simpa using hgap l hl
    have hfirst : gap = gapOf file k m :=
      h.between [] k gap m ys (by simp [hrest]) hk hm hgap'
    have hwhole : Spaced file ((k :: gap) ++ (m :: ys)) ([] :: tail) := by
      rw [List.cons_append, ← hrest]
      exact h
    rw [framed_cons_cons, List.append_assoc, ← ih hwhole.of_append hm hys, hrest, hfirst,
      List.cons_append]

/-! ## Framed lines are spaced -/

/-- One include line, and a gap behind it. -/
theorem spaced_single (file : Path) (k : Line) (hgap : ∀ l ∈ gap, isInclude l = false) :
    Spaced file (k :: gap) gap := by
  have hone : ∀ {xs ys : List Line} {m : Line}, isInclude m = true →
      k :: gap = xs ++ m :: ys → gap = ys := by
    intro xs ys m hm hrun
    cases xs with
    | nil => exact (List.cons.inj hrun).2
    | cons x xs =>
      rw [List.cons_append, List.cons.injEq] at hrun
      exact absurd (by simp [hrun.2]) (not_mem_gap hgap hm)
  constructor
  · intro xs l between m ys hrun hl hm _
    rw [List.append_assoc, List.cons_append] at hrun
    exact absurd (by simp [hone hl hrun]) (not_mem_gap hgap hm)
  · intro xs l behind hrun hl _
    exact (hone hl hrun).symm

/-- One include line more in front, and its gap. -/
theorem Spaced.cons {k m : Line} (h : Spaced file (m :: rest) last) (hm : isInclude m = true) :
    Spaced file (k :: (gapOf file k m ++ m :: rest)) last := by
  constructor
  · intro xs l between m' ys hrun hl hm' hbetween
    rw [List.append_assoc, List.cons_append] at hrun
    cases xs with
    | nil =>
      rw [List.nil_append, List.cons.injEq] at hrun
      obtain ⟨rfl, hrun⟩ := hrun
      obtain ⟨hgaps, rfl⟩ := gap_unique (gapOf_none file k m) hbetween hm hm' hrun
      exact hgaps.symm
    | cons x xs =>
      rw [List.cons_append, List.cons.injEq] at hrun
      obtain ⟨us, _, hus⟩ := split_after_gap (gapOf_none file k m) hl hrun.2
      exact h.between us l between m' ys (by simp [hus]) hl hm' hbetween
  · intro xs l behind hrun hl hbehind
    cases xs with
    | nil =>
      -- the next include line would be in the gap
      rw [List.nil_append, List.cons.injEq] at hrun
      exact absurd (by simp [← hrun.2]) (not_mem_gap hbehind hm)
    | cons x xs =>
      rw [List.cons_append, List.cons.injEq] at hrun
      obtain ⟨us, _, hus⟩ := split_after_gap (gapOf_none file k m) hl hrun.2
      exact h.behind us l behind hus hl hbehind

theorem spaced_framed {ks : List Line} {k : Line} (htail : ∀ l ∈ tail, isInclude l = false)
    (hks : ∀ l ∈ k :: ks, isInclude l = true) :
    Spaced file (framed file (k :: ks) ++ tail) ([] :: tail) := by
  induction ks generalizing k with
  | nil =>
    have hgap : ∀ l ∈ [] :: tail, isInclude l = false := List.forall_mem_cons.2 ⟨rfl, htail⟩
    exact spaced_single file k hgap
  | cons m ks ih =>
    obtain ⟨_, hrest⟩ := List.forall_mem_cons.1 hks
    obtain ⟨zs, hzs⟩ := exists_framed_cons file m ks
    have ih' := ih hrest
    rw [hzs] at ih'
    rw [framed_cons_cons, hzs, List.append_assoc]
    exact ih'.cons (hrest m List.mem_cons_self)

/-! ## Spacing as framing -/

theorem spaced_iff_eq_framed (hstart : ∃ l ∈ run.head?, isInclude l = true)
    (htail : ∀ l ∈ tail, isInclude l = false) :
    Spaced file run ([] :: tail) ↔ run = framed file (run.filter isInclude) ++ tail := by
  obtain ⟨k, hk, hi⟩ := hstart
  obtain ⟨rest, rfl⟩ := List.head?_eq_some_iff.1 hk
  have hfilter : (k :: rest).filter isInclude = k :: rest.filter isInclude :=
    List.filter_cons_of_pos hi
  rw [hfilter]
  constructor
  · intro h
    exact h.eq_framed hi rfl
  · intro h
    rw [h]
    refine spaced_framed htail fun l hl => ?_
    rw [← hfilter] at hl
    exact (List.mem_filter.1 hl).2

/-! ## Blocks that stay -/

namespace Cut

theorem linesIn_eq (h : Cut ls before run behind) (hb : locate ls = some b) :
    b.linesIn ls = run := by
  have hrun := h.length_run_pos
  rw [h.locate_eq] at hb
  cases hb
  have hspan : before.length + run.length - 1 - before.length + 1 = run.length := by omega
  rw [linesIn, span, hspan, h.lines_eq, List.append_assoc, List.drop_left, List.take_left]

theorem followed_iff (h : Cut ls before run behind) (hb : locate ls = some b) :
    b.last + 1 < ls.length ↔ behind ≠ [] := by
  have hrun := h.length_run_pos
  rw [h.locate_eq] at hb
  cases hb
  rw [h.length_eq, ← List.length_pos_iff]
  constructor
  · intro hlt
    simp only at hlt
    omega
  · intro hpos
    simp only
    omega

/-- The text stays exactly if the block is the arrangement of its include lines, with one more empty
line at the end of the text. -/
theorem sortIncludes_eq_iff (h : Cut (Text.lines t) before run behind) (file : Path) :
    sortIncludes file t = t ↔
      run = arranged file (run.filter isInclude) ++ lastEmpty behind := by
  constructor
  · intro hsame
    have hlines := h.lines_sortIncludes file
    rw [hsame, h.lines_eq, ← lastEmpty_append, List.append_assoc, List.append_assoc before] at hlines
    have hrun := List.append_cancel_left hlines
    rw [← List.append_assoc] at hrun
    exact List.append_cancel_right hrun
  · intro hrun
    have hlines : Text.lines (sortIncludes file t) = Text.lines t := by
      rw [h.lines_sortIncludes file, h.lines_eq, ← lastEmpty_append]
      conv_rhs => rw [hrun]
      simp
    rw [← Text.joined_lines (sortIncludes file t), hlines, Text.joined_lines]

theorem eq_arranged_iff (h : Cut (Text.lines t) before run behind) (file : Path) :
    run = arranged file (run.filter isInclude) ++ lastEmpty behind ↔
      LaidOut file run ([] :: lastEmpty behind) := by
  have htail : ∀ l ∈ lastEmpty behind, isInclude l = false := by
    intro l hl
    rw [eq_nil_of_mem_lastEmpty hl]
    rfl
  have hfilled : filled (run.filter isInclude) = run.filter isInclude := by
    rw [← filter_isInclude fun l hl => isMember_of_isInclude (List.mem_filter.1 hl).2]
    simp
  have hsorted : ordered file (run.filter isInclude) = run.filter isInclude ↔
      (run.filter isInclude).Pairwise fun k m => lineLe file k m = true := by
    have hiff : ordered file (run.filter isInclude) = filled (run.filter isInclude) ↔
        (filled (run.filter isInclude)).Pairwise fun k m => lineLe file k m = true :=
      Arrangement.ordered_eq_filled_iff
    rw [hfilled] at hiff
    exact hiff
  have hspaced : Spaced file run ([] :: lastEmpty behind) ↔
      run = framed file (run.filter isInclude) ++ lastEmpty behind :=
    spaced_iff_eq_framed h.starts htail
  rw [Arrangement.arranged_eq_framed]
  constructor
  · intro hrun
    -- the include lines on both sides are the same, so they were in order
    have hord : run.filter isInclude = ordered file (run.filter isInclude) := by
      have hfilter := h.filter_sorted file
      rw [Arrangement.arranged_eq_framed, ← hrun] at hfilter
      exact hfilter
    refine ⟨hsorted.1 hord.symm, hspaced.2 ?_⟩
    rw [← hord] at hrun
    exact hrun
  · intro hlaid
    rw [hsorted.2 hlaid.sorted]
    exact hspaced.1 hlaid.spaced

/-- At the end of a text, a block that stays ends in two line feeds. -/
theorem exists_eq_append (h : Cut (Text.lines t) before run []) {file : Path}
    (hsame : sortIncludes file t = t) : ∃ u, t = u ++ ['\n', '\n'] := by
  have hrun := (h.sortIncludes_eq_iff file).1 hsame
  obtain ⟨m, ms, hm⟩ := List.exists_cons_of_ne_nil (h.arranged_ne_nil file)
  have hord : ordered file (run.filter isInclude) ≠ [] := by
    intro hnil
    rw [Arrangement.arranged_eq_framed, hnil] at hm
    cases hm
  obtain ⟨k, ks, hk⟩ := List.exists_cons_of_ne_nil hord
  obtain ⟨ys, l, hys⟩ := exists_framed_append file k ks
  rw [Arrangement.arranged_eq_framed, hk, hys] at hrun
  have hlines : Text.lines t = (before ++ ys) ++ [l, [], []] := by
    rw [h.lines_eq, hrun]
    simp [lastEmpty]
  refine ⟨Edit.terminated (before ++ ys) ++ l, ?_⟩
  rw [← Text.joined_lines t, hlines, ← Edit.terminated_append_joined _ (by simp)]
  simp [Text.joined]

end Cut
end Block

/-! ## Files that stay -/

theorem sortFile_eq_unchanged_iff {tree : FileTree} {file : Path} {t : Text} {e : Edit}
    (hread : tree.readText file = .ok t) (he : Edit.ofText? file t = some e) (w : Bool) :
    (sortFile w tree file).1 = .ok ⟨file, .unchanged⟩ ↔ e.isNoop t = true := by
  simp only [sortFile, hread, he]
  cases hnoop : e.isNoop t with
  | true => simp
  | false =>
    cases w with
    | false => simp
    | true =>
      simp only [Bool.false_eq_true, if_false, if_true, iff_false]
      split <;> simp

open Block (LaidOut)

/-- The edit for a text with an include line does nothing exactly if the lines of the block are laid
out: in order of category and key, without a line between two of one category, with one empty line
between two of different categories, and with one empty line at the end, or two at the end of the text.
That is when the file counts as unchanged, and when a check does not find it out of order. -/
theorem isNoop_iff_laidOut {file : Path} {t : Text}
    (h : ∃ l ∈ Text.lines t, isInclude l = true) :
    ∃ b e, Block.locate (Text.lines t) = some b ∧ Edit.ofText? file t = some e ∧
      (e.isNoop t = true ↔ LaidOut file (b.linesIn (Text.lines t))
        (if b.last + 1 < (Text.lines t).length then [[]] else [[], []])) ∧
      (e.isNoop t = true → ¬ b.last + 1 < (Text.lines t).length → ∃ u, t = u ++ ['\n', '\n']) ∧
      ∀ tree : FileTree, tree.readText file = .ok t →
        (∀ w, (sortFile w tree file).1 = .ok ⟨file, .unchanged⟩ ↔ e.isNoop t = true) ∧
        ((outcomeOf false tree file).1.status ≠ .sorted ↔ e.isNoop t = true) := by
  obtain ⟨before, run, behind, hcut⟩ := Block.exists_cut h
  obtain ⟨b, hb⟩ : ∃ b, Block.locate (Text.lines t) = some b := ⟨_, hcut.locate_eq⟩
  obtain ⟨e, he⟩ : ∃ e, Edit.ofText? file t = some e := ⟨_, hcut.ofText?_eq file⟩
  have hnoop : e.isNoop t = true ↔ sortIncludes file t = t := by
    rw [sortIncludes_eq_apply he]
    simp [Edit.isNoop]
  have hlast : (if b.last + 1 < (Text.lines t).length then [[]] else [[], []]) =
      [] :: Block.lastEmpty behind := by
    rw [if_congr (hcut.followed_iff hb) rfl rfl]
    by_cases hbehind : behind = [] <;> simp [Block.lastEmpty, hbehind]
  refine ⟨b, e, hb, he, ?_, ?_, fun tree hread => ⟨sortFile_eq_unchanged_iff hread he, ?_⟩⟩
  · rw [hnoop, hcut.sortIncludes_eq_iff, hcut.eq_arranged_iff, hcut.linesIn_eq hb, hlast]
  · intro hsame hend
    rw [hcut.followed_iff hb, Classical.not_not] at hend
    subst hend
    exact hcut.exists_eq_append (hnoop.1 hsame)
  · rw [hnoop]
    constructor
    · intro hs
      by_contra hne
      obtain ⟨p, a, b, hold, hr, hd⟩ := FileTree.readText_eq_ok.1 hread
      have hoo : OutOfOrder tree file p a t := ⟨⟨b, hold, hd⟩, hr, hne⟩
      rw [outcomeOf_outOfOrder hoo he, if_pos rfl] at hs
      exact hs rfl
    · intro hsame
      exact (status_inOrder hread hsame false).1

/-- Two categories with an empty line between them, at the end of a text. -/
def twoSections : Text :=
  "#include <b>\n#include <c>\n\n#include \"A.h\"\n\n".toList

theorem isNoop_iff_laidOut_twoSections :
    ∃ b e, Block.locate (Text.lines twoSections) = some b ∧
      Edit.ofText? ⟨[]⟩ twoSections = some e ∧
      (e.isNoop twoSections = true ↔ LaidOut ⟨[]⟩ (b.linesIn (Text.lines twoSections))
        (if b.last + 1 < (Text.lines twoSections).length then [[]] else [[], []])) := by
  have hinclude : ∃ l ∈ Text.lines twoSections, isInclude l = true :=
    ⟨"#include <b>".toList, by decide +kernel, by decide +kernel⟩
  obtain ⟨b, e, hb, he, hiff, _⟩ := @isNoop_iff_laidOut ⟨[]⟩ twoSections hinclude
  exact ⟨b, e, hb, he, hiff⟩

end IncludeOrder
