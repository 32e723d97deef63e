import IncludeOrder.Proofs.Abort
import IncludeOrder.Proofs.Flags
import IncludeOrder.Proofs.FmtCommand
import IncludeOrder.Proofs.Lines
import Mathlib

/-!
# IncludeOrder.Proofs.Verbosity

How much is printed is all that the flags for it decide. Each piece of the output is printed for each
verbosity in its own extent: none of it if the run is quiet, and all that is printed without flags if it
is verbose (`Graded`). The command with any verbosity comes to the same result, errors and tree, and its
output is made of such pieces (`runFmt_graded`). The same then holds of the program, wherever among its
arguments the flags are given (`fmt_verbosity`).
-/

namespace IncludeOrder

open Edit (terminated)

/-! ## Lines of an output -/

namespace Text

/-- A line that is printed can hold line feeds, and then it is several. -/
theorem lines_terminated (ls : List Line) : lines (terminated ls) = ls.flatMap lines ++ [[]] := by
  induction ls with
  | nil => rfl
  | cons l ls ih =>
    rw [Edit.terminated_cons, lines, List.splitOn_append_cons_self, ← lines, ← lines, ih,
      List.flatMap_cons, List.append_assoc]

theorem lines_terminated_sublist {ls ms : List Line} (h : ls.Sublist ms) :
    (lines (terminated ls)).Sublist (lines (terminated ms)) := by
  rw [lines_terminated, lines_terminated]
  exact (h.flatMap lines).append_right [[]]

end Text

namespace CommandLine

variable {out out' : Verbosity → List Line} {colors : Bool} {v : Verbosity} {o : Options}

/-- Lines that are printed with each verbosity: none with the least, and with the greatest at least those
that are printed in between. -/
structure Graded (out : Verbosity → List Line) : Prop where
  quiet : out .quiet = []
  grows : (out .normal).Sublist (out .verbose)

theorem graded_nil : Graded fun _ => [] := ⟨rfl, .slnil⟩

/-- Lines that are printed unless the run is quiet. -/
theorem graded_loud (ls : List Line) : Graded fun v => if v = .quiet then [] else ls :=
  ⟨rfl, .refl ls⟩

theorem Graded.append (h : Graded out) (h' : Graded out') : Graded fun v => out v ++ out' v := by
  refine ⟨?_, h.grows.append h'.grows⟩
  rw [h.quiet, h'.quiet, List.nil_append]

theorem graded_flatMap {α : Type} {out : Verbosity → α → List Line} (xs : List α)
    (h : ∀ x, Graded (out · x)) : Graded fun v => xs.flatMap (out v) := by
  refine ⟨?_, List.Sublist.flatMap_right xs fun x _ => (h x).grows⟩
  exact List.flatMap_eq_nil_iff.2 fun x _ => (h x).quiet

/-! ## What is printed -/

namespace Console

/-- Prints some lines to the output and to the error output. -/
def print (c : Console) (ls es : List Line) : Console :=
  ⟨c.output ++ terminated ls, c.errors ++ terminated es⟩

@[simp] theorem print_nil (c : Console) : c.print [] [] = c := by
  simp [print]

theorem print_print (c : Console) (ls ms es fs : List Line) :
    (c.print ls es).print ms fs = c.print (ls ++ ms) (es ++ fs) := by
  simp [print]

theorem foldl_say (ls : List Line) (c : Console) : ls.foldl say c = c.print ls [] := by
  induction ls generalizing c with
  | nil => simp [print]
  | cons l ls ih =>
    rw [List.foldl_cons, ih]
    simp [print, say, write]

end Console

/-- The lines that an outcome adds to the output. -/
def spoken (colors : Bool) (o : Options) (v : Verbosity) (x : Outcome) : List Line :=
  match x.status with
  | .failed => []
  | .sorted => if v = .quiet then [] else outcomeLines colors o x
  | _ => if v = .verbose then outcomeLines colors o x else []

/-- The line that an outcome adds to the errors. -/
def warned (colors : Bool) (x : Outcome) : List Line :=
  if x.status = .failed then
    [[' ', ' '] ++ Paint.painted colors .boldRed (Text.ofString "[FAILED]") ++
      ' ' :: x.message?.getD []]
  else []

theorem graded_spoken (x : Outcome) : Graded (spoken colors o · x) := by
  unfold spoken
  cases x.status with
  | failed => exact graded_nil
  | sorted => exact graded_loud _
  | unchanged => exact ⟨rfl, List.nil_sublist _⟩
  | noIncludes => exact ⟨rfl, List.nil_sublist _⟩

theorem showOutcome_eq (c : Console) (x : Outcome) :
    showOutcome colors v o c x = c.print (spoken colors o v x) (warned colors x) := by
  unfold showOutcome spoken warned
  cases x.status with
  | failed => simp [Console.print, Console.warn, Console.complain]
  | sorted => cases v <;> simp [Console.foldl_say, Console.print]
  | unchanged => cases v <;> simp [Console.foldl_say, Console.print]
  | noIncludes => cases v <;> simp [Console.foldl_say, Console.print]

theorem foldl_showOutcome (os : List Outcome) (c : Console) :
    os.foldl (showOutcome colors v o) c =
      c.print (os.flatMap (spoken colors o v)) (os.flatMap (warned colors)) := by
  induction os generalizing c with
  | nil => simp [Console.print]
  | cons x os ih =>
    rw [List.foldl_cons, showOutcome_eq, ih, Console.print_print, List.flatMap_cons, List.flatMap_cons]

/-- The line before the first file. -/
def headLines (colors : Bool) (o : Options) (v : Verbosity) : List Line :=
  if v = .quiet then [] else (modeLine? o).toList.map (Paint.painted colors .yellow)

theorem announced_eq : announced colors v o = Console.empty.print (headLines colors o v) [] := by
  unfold announced headLines
  split
  · rfl
  · cases modeLine? o <;> simp [Console.print, Console.say, Console.write]

/-- The lines behind the last file. -/
def tailLines (colors : Bool) (r : Report) (v : Verbosity) : List Line :=
  if v = .quiet then [] else summaryLines colors r

theorem closed_eq (r : Report) (c : Console) :
    (if v = .quiet then c else (summaryLines colors r).foldl Console.say c) =
      c.print (tailLines colors r v) [] := by
  unfold tailLines
  split
  · simp
  · exact Console.foldl_say _ c

/-- All lines of a run that has these outcomes. -/
def runLines (colors : Bool) (o : Options) (os : List Outcome) (v : Verbosity) : List Line :=
  headLines colors o v ++ os.flatMap (spoken colors o v) ++ tailLines colors (Report.ofOutcomes os) v

theorem graded_headLines : Graded (headLines colors o) := graded_loud _

theorem graded_runLines (os : List Outcome) : Graded (runLines colors o os) :=
  (graded_headLines.append (graded_flatMap os graded_spoken)).append (graded_loud _)

variable {base : Path} {exclude : List Text} {ps : List Path} {t : FileTree}

/-- A run that is not given up ends with its verdict, and has printed what it has to say about its
outcomes. -/
theorem runFmt_eq {c : Collection} (h : collected base exclude ps t = .ok c) {os : List Outcome}
    (hos : os = c.unlisted ++ outcomesOf o.writes t c.files) (v : Verbosity) :
    runFmt colors base v o exclude ps t =
      ⟨resultOf o (Report.ofOutcomes os),
        Console.empty.print (runLines colors o os v) (os.flatMap (warned colors)),
        treeAfter o.writes t c.files⟩ := by
  obtain ⟨settings, s, hl, hs, hc⟩ := collected_eq_ok.1 h
  subst hos
  simp only [runFmt, hl, hs, sortPaths_eq _ hc]
  rw [closed_eq, foldl_showOutcome, ← announced, announced_eq, Console.print_print,
    Console.print_print, List.append_nil, List.nil_append, runLines, List.append_assoc]

/-- The command comes to one result, tree and error output, whatever the verbosity is. -/
theorem runFmt_graded (colors : Bool) (base : Path) (o : Options) (exclude : List Text)
    (ps : List Path) (t : FileTree) :
    ∃ result tree out errors, Graded out ∧ ∀ v,
      runFmt colors base v o exclude ps t =
        ⟨result, Console.empty.print (out v) errors, tree⟩ := by
  cases hl : Settings.load t base with
  | error e => exact ⟨.error e, t, _, [], graded_nil, fun v => by simp only [runFmt, hl]; rfl⟩
  | ok settings =>
    cases hs : settings.selection exclude with
    | error e => exact ⟨.error e, t, _, [], graded_nil, fun v => by simp only [runFmt, hl, hs]; rfl⟩
    | ok s =>
      cases hc : collect t s (orHere ps) with
      | error e =>
        refine ⟨.error e, t, headLines colors o, [], graded_headLines, fun v => ?_⟩
        simp only [runFmt, hl, hs, sortPaths_eq_error _ hc]
        rw [← announced_eq, announced]
      | ok c =>
        exact ⟨_, _, _, _, graded_runLines _,
          runFmt_eq (collected_eq_ok.2 ⟨settings, s, hl, hs, hc⟩) rfl⟩

/-! ## The program -/

theorem Console.warn_eq (c : Console) (l : Line) : c.warn l = c.print [] [l] := by
  simp [print, warn, complain]

variable {s : Surroundings} {arguments arguments' : List Bytes} {i i' : Invocation}
variable {check dryRun : Bool}

/-- All invocations that sort the same files come to one end, but for the output. -/
theorem perform_graded (s : Surroundings) (base : Path) (ps : List Path) (check dryRun : Bool)
    (exclude : List Text) (t : FileTree) :
    ∃ code out errors tree failure?, Graded out ∧ ∀ arguments i,
      read s.base? arguments = .ok i → i.command = .fmt ps check dryRun exclude → baseOf s i = base →
      perform s arguments t = ⟨code, Console.empty.print (out i.verbosity) errors, tree, failure?⟩ := by
  obtain ⟨result, tree, out, errors, hout, hrun⟩ :=
    runFmt_graded s.colors base ⟨check, dryRun⟩ exclude ps t
  cases result with
  | ok u =>
    refine ⟨0, out, errors, tree, none, hout, fun arguments i h hc hb => ?_⟩
    simp only [perform, h, execute, hc, hb, hrun]
  | error f =>
    refine ⟨f.exitCode, out, errors ++ [failureLine s.colors f], tree, some f, hout,
      fun arguments i h hc hb => ?_⟩
    simp only [perform, h, execute, hc, hb, hrun]
    rw [Console.warn_eq, Console.print_print, List.append_nil]

/-- The lines of the output. -/
def Exit.outputLines (e : Exit) : List Line :=
  Text.lines e.console.output

/-- Two ways in which the program ends, which differ in the output at most. -/
structure Exit.OnlyOutput (e e' : Exit) : Prop where
  code : e'.code = e.code
  errors : e'.console.errors = e.console.errors
  tree : e'.tree = e.tree
  failure : e'.failure? = e.failure?

/-- From the end of a run without flags for it to that of one with some verbosity. -/
structure Exit.Muted (e e' : Exit) (v : Verbosity) : Prop where
  same : e.OnlyOutput e'
  quiet : v = .quiet → e'.console.output = []
  grows : v = .verbose → e.outputLines.Sublist e'.outputLines

theorem verbosity_normal (h : i.verbosity = .normal) : i.verbose = false ∧ i.quiet = false := by
  unfold Invocation.verbosity at h
  split at h
  · cases h
  · split at h
    · cases h
    · rename_i hq hv
      exact ⟨by simpa using hv, by simpa using hq⟩

/-- A run without flags for how much is printed, and a run with any of them. -/
theorem muted_of_read (t : FileTree) (h : read s.base? arguments = .ok i)
    (h' : read s.base? arguments' = .ok i') (hc : i.command = .fmt ps check dryRun exclude)
    (hc' : i'.command = i.command) (hb : baseOf s i' = baseOf s i) (hv : i.verbosity = .normal) :
    (perform s arguments t).Muted (perform s arguments' t) i'.verbosity := by
  obtain ⟨code, out, errors, tree, failure?, hout, hrun⟩ :=
    perform_graded s (baseOf s i) ps check dryRun exclude t
  rw [hrun arguments i h hc rfl, hrun arguments' i' h' (hc'.trans hc) hb, hv]
  refine ⟨⟨rfl, rfl, rfl, rfl⟩, fun hq => ?_, fun hl => ?_⟩
  · simp [hq, hout.quiet, Console.print, Console.empty]
  · rw [hl]
    simpa [Exit.outputLines, Console.print, Console.empty] using
      Text.lines_terminated_sublist hout.grows

/-- How much is printed is all that the flags for it decide. -/
theorem fmt_verbosity (s : Surroundings) (t : FileTree) (h : read s.base? arguments = .ok i)
    (hc : i.command = .fmt ps check dryRun exclude) (hv : i.verbosity = .normal) :
    (∀ fs : List Flag, fs.Nodup → (∀ f ∈ fs, f.Common) →
      (perform s arguments t).OnlyOutput (perform s (flagged fs arguments) t) ∧
      (.quiet ∈ fs → (perform s (flagged fs arguments) t).console.output = [])) ∧
    (perform s arguments t).outputLines.Sublist
      (perform s (flagged [.verbose] arguments) t).outputLines ∧
    ∀ arguments' i', read s.base? arguments' = .ok i' → i'.command = i.command →
      i'.base? = i.base? →
      (perform s arguments t).Muted (perform s arguments' t) i'.verbosity := by
  have hbase : ∀ i', i'.base? = i.base? → baseOf s i' = baseOf s i := by
    intro i' hb
    simp only [baseOf, hb]
  have hunmarked : ∀ f, i.marked f = false := by
    obtain ⟨hverbose, hquiet⟩ := verbosity_normal hv
    intro f
    cases f <;> first | rfl | assumption
  have hfront : ∀ fs : List Flag, fs.Nodup → (∀ f ∈ fs, f.Common) →
      (perform s arguments t).Muted (perform s (flagged fs arguments) t) (i.markAll fs).verbosity := by
    intro fs hfs hcommon
    exact muted_of_read t h (read_flagged hfs hcommon h fun f _ => hunmarked f) hc
      (Invocation.command_markAll i fs) (hbase _ (Invocation.base?_markAll i fs)) hv
  refine ⟨fun fs hfs hcommon => ⟨(hfront fs hfs hcommon).same, fun hq => ?_⟩, ?_, ?_⟩
  · refine (hfront fs hfs hcommon).quiet ?_
    have hmarked : (i.markAll fs).quiet = true :=
      (Invocation.marked_markAll i (.inr rfl) fs).2 (.inl hq)
    simp [Invocation.verbosity, hmarked]
  · have hcommon : ∀ f ∈ [Flag.verbose], f.Common := by simp [Flag.Common]
    refine (hfront [.verbose] (List.nodup_singleton _) hcommon).grows ?_
    simp [Invocation.verbosity, Invocation.markAll, Invocation.mark, (verbosity_normal hv).2]
  · intro arguments' i' h' hc' hb
    exact muted_of_read t h h' hc hc' (hbase i' hb) hv

/-- A file that is out of order, one in order, and one that is no text. -/
def mutedTree : FileTree where
  here := []
  entries :=
    [([Utf8.encode "a.c".toList],
        .file .full (Utf8.encode "#include <b>\n#include <a>\n".toList)),
     ([Utf8.encode "b.c".toList], .file .full (Utf8.encode "#include <a>\n\nint x;\n".toList)),
     ([Utf8.encode "k.c".toList], .file .full [0xE9])]

def mutedRun (arguments : List Bytes) : Exit :=
  perform ⟨false, none, none, [], .empty⟩ arguments mutedTree

def dryArguments : List Bytes := [word "fmt", word "--dry-run", word "."]

theorem fmt_verbosity_dry :
    ((mutedRun dryArguments).code, (mutedRun dryArguments).outputLines.length) = (1, 12) ∧
    (mutedRun (flagged [.verbose] dryArguments)).outputLines.length = 13 ∧
    (mutedRun dryArguments).outputLines.Sublist
      (mutedRun (flagged [.verbose] dryArguments)).outputLines ∧
    (mutedRun dryArguments).OnlyOutput (mutedRun (flagged [.verbose] dryArguments)) ∧
    (mutedRun dryArguments).OnlyOutput (mutedRun (flagged [.quiet, .verbose] dryArguments)) ∧
    (mutedRun (flagged [.quiet, .verbose] dryArguments)).console.output = [] := by
  have hread : read none dryArguments =
      .ok ⟨false, false, none, .fmt [⟨word "."⟩] false true []⟩ := rfl
  obtain ⟨hfront, hgrows, _⟩ :=
    fmt_verbosity ⟨false, none, none, [], .empty⟩ mutedTree hread rfl rfl
  have hloud := hfront [.verbose] (by decide) (by simp [Flag.Common])
  have hboth := hfront [.quiet, .verbose] (by decide) (by simp [Flag.Common])
  exact ⟨by cbv, by cbv, hgrows, hloud.1, hboth.1, hboth.2 (by simp)⟩

end CommandLine
end IncludeOrder
