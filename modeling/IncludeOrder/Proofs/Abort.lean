import IncludeOrder.Proofs.FmtCommand
import Mathlib

/-!
# IncludeOrder.Proofs.Abort

Runs that are given up. A run fails for the first of its paths that is rejected, and for nothing else
(`sortPaths_eq_error_iff`).

That such a run has done nothing is said of its steps. `next` takes a run one step further: one more
path is expanded, one more outcome told, one more file sorted. The steps lead where `sortPaths` leads
(`sortPaths_eq_iff`), and no step before a run is given up has told or written anything (`untouched`),
because sorting begins only when no path is left that could be rejected (`Runs.of_sorting`).
-/

namespace IncludeOrder

variable {t : FileTree} {s : Selection} {c c' : Collection} {p : Path} {ps : List Path}
variable {e : Failure}

/-! ## Rejected paths -/

/-- A path is rejected if it leads nowhere, or leads to a file and is no target. -/
inductive Rejected (t : FileTree) (s : Selection) (p : Path) : Failure → Prop
  | missing (h : t.pathExists p = false) : Rejected t s p (.pathNotFound p)
  | unsupported (h : t.isFile p = true) (hs : s.targets p = false) :
      Rejected t s p (.unsupportedFile p)

/-- The first rejected path, wherever it stands, and why it is rejected. -/
def FirstRejected (t : FileTree) (s : Selection) (ps : List Path) (e : Failure) : Prop :=
  ∃ before p after, ps = before ++ p :: after ∧ (∀ q ∈ before, ∀ f, ¬ Rejected t s q f) ∧
    Rejected t s p e

theorem firstRejected_cons :
    FirstRejected t s (p :: ps) e ↔
      Rejected t s p e ∨ (∀ f, ¬ Rejected t s p f) ∧ FirstRejected t s ps e := by
  constructor
  · rintro ⟨before, q, after, hps, hbefore, hq⟩
    cases before with
    | nil =>
      cases hps
      exact .inl hq
    | cons r before =>
      cases hps
      obtain ⟨hr, hrest⟩ := List.forall_mem_cons.1 hbefore
      exact .inr ⟨hr, before, q, after, rfl, hrest, hq⟩
  · rintro (hp | ⟨hno, before, q, after, rfl, hbefore, hq⟩)
    · exact ⟨[], p, ps, rfl, by simp, hp⟩
    · exact ⟨p :: before, q, after, rfl, List.forall_mem_cons.2 ⟨hno, hbefore⟩, hq⟩

namespace Collection

theorem addPath_eq_error : c.addPath t s p = .error e ↔ Rejected t s p e := by
  constructor
  · intro h
    simp only [addPath] at h
    split at h
    · rename_i hf
      cases h
      exact .missing (by simp [FileTree.pathExists, hf])
    · rename_i place hf
      split at h
      · rename_i hfile
        split at h
        · cases h
        · rename_i hs
          cases h
          exact .unsupported (by simpa [FileTree.isFile, hf] using hfile) (by simpa using hs)
      · cases h
  · intro h
    cases h with
    | missing hp =>
      cases hf : t.find p with
      | error f => simp [addPath, hf]
      | ok place => simp [FileTree.pathExists, hf] at hp
    | unsupported hfile hs =>
      cases hf : t.find p with
      | error f => simp [FileTree.isFile, hf] at hfile
      | ok place =>
        have hfile' : t.isFileAt place = true := by simpa [FileTree.isFile, hf] using hfile
        simp [addPath, hf, hfile', hs]

theorem addPaths_eq_error : c.addPaths t s ps = .error e ↔ FirstRejected t s ps e := by
  induction ps generalizing c with
  | nil => simp [addPaths, FirstRejected]
  | cons p ps ih =>
    rw [addPaths, firstRejected_cons]
    cases h : c.addPath t s p with
    | error f =>
      have hf : Rejected t s p f := addPath_eq_error.1 h
      constructor
      · intro he
        cases he
        exact .inl hf
      · rintro (hp | ⟨hno, _⟩)
        · exact h.symm.trans (addPath_eq_error.2 hp)
        · exact absurd hf (hno f)
    | ok c' =>
      have hno : ∀ f, ¬ Rejected t s p f := by
        intro f hf
        rw [addPath_eq_error.2 hf] at h
        cases h
      refine ih.trans ⟨fun hrest => .inr ⟨hno, hrest⟩, ?_⟩
      rintro (hp | ⟨_, hrest⟩)
      · exact absurd hp (hno e)
      · exact hrest

end Collection

/-! ## Steps -/

/-- What a run is about to do. -/
inductive Stage where
  /-- To expand the paths that are left. -/
  | collecting (c : Collection) (paths : List Path)
  /-- To tell the outcomes, and then to sort the files. -/
  | sorting (unlisted : List Outcome) (files : List Path)
  | aborted (e : Failure)

def Stage.Sorting : Stage → Prop
  | .sorting _ _ => True
  | _ => False

/-- A run between two steps. -/
structure Moment (σ : Type) where
  stage : Stage
  progress : Progress σ

variable {σ : Type}

/-- How the run has ended, if it has. -/
def Moment.result? : Moment σ → Option (Except Failure (Progress σ))
  | ⟨.aborted e, _⟩ => some (.error e)
  | ⟨.sorting [] [], r⟩ => some (.ok r)
  | _ => none

section

variable (s : Selection) (notify : σ → Outcome → σ) (write : Bool)

def next : Moment σ → Option (Moment σ)
  | ⟨.collecting c [], r⟩ => some ⟨.sorting c.unlisted c.files, r⟩
  | ⟨.collecting c (p :: ps), r⟩ =>
    match c.addPath r.tree s p with
    | .error e => some ⟨.aborted e, r⟩
    | .ok c' => some ⟨.collecting c' ps, r⟩
  | ⟨.sorting (x :: xs) fs, r⟩ => some ⟨.sorting xs fs, r.tell notify x⟩
  | ⟨.sorting [] (f :: fs), r⟩ => some ⟨.sorting [] fs, r.takeFile notify write f⟩
  | ⟨.sorting [] [], _⟩ => none
  | ⟨.aborted _, _⟩ => none

/-- Any number of steps lead from one moment to another. -/
def Runs (x y : Moment σ) : Prop :=
  Relation.ReflTransGen (fun a b => next s notify write a = some b) x y

/-- The first moment of a run. -/
def opening (start : σ) (t : FileTree) (ps : List Path) : Moment σ :=
  ⟨.collecting .empty ps, ⟨.empty, start, t⟩⟩

end

variable {notify : σ → Outcome → σ} {write : Bool} {r : Progress σ} {x y z : Moment σ}

/-! ## One step -/

theorem sorting_of_next (h : next s notify write x = some y) (hx : x.stage.Sorting) :
    y.stage.Sorting := by
  obtain ⟨stage, r⟩ := x
  cases stage with
  | collecting c ps => exact hx.elim
  | aborted e => exact hx.elim
  | sorting us fs =>
    cases us with
    | cons u us =>
      cases h
      trivial
    | nil =>
      cases fs with
      | cons f fs =>
        cases h
        trivial
      | nil => cases h

theorem progress_of_next (h : next s notify write x = some y) :
    y.stage.Sorting ∨ y.progress = x.progress := by
  obtain ⟨stage, r⟩ := x
  cases stage with
  | sorting us fs => exact .inl (sorting_of_next h trivial)
  | aborted e => cases h
  | collecting c ps =>
    cases ps with
    | nil =>
      cases h
      exact .inl trivial
    | cons p ps =>
      simp only [next] at h
      split at h <;> cases h <;> exact .inr rfl

theorem next_eq_none (hx : x.result?.isSome = true) : next s notify write x = none := by
  obtain ⟨stage, r⟩ := x
  cases stage with
  | collecting c ps => cases hx
  | aborted e => rfl
  | sorting us fs =>
    cases us with
    | cons u us => cases hx
    | nil =>
      cases fs with
      | cons f fs => cases hx
      | nil => rfl

/-! ## Any number of steps -/

namespace Runs

theorem refl (x : Moment σ) : Runs s notify write x x :=
  Relation.ReflTransGen.refl

theorem cons (h : next s notify write x = some y) (hr : Runs s notify write y z) :
    Runs s notify write x z :=
  Relation.ReflTransGen.head h hr

theorem trans (h : Runs s notify write x y) (h' : Runs s notify write y z) :
    Runs s notify write x z :=
  Relation.ReflTransGen.trans h h'

/-- An ended run takes no step. -/
theorem eq_of_result (h : Runs s notify write x y) (hx : x.result?.isSome = true) : y = x := by
  rcases Relation.ReflTransGen.cases_head h with heq | ⟨z, hz, _⟩
  · exact heq.symm
  · rw [next_eq_none hx] at hz
    cases hz

/-- A run ends in one way. -/
theorem result_unique (h : Runs s notify write x y) (h' : Runs s notify write x z)
    (hy : y.result?.isSome = true) (hz : z.result?.isSome = true) : y = z := by
  have hunique : Relator.RightUnique fun a b : Moment σ => next s notify write a = some b :=
    fun _ _ _ hb hc => Option.some.inj (hb.symm.trans hc)
  rcases Relation.ReflTransGen.total_of_right_unique hunique h h' with hyz | hzy
  · exact (eq_of_result hyz hy).symm
  · exact eq_of_result hzy hz

/-! ## To the end -/

theorem collecting_error (h : c.addPaths r.tree s ps = .error e) :
    Runs s notify write ⟨.collecting c ps, r⟩ ⟨.aborted e, r⟩ := by
  induction ps generalizing c with
  | nil => cases h
  | cons p ps ih =>
    rw [Collection.addPaths] at h
    cases hp : c.addPath r.tree s p with
    | error f =>
      rw [hp] at h
      cases h
      exact cons (by simp only [next, hp]) (refl _)
    | ok c' =>
      rw [hp] at h
      exact cons (by simp only [next, hp]) (ih h)

theorem collecting_ok (h : c.addPaths r.tree s ps = .ok c') :
    Runs s notify write ⟨.collecting c ps, r⟩ ⟨.sorting c'.unlisted c'.files, r⟩ := by
  induction ps generalizing c with
  | nil =>
    cases h
    exact cons rfl (refl _)
  | cons p ps ih =>
    rw [Collection.addPaths] at h
    cases hp : c.addPath r.tree s p with
    | error f =>
      rw [hp] at h
      cases h
    | ok d =>
      rw [hp] at h
      exact cons (by simp only [next, hp]) (ih h)

theorem sorting_files (fs : List Path) :
    Runs s notify write ⟨.sorting [] fs, r⟩
      ⟨.sorting [] [], fs.foldl (Progress.takeFile notify write) r⟩ := by
  induction fs generalizing r with
  | nil => exact refl _
  | cons f fs ih => exact cons rfl ih

theorem sorting (us : List Outcome) (fs : List Path) :
    Runs s notify write ⟨.sorting us fs, r⟩
      ⟨.sorting [] [], fs.foldl (Progress.takeFile notify write)
        (us.foldl (Progress.tell notify) r)⟩ := by
  induction us generalizing r with
  | nil => exact sorting_files fs
  | cons u us ih => exact cons rfl ih

/-- A run that has begun to sort is not given up. -/
theorem of_sorting (h : Runs s notify write x y) (hx : x.stage.Sorting) : y.stage.Sorting := by
  induction h with
  | refl => exact hx
  | tail _ hstep ih => exact sorting_of_next hstep ih

/-- Until a run begins to sort, nothing is told or written. -/
theorem progress_eq (h : Runs s notify write x y) :
    y.stage.Sorting ∨ y.progress = x.progress := by
  induction h with
  | refl => exact .inr rfl
  | tail _ hstep ih =>
    rcases ih with hsorting | hprogress
    · exact .inl (sorting_of_next hstep hsorting)
    · exact (progress_of_next hstep).imp_right fun heq => heq.trans hprogress

end Runs

/-! ## Runs as a whole -/

theorem sortPaths_eq_error_iff (o : Options) (start : σ) :
    sortPaths s o notify start t ps = .error e ↔ FirstRejected t s ps e := by
  rw [← Collection.addPaths_eq_error (c := .empty), sortPaths, collect]
  cases Collection.empty.addPaths t s ps <;> simp

/-- The steps end, and with what the run results in. -/
theorem exists_runs (s : Selection) (o : Options) (notify : σ → Outcome → σ) (start : σ)
    (t : FileTree) (ps : List Path) :
    ∃ y, Runs s notify o.writes (opening start t ps) y ∧
      y.result? = some (sortPaths s o notify start t ps) := by
  cases h : Collection.empty.addPaths t s ps with
  | error e =>
    refine ⟨_, .collecting_error h, ?_⟩
    simp only [sortPaths, collect, h, Moment.result?]
  | ok c =>
    refine ⟨_, Runs.trans (.collecting_ok h) (.sorting c.unlisted c.files), ?_⟩
    simp only [sortPaths, collect, h, Moment.result?]

theorem sortPaths_eq_iff (o : Options) (start : σ) (x : Except Failure (Progress σ)) :
    sortPaths s o notify start t ps = x ↔
      ∃ y, Runs s notify o.writes (opening start t ps) y ∧ y.result? = some x := by
  obtain ⟨z, hz, hres⟩ := exists_runs s o notify start t ps
  constructor
  · rintro rfl
    exact ⟨z, hz, hres⟩
  · rintro ⟨y, hy, hx⟩
    have heq : z = y := hz.result_unique hy (by rw [hres]; rfl) (by rw [hx]; rfl)
    rw [heq, hx] at hres
    exact (Option.some.inj hres).symm

/-- At no moment of a run that is given up has anything been told or written. -/
theorem untouched {start : σ} (hx : Runs s notify write (opening start t ps) x)
    (hy : Runs s notify write x y) (he : y.result? = some (.error e)) :
    x.progress = ⟨.empty, start, t⟩ := by
  refine hx.progress_eq.resolve_left fun hsorting => ?_
  have hend : y.stage.Sorting := hy.of_sorting hsorting
  obtain ⟨stage, r⟩ := y
  cases stage with
  | collecting c ps => exact hend.elim
  | aborted e => exact hend.elim
  | sorting us fs =>
    cases us with
    | cons u us => cases he
    | nil =>
      cases fs with
      | cons f fs => cases he
      | nil => cases he

/-! ## The command -/

namespace CommandLine

/-- What the command prints before the first file: the line that says what kind of run it is. -/
def announced (colors : Bool) (v : Verbosity) (o : Options) : Console :=
  if v = .quiet then .empty
  else (modeLine? o).elim .empty fun l => Console.empty.say (Paint.painted colors .yellow l)

theorem resultOf_eq_error {o : Options} {r : Report} (h : resultOf o r = .error e) :
    ∃ n, e = .filesFailed n ∨ e = .notSorted n := by
  simp only [resultOf] at h
  split at h
  · cases h
    exact ⟨_, .inl rfl⟩
  · split at h
    · cases h
      exact ⟨_, .inr rfl⟩
    · cases h

variable {base : Path} {exclude : List Text} {colors : Bool} {v : Verbosity} {o : Options}

theorem console_of_collected_error (h : collected base exclude ps t = .error e) :
    (runFmt colors base v o exclude ps t).console = .empty ∨
      (runFmt colors base v o exclude ps t).console = announced colors v o := by
  cases hl : Settings.load t base with
  | error f =>
    left
    simp only [runFmt, hl]
  | ok settings =>
    cases hs : settings.selection exclude with
    | error f =>
      left
      simp only [runFmt, hl, hs]
    | ok s =>
      right
      simp only [collected, hl, hs] at h
      simp only [runFmt, hl, hs, sortPaths_eq_error _ h, announced]

/-- A command that fails, but not for its files, fails before the first one. -/
theorem collected_of_runFmt_error (h : (runFmt colors base v o exclude ps t).result = .error e)
    (he : ∀ n, e ≠ .filesFailed n ∧ e ≠ .notSorted n) :
    collected base exclude ps t = .error e := by
  cases hc : collected base exclude ps t with
  | error f =>
    rw [(runFmt_of_error colors v o hc).1] at h
    cases h
    rfl
  | ok c =>
    rw [(runFmt_of_ok colors v o hc).1] at h
    obtain ⟨n, hn | hn⟩ := resultOf_eq_error h
    · exact absurd hn (he n).1
    · exact absurd hn (he n).2

end CommandLine

open CommandLine in
/-- A run fails exactly for its first rejected path, whatever else it is given, and at no moment of such
a run has an outcome been told or a file been written. In the same way a command that fails, but not
for its files, leaves the tree as it was and has printed nothing on a file. -/
theorem sortPaths_aborts (s : Selection) (o : Options) (notify : σ → Outcome → σ) (start : σ)
    (t : FileTree) (ps : List Path) (colors : Bool) (base : Path) (v : Verbosity)
    (exclude : List Text) :
    (∀ e, sortPaths s o notify start t ps = .error e ↔ FirstRejected t s ps e) ∧
    (∀ x, sortPaths s o notify start t ps = x ↔
      ∃ y, Runs s notify o.writes (opening start t ps) y ∧ y.result? = some x) ∧
    (∀ x y e, Runs s notify o.writes (opening start t ps) x → Runs s notify o.writes x y →
      y.result? = some (.error e) → x.progress = ⟨.empty, start, t⟩) ∧
    (∀ e, (runFmt colors base v o exclude ps t).result = .error e →
      (∀ n, e ≠ .filesFailed n ∧ e ≠ .notSorted n) →
      (runFmt colors base v o exclude ps t).tree = t ∧
        ((runFmt colors base v o exclude ps t).console = .empty ∨
          (runFmt colors base v o exclude ps t).console = announced colors v o)) := by
  refine ⟨fun e => sortPaths_eq_error_iff o start, sortPaths_eq_iff o start,
    fun x y e hx hy he => untouched hx hy he, fun e h he => ?_⟩
  have hc := collected_of_runFmt_error h he
  exact ⟨(runFmt_of_error colors v o hc).2, console_of_collected_error hc⟩

/-- A directory with a file out of order, and no `b.c`. -/
def strayTree : FileTree where
  here := []
  entries :=
    [([Utf8.encode "d".toList], .directory .full),
     ([Utf8.encode "a.c".toList, Utf8.encode "d".toList],
        .file .full (Utf8.encode "#include <b>\n#include <a>\n".toList))]

def strayPath : Path := Path.ofText "b.c".toList

def strayPaths : List Path :=
  [Path.ofText "d".toList, strayPath]

def strayBase : Path := Path.ofText "s".toList

/-- The run has found the file of the first path when the second one is rejected. -/
theorem strayTree_steps :
    next .default (fun (n : Nat) _ => n + 1) true (opening 0 strayTree strayPaths) =
        some ⟨.collecting ⟨[Path.ofText "d/a.c".toList], []⟩ [strayPath], ⟨.empty, 0, strayTree⟩⟩ ∧
      next .default (fun (n : Nat) _ => n + 1) true
          ⟨.collecting ⟨[Path.ofText "d/a.c".toList], []⟩ [strayPath], ⟨.empty, 0, strayTree⟩⟩ =
        some ⟨.aborted (.pathNotFound strayPath), ⟨.empty, 0, strayTree⟩⟩ := by
  constructor <;> cbv

open CommandLine in
theorem sortPaths_aborts_stray :
    FirstRejected strayTree .default strayPaths (.pathNotFound strayPath) ∧
    (∃ x y, Runs .default (fun (n : Nat) _ => n + 1) true (opening 0 strayTree strayPaths) x ∧
      Runs .default (fun (n : Nat) _ => n + 1) true x y ∧
      x.stage = .collecting ⟨[Path.ofText "d/a.c".toList], []⟩ [strayPath] ∧
      y.result? = some (.error (.pathNotFound strayPath)) ∧
      x.progress = ⟨.empty, 0, strayTree⟩) ∧
    (runFmt false strayBase .normal ⟨false, false⟩ [] strayPaths strayTree).result =
        .error (.pathNotFound strayPath) ∧
      (runFmt false strayBase .normal ⟨false, false⟩ [] strayPaths strayTree).tree = strayTree := by
  obtain ⟨herror, _, huntouched, hcommand⟩ := sortPaths_aborts .default ⟨false, false⟩
    (fun (n : Nat) _ => n + 1) 0 strayTree strayPaths false strayBase .normal []
  obtain ⟨hfirst, hsecond⟩ := strayTree_steps
  have hrun : sortPaths .default ⟨false, false⟩ (fun (n : Nat) _ => n + 1) 0 strayTree strayPaths =
      .error (.pathNotFound strayPath) := by cbv
  have hresult : (runFmt false strayBase .normal ⟨false, false⟩ [] strayPaths strayTree).result =
      .error (.pathNotFound strayPath) := by cbv
  refine ⟨(herror _).1 hrun, ⟨_, _, .cons hfirst (.refl _), .cons hsecond (.refl _), rfl, rfl, ?_⟩,
    hresult, (hcommand _ hresult fun n => by simp).1⟩
  exact huntouched _ _ _ (.cons hfirst (.refl _)) (.cons hsecond (.refl _)) rfl

end IncludeOrder
