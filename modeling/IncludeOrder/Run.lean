import IncludeOrder.Collection
import IncludeOrder.Edit
import IncludeOrder.FileTree.Files

/-!
# IncludeOrder.Run

A run sorts the includes of files. Its paths are first expanded into files, so that a bad path ends
the run before anything is written. Then the files are taken one after the other; one that fails is
reported and the run goes on.

* `sortFile`  — one file.
* `sortPaths` — all files under some paths, with a report.
* `sortPiped` — text without a file.
-/

namespace IncludeOrder

structure Options where
  check : Bool
  dryRun : Bool
deriving DecidableEq, Repr

/-- Files are written unless they are only checked or only shown. -/
def Options.writes (o : Options) : Bool :=
  !o.check && !o.dryRun

/-- One file. Nothing is written if the text stays the same. -/
def sortFile (write : Bool) (t : FileTree) (p : Path) : Except Failure Outcome × FileTree :=
  match t.readText p with
  | .error e => (.error (.fileAccess p e), t)
  | .ok text =>
    match Edit.ofText? p text with
    | none => (.ok ⟨p, .noIncludes⟩, t)
    | some e =>
      if e.isNoop text then (.ok ⟨p, .unchanged⟩, t)
      else if write then
        match t.write p (Utf8.encode (e.apply text)) with
        | .error f => (.error (.fileAccess p f), t)
        | .ok t' => (.ok ⟨p, .sorted e.newText⟩, t')
      else (.ok ⟨p, .sorted e.newText⟩, t)

/-- One file in a run, where a failure is an outcome. -/
def outcomeOf (write : Bool) (t : FileTree) (p : Path) : Outcome × FileTree :=
  match sortFile write t p with
  | (.error f, t') => (⟨p, .failed (.failure f)⟩, t')
  | (.ok o, t') => (o, t')

structure Report where
  sorted : Nat
  unchanged : Nat
  noIncludes : Nat
  failed : Nat
  outcomes : List Outcome

namespace Report

def empty : Report := ⟨0, 0, 0, 0, []⟩

def record (r : Report) (o : Outcome) : Report :=
  let r := { r with outcomes := r.outcomes ++ [o] }
  match o.status with
  | .sorted => { r with sorted := r.sorted + 1 }
  | .unchanged => { r with unchanged := r.unchanged + 1 }
  | .noIncludes => { r with noIncludes := r.noIncludes + 1 }
  | .failed => { r with failed := r.failed + 1 }

def total (r : Report) : Nat :=
  r.outcomes.length

end Report

/-- A run under way: its report, what `notify` has made of the outcomes, and the tree. -/
structure Progress (σ : Type) where
  report : Report
  told : σ
  tree : FileTree

namespace Progress

variable {σ : Type}

def tell (notify : σ → Outcome → σ) (r : Progress σ) (o : Outcome) : Progress σ :=
  { r with report := r.report.record o, told := notify r.told o }

def takeFile (notify : σ → Outcome → σ) (write : Bool) (r : Progress σ) (p : Path) : Progress σ :=
  match outcomeOf write r.tree p with
  | (o, t) => { r with tree := t }.tell notify o

end Progress

/-- The directories that could not be listed come first, then the files. `notify` is told each
outcome as it comes. -/
def sortPaths {σ : Type} (s : Selection) (o : Options) (notify : σ → Outcome → σ) (start : σ)
    (t : FileTree) (ps : List Path) : Except Failure (Progress σ) :=
  match collect t s ps with
  | .error e => .error e
  | .ok c =>
    .ok (c.files.foldl (Progress.takeFile notify o.writes)
      (c.unlisted.foldl (Progress.tell notify) ⟨.empty, start, t⟩))

/-- The text of a file that is no target stays as it is. -/
def sortPiped (s : Selection) (file : Path) (t : Text) : Text :=
  if s.targets file then sortIncludes file t else t

end IncludeOrder
