import IncludeOrder.Failure

/-!
# IncludeOrder.Outcome

What a run has to say about one file, or about a directory that it could not list. A file that was out
of order comes with its block in order, a failed one with the cause, and no other with either of them:
`Verdict` holds each of them beside its own status only.

* `Status.label` — the tag under which an outcome is listed.
-/

namespace IncludeOrder

/-- Why a file or directory failed in a run. -/
inductive Cause where
  | failure (f : Failure)
  /-- The directory could not be listed. -/
  | unlisted (path : Path) (fault : FileFault)
deriving DecidableEq, Repr

def Cause.message : Cause → Text
  | .failure f => f.message
  | .unlisted p f =>
    Text.ofString "IO error for operation on " ++ p.shown ++ [':', ' '] ++ f.message

inductive Status where
  | sorted
  | unchanged
  | noIncludes
  | failed
deriving DecidableEq, Repr

/-- The tag of a status; a file that is only to be sorted later has one of its own. -/
def Status.label (writes : Bool) : Status → String
  | sorted => if writes then "SORTED" else "WOULD SORT"
  | unchanged => "OK"
  | noIncludes => "SKIP"
  | failed => "FAILED"

inductive Verdict where
  /-- The block was out of order; this is its text in order. -/
  | sorted (replacement : Text)
  | unchanged
  | noIncludes
  | failed (cause : Cause)
deriving DecidableEq, Repr

structure Outcome where
  path : Path
  verdict : Verdict
deriving DecidableEq, Repr

namespace Outcome

def status (o : Outcome) : Status :=
  match o.verdict with
  | .sorted _ => .sorted
  | .unchanged => .unchanged
  | .noIncludes => .noIncludes
  | .failed _ => .failed

def replacement? (o : Outcome) : Option Text :=
  match o.verdict with
  | .sorted r => some r
  | _ => none

def message? (o : Outcome) : Option Text :=
  match o.verdict with
  | .failed c => some c.message
  | _ => none

end Outcome

end IncludeOrder
