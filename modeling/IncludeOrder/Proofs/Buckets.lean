import IncludeOrder.Proofs.Arrangement

/-!
# IncludeOrder.Proofs.Buckets

The arrangement in one pass over the lines. There is a bucket for each category; a line that is not
blank goes into the first bucket of its category, behind the lines that are there, and at the end the
buckets are sorted and emptied in turn. No category has two buckets, so each bucket holds the lines
of its category as they came (`foldl_takeLine`), and emptying them gives the arrangement
(`emptied_buckets`).
-/

namespace IncludeOrder
namespace Arrangement

open Text (isBlank)

abbrev Bucket := Category × List Line

/-- The line goes into the first bucket of its category, if there is one. -/
def intoBucket (file : Path) (l : Line) : List Bucket → List Bucket
  | [] => []
  | (c, ms) :: bs =>
    if Category.ofLine file l = c then (c, ms ++ [l]) :: bs
    else (c, ms) :: intoBucket file l bs

def takeLine (file : Path) (bs : List Bucket) (l : Line) : List Bucket :=
  if isBlank l then bs else intoBucket file l bs

/-- The buckets after all lines. -/
def buckets (file : Path) (ls : List Line) : List Bucket :=
  ls.foldl (takeLine file) (Category.all.map fun c => (c, []))

/-- The lines of the buckets, each bucket sorted and closed. -/
def emptied (bs : List Bucket) : List Line :=
  bs.flatMap fun b => closed (b.2.mergeSort keyLe)

variable {file : Path} {cs : List Category} {f : Category → List Line}

theorem intoBucket_eq (hcs : cs.Nodup) (l : Line) :
    intoBucket file l (cs.map fun c => (c, f c)) =
      cs.map fun c => (c, if Category.ofLine file l = c then f c ++ [l] else f c) := by
  induction cs with
  | nil => rfl
  | cons c cs ih =>
    rw [List.nodup_cons] at hcs
    rw [List.map_cons, List.map_cons, intoBucket]
    by_cases hc : Category.ofLine file l = c
    · -- the buckets behind this one are of other categories
      have hrest : (cs.map fun d => (d, if Category.ofLine file l = d then f d ++ [l] else f d)) =
          cs.map fun d => (d, f d) := by
        refine List.map_congr_left fun d hd => ?_
        have hne : Category.ofLine file l ≠ d := by
          rintro rfl
          exact hcs.1 (hc ▸ hd)
        rw [if_neg hne]
      rw [if_pos hc, if_pos hc, hrest]
    · rw [if_neg hc, if_neg hc, ih hcs.2]

/-- One more line, in buckets that hold what `f` gives. -/
theorem takeLine_eq (hcs : cs.Nodup) (l : Line) :
    takeLine file (cs.map fun c => (c, f c)) l =
      cs.map fun c =>
        (c, f c ++ [l].filter fun m => !isBlank m && Category.ofLine file m = c) := by
  unfold takeLine
  by_cases hb : isBlank l = true
  · simp [hb]
  · rw [if_neg hb, intoBucket_eq hcs]
    refine List.map_congr_left fun c _ => ?_
    by_cases hc : Category.ofLine file l = c <;> simp [hb, hc]

theorem foldl_takeLine (hcs : cs.Nodup) (ls : List Line) :
    ls.foldl (takeLine file) (cs.map fun c => (c, f c)) =
      cs.map fun c =>
        (c, f c ++ ls.filter fun m => !isBlank m && Category.ofLine file m = c) := by
  induction ls generalizing f with
  | nil => simp
  | cons l ls ih =>
    rw [List.foldl_cons, takeLine_eq hcs, ih]
    refine List.map_congr_left fun c _ => ?_
    rw [List.append_assoc, ← List.filter_append, List.singleton_append]

theorem emptied_buckets (file : Path) (ls : List Line) :
    emptied (buckets file ls) = arranged file ls := by
  rw [buckets, foldl_takeLine (by decide), emptied, List.flatMap_map]
  rfl

end Arrangement
end IncludeOrder
