import IncludeOrder.Proofs.Run
import Mathlib

/-!
# IncludeOrder.Proofs.WriteRun

The exact effect of a run that writes. What is where stays as it is, and, where the keys of paths tell
files apart, each outcome is what the file alone would give, a file that was sorted holds its sorted
text afterwards, and no other content changes (`WriteEffect`). A file met under two keys would be read
again after it was written.
-/

namespace IncludeOrder

/-- What a run that writes makes of the files of `t`, when it has collected `c`. -/
structure WriteEffect {σ : Type} (s : Selection) (t : FileTree) (c : Collection)
    (r : Progress σ) : Prop where
  outcomes_eq :
    r.report.outcomes = c.unlisted ++ c.files.map fun q => (outcomeOf true t q).1
  /-- A sorted file held a text, and now holds it as it comes out of a pipe. -/
  sorted : ∀ q ∈ c.files, (outcomeOf true t q).1.status = .sorted →
    ∃ p a b text, t.Holds q p a b ∧ Utf8.decode? b = some text ∧
      sortIncludes q text ≠ text ∧ sortPiped s q text = sortIncludes q text ∧
      r.tree.Holds q p a (Utf8.encode (sortIncludes q text)) ∧
      r.tree.readText q = .ok (sortIncludes q text)
  kept : ∀ p, (∀ q ∈ c.files, (outcomeOf true t q).1.status = .sorted → t.find q ≠ .ok p) →
    r.tree.entry? p = t.entry? p

/-- A file out of order, one that is no text, a link to the first one, and a file out of order that
may not be written. Below, the paths are the link and then the whole directory, in which the file
behind the link comes once more. -/
def linkedTree : FileTree where
  here := []
  entries :=
    [([Utf8.encode "a.c".toList],
        .file .full (Utf8.encode "#include <b>\n#include <a>\n".toList)),
     ([Utf8.encode "k.c".toList], .file .full [0xE9]),
     ([Utf8.encode "l.c".toList], .link (Path.ofText "a.c".toList)),
     ([Utf8.encode "r.c".toList],
        .file ⟨true, false, false⟩ (Utf8.encode "#include <b>\n#include <a>\n".toList))]

def linkedPaths : List Path :=
  [Path.ofText "l.c".toList, Path.ofText ".".toList]

end IncludeOrder
