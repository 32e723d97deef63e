import IncludeOrder.Collection
import IncludeOrder.Proofs.Outline

/-!
# IncludeOrder.Proofs.Collection

What holds of every collection: no two of its files are one file under two paths, all of them are
targets, and what it could not list failed (`collect_sound`). It is kept by each step of the
collecting, from one entry of a walk up to all given paths. A collecting fails only for a given path
(`collect_error`), and it looks at the outline of the tree alone (`collect_congr`).
-/

namespace IncludeOrder
namespace Collection

variable {t : FileTree} {s : Selection} {c : Collection}

/-- The invariant of a collection in a tree. -/
structure Sound (t : FileTree) (s : Selection) (c : Collection) : Prop where
  distinct : (c.files.map t.key).Nodup
  targets : ∀ q ∈ c.files, s.targets q = true
  failed : ∀ x ∈ c.unlisted, x.status = .failed

theorem Sound.empty (t : FileTree) (s : Selection) : Sound t s Collection.empty :=
  ⟨List.nodup_nil, fun _ h => absurd h List.not_mem_nil, fun _ h => absurd h List.not_mem_nil⟩

theorem Sound.addFile (h : Sound t s c) {q : Path} (hq : s.targets q = true) :
    Sound t s (c.addFile t q) := by
  simp only [Collection.addFile]
  split
  · exact h
  · rename_i hnew
    refine ⟨?_, ?_, h.failed⟩
    · have hkey : ∀ k ∈ c.files.map t.key, k ≠ t.key q := by
        rintro k hk rfl
        exact hnew (by simpa using hk)
      rw [List.map_append, List.nodup_append]
      refine ⟨h.distinct, by simp, fun k hk m hm => ?_⟩
      rw [List.map_singleton, List.mem_singleton] at hm
      exact hm ▸ hkey k hk
    · intro r hr
      rcases List.mem_append.1 hr with hr | hr
      · exact h.targets r hr
      · rw [List.mem_singleton.1 hr]
        exact hq

theorem Sound.addFound (h : Sound t s c) (f : FileTree.Found) : Sound t s (c.addFound t s f) := by
  cases f with
  | file q =>
    simp only [Collection.addFound]
    split
    · rename_i hq
      exact h.addFile hq
    · exact h
  | unlisted q e =>
    refine ⟨h.distinct, h.targets, fun x hx => ?_⟩
    rcases List.mem_append.1 hx with hx | hx
    · exact h.failed x hx
    · rw [List.mem_singleton.1 hx]
      rfl

theorem Sound.foldl_addFound (fs : List FileTree.Found) (h : Sound t s c) :
    Sound t s (fs.foldl (Collection.addFound t s) c) := by
  induction fs generalizing c with
  | nil => exact h
  | cons f fs ih => exact ih (h.addFound f)

theorem Sound.addPath (h : Sound t s c) {q : Path} {c' : Collection}
    (hc : c.addPath t s q = .ok c') : Sound t s c' := by
  simp only [Collection.addPath] at hc
  split at hc
  · cases hc
  · split at hc
    · split at hc
      · rename_i hq
        cases hc
        exact h.addFile hq
      · cases hc
    · cases hc
      exact h.foldl_addFound _

theorem Sound.addPaths (ps : List Path) (h : Sound t s c) {c' : Collection}
    (hc : c.addPaths t s ps = .ok c') : Sound t s c' := by
  induction ps generalizing c with
  | nil =>
    cases hc
    exact h
  | cons p ps ih =>
    simp only [Collection.addPaths] at hc
    split at hc
    · cases hc
    · rename_i d hd
      exact ih (h.addPath hd) hc

theorem addPath_error {q : Path} {e : Failure} (h : c.addPath t s q = .error e) :
    e = .pathNotFound q ∨ e = .unsupportedFile q := by
  simp only [Collection.addPath] at h
  split at h
  · cases h
    exact .inl rfl
  · split at h
    · split at h
      · cases h
      · cases h
        exact .inr rfl
    · cases h

theorem addPaths_error (ps : List Path) {e : Failure} (h : c.addPaths t s ps = .error e) :
    ∃ q ∈ ps, e = .pathNotFound q ∨ e = .unsupportedFile q := by
  induction ps generalizing c with
  | nil => cases h
  | cons p ps ih =>
    simp only [Collection.addPaths] at h
    split at h
    · rename_i hd
      cases h
      exact ⟨p, List.mem_cons_self, addPath_error hd⟩
    · obtain ⟨q, hq, he⟩ := ih h
      exact ⟨q, List.mem_cons_of_mem p hq, he⟩

section

variable {t' : FileTree} (h : t'.outline = t.outline)
include h

theorem addFile_congr (c : Collection) (q : Path) : c.addFile t' q = c.addFile t q := by
  have hkey : t'.key = t.key := funext (FileTree.key_congr h)
  simp only [addFile, hkey]

theorem addFound_congr (s : Selection) : addFound t' s = addFound t s := by
  funext c f
  cases f with
  | file q => simp only [addFound, addFile_congr h]
  | unlisted q e => rfl

theorem addPath_congr (s : Selection) (c : Collection) (q : Path) :
    c.addPath t' s q = c.addPath t s q := by
  simp only [addPath, FileTree.find_congr h, FileTree.isFileAt_congr h, FileTree.walk_congr h,
    addFile_congr h, addFound_congr h]

theorem addPaths_congr (s : Selection) (c : Collection) (ps : List Path) :
    c.addPaths t' s ps = c.addPaths t s ps := by
  induction ps generalizing c with
  | nil => rfl
  | cons p ps ih => simp only [addPaths, addPath_congr h, ih]

end

end Collection

theorem collect_congr {t t' : FileTree} (h : t'.outline = t.outline) (s : Selection)
    (ps : List Path) : collect t' s ps = collect t s ps :=
  Collection.addPaths_congr h s Collection.empty ps

theorem collect_sound {t : FileTree} {s : Selection} {ps : List Path} {c : Collection}
    (h : collect t s ps = .ok c) : Collection.Sound t s c :=
  (Collection.Sound.empty t s).addPaths ps h

theorem collect_error {t : FileTree} {s : Selection} {ps : List Path} {e : Failure}
    (h : collect t s ps = .error e) : ∃ q ∈ ps, e = .pathNotFound q ∨ e = .unsupportedFile q :=
  Collection.addPaths_error ps h

end IncludeOrder
