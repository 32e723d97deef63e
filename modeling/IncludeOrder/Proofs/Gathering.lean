import IncludeOrder.Proofs.Abort
import IncludeOrder.Proofs.Collected
import Mathlib

/-!
# IncludeOrder.Proofs.Gathering

The order of a collection. Collecting is one pass over the paths that keeps the keys of the files it has
met (`gather`); since these are the keys of the files it has listed (`withSeen`), the pass can be divided
anywhere. So the collection of two lists of paths is that of the first one, followed by what the second one
has beyond it (`collect_append`). The files of a directory come in the order of their names below it,
compared one after the other, which is not the order of their bytes (`collect_in_order`).
-/

namespace IncludeOrder

open FileTree (Found Key)
open IncludeOrder.Path (Plain)

variable {t : FileTree} {s : Selection} {c d : Collection} {p g f : Path} {fs : List Found}
variable {ps qs : List Path}

/-! ## One pass that keeps the keys -/

/-- A collection in the making, and the keys of the files met so far. -/
structure Gathering where
  collection : Collection
  seen : Finset Key

namespace Gathering

def push (t : FileTree) (x : Gathering) (p : Path) : Gathering :=
  if t.key p ∈ x.seen then x
  else ⟨{ x.collection with files := x.collection.files ++ [p] }, insert (t.key p) x.seen⟩

def take (t : FileTree) (s : Selection) (x : Gathering) : Found → Gathering
  | .file p => if s.targets p then x.push t p else x
  | .unlisted p e =>
    { x with collection := { x.collection with
        unlisted := x.collection.unlisted ++ [⟨p, .failed (.unlisted p e)⟩] } }

def takePath (t : FileTree) (s : Selection) (x : Gathering) (p : Path) :
    Except Failure Gathering :=
  match t.find p with
  | .error _ => .error (.pathNotFound p)
  | .ok place =>
    if t.isFileAt place then
      if s.targets p then .ok (x.push t p) else .error (.unsupportedFile p)
    else .ok ((t.walk s.skips place p).foldl (take t s) x)

def takePaths (t : FileTree) (s : Selection) (x : Gathering) :
    List Path → Except Failure Gathering
  | [] => .ok x
  | p :: ps =>
    match x.takePath t s p with
    | .error e => .error e
    | .ok y => y.takePaths t s ps

/-- The keys seen are those of the files listed. -/
def withSeen (t : FileTree) (c : Collection) : Gathering :=
  ⟨c, (c.files.map t.key).toFinset⟩

theorem push_withSeen (t : FileTree) (c : Collection) (p : Path) :
    (withSeen t c).push t p = withSeen t (c.addFile t p) := by
  by_cases hp : t.key p ∈ c.files.map t.key
  · simp [push, withSeen, Collection.addFile, hp]
  · simp [push, withSeen, Collection.addFile, hp]

theorem take_withSeen (t : FileTree) (s : Selection) (c : Collection) (x : Found) :
    (withSeen t c).take t s x = withSeen t (c.addFound t s x) := by
  cases x with
  | file p =>
    simp only [take, Collection.addFound, push_withSeen]
    split <;> rfl
  | unlisted p e => rfl

theorem foldl_take (t : FileTree) (s : Selection) (c : Collection) (fs : List Found) :
    fs.foldl (take t s) (withSeen t c) = withSeen t (fs.foldl (Collection.addFound t s) c) := by
  induction fs generalizing c with
  | nil => rfl
  | cons x fs ih => rw [List.foldl_cons, take_withSeen, ih, List.foldl_cons]

theorem takePath_withSeen (t : FileTree) (s : Selection) (c : Collection) (p : Path) :
    (withSeen t c).takePath t s p = (c.addPath t s p).map (withSeen t) := by
  cases hf : t.find p with
  | error e => simp only [takePath, Collection.addPath, hf, Except.map]
  | ok place =>
    by_cases hfile : t.isFileAt place = true
    · by_cases hs : s.targets p = true
      · simp only [takePath, Collection.addPath, hf, hfile, hs, if_true, push_withSeen, Except.map]
      · simp only [takePath, Collection.addPath, hf, hfile, hs, if_true, Except.map,
          Bool.false_eq_true, if_false]
    · simp only [takePath, Collection.addPath, hf, hfile, Bool.false_eq_true, if_false, Except.map]
      exact congrArg Except.ok (foldl_take t s c _)

theorem takePaths_withSeen (t : FileTree) (s : Selection) (c : Collection) (ps : List Path) :
    (withSeen t c).takePaths t s ps = (c.addPaths t s ps).map (withSeen t) := by
  induction ps generalizing c with
  | nil => rfl
  | cons p ps ih =>
    rw [takePaths, takePath_withSeen, Collection.addPaths]
    cases c.addPath t s p with
    | error e => rfl
    | ok c' => exact ih c'

end Gathering

def gather (t : FileTree) (s : Selection) (ps : List Path) : Except Failure Collection :=
  (Gathering.takePaths t s ⟨.empty, ∅⟩ ps).map Gathering.collection

theorem gather_eq_collect (t : FileTree) (s : Selection) (ps : List Path) :
    gather t s ps = collect t s ps := by
  have hpass := Gathering.takePaths_withSeen t s .empty ps
  rw [gather, collect]
  change (Gathering.takePaths t s (Gathering.withSeen t .empty) ps).map _ = _
  rw [hpass]
  cases Collection.empty.addPaths t s ps <;> rfl

/-! ## Two lists of paths -/

namespace Collection

/-- A collection behind another one, without the files that are there already. -/
def followedBy (t : FileTree) (c d : Collection) : Collection :=
  ⟨c.files ++ d.files.filter fun f => t.key f ∉ c.files.map t.key, c.unlisted ++ d.unlisted⟩

theorem followedBy_empty (t : FileTree) (c : Collection) : c.followedBy t .empty = c := by
  simp [followedBy, empty]

theorem mem_keys_followedBy {k : Key} :
    k ∈ (c.followedBy t d).files.map t.key ↔ k ∈ c.files.map t.key ∨ k ∈ d.files.map t.key := by
  constructor
  · intro hk
    rw [followedBy, List.map_append, List.mem_append] at hk
    exact hk.imp_right fun h => List.map_subset t.key (List.filter_subset_self _) h
  · intro hk
    rw [followedBy, List.map_append, List.mem_append]
    by_cases hc : k ∈ c.files.map t.key
    · exact .inl hc
    · obtain ⟨f, hf, rfl⟩ := List.mem_map.1 (hk.resolve_left hc)
      exact .inr (List.mem_map_of_mem (List.mem_filter.2 ⟨hf, by simpa using hc⟩))

theorem followedBy_addFile (t : FileTree) (c d : Collection) (p : Path) :
    (c.followedBy t d).addFile t p = c.followedBy t (d.addFile t p) := by
  simp only [addFile, List.contains_iff_mem, mem_keys_followedBy]
  by_cases hc : t.key p ∈ c.files.map t.key
  · -- the file is in front, and there stays nothing of it behind
    rw [if_pos (.inl hc)]
    split
    · rfl
    · rw [followedBy, followedBy, List.filter_append, List.filter_cons_of_neg (by simpa using hc),
        List.filter_nil, List.append_nil]
  · by_cases hd : t.key p ∈ d.files.map t.key
    · rw [if_pos (.inr hd), if_pos hd]
    · rw [if_neg (not_or.2 ⟨hc, hd⟩), if_neg hd, followedBy, followedBy, List.filter_append,
        List.filter_cons_of_pos (by simpa using hc), List.filter_nil, List.append_assoc]

theorem followedBy_addFound (t : FileTree) (s : Selection) (c d : Collection) (x : Found) :
    (c.followedBy t d).addFound t s x = c.followedBy t (d.addFound t s x) := by
  cases x with
  | file p =>
    simp only [addFound, followedBy_addFile]
    split <;> rfl
  | unlisted p e => simp [addFound, followedBy]

theorem followedBy_foldl (t : FileTree) (s : Selection) (c d : Collection) (fs : List Found) :
    fs.foldl (addFound t s) (c.followedBy t d) = c.followedBy t (fs.foldl (addFound t s) d) := by
  induction fs generalizing d with
  | nil => rfl
  | cons x fs ih => rw [List.foldl_cons, followedBy_addFound, ih, List.foldl_cons]

/-- Which paths are rejected does not depend on what is there already. -/
theorem followedBy_addPaths (t : FileTree) (s : Selection) (c d : Collection) (ps : List Path) :
    (c.followedBy t d).addPaths t s ps = (d.addPaths t s ps).map (c.followedBy t) := by
  cases hd : d.addPaths t s ps with
  | error e => exact addPaths_eq_error.2 (addPaths_eq_error.1 hd)
  | ok d' =>
    obtain ⟨haccepted, rfl⟩ := addPaths_eq_ok.1 hd
    exact addPaths_eq_ok.2 ⟨haccepted, followedBy_foldl t s c d _⟩

theorem addPaths_append (t : FileTree) (s : Selection) (c : Collection) (ps qs : List Path) :
    c.addPaths t s (ps ++ qs) = (c.addPaths t s ps).bind fun c' => c'.addPaths t s qs := by
  induction ps generalizing c with
  | nil => rfl
  | cons p ps ih =>
    rw [List.cons_append, addPaths, addPaths]
    cases c.addPath t s p with
    | error e => rfl
    | ok c' => exact ih c'

end Collection

theorem collect_append (t : FileTree) (s : Selection) (ps qs : List Path) :
    collect t s (ps ++ qs) =
      match collect t s ps, collect t s qs with
      | .error e, _ => .error e
      | .ok _, .error e => .error e
      | .ok c, .ok d => .ok (c.followedBy t d) := by
  simp only [collect, Collection.addPaths_append]
  cases Collection.empty.addPaths t s ps with
  | error e => rfl
  | ok c =>
    have hrest := Collection.followedBy_addPaths t s c .empty qs
    rw [Collection.followedBy_empty] at hrest
    simp only [Except.bind, hrest]
    cases Collection.empty.addPaths t s qs <;> rfl

/-! ## The files of one directory -/

namespace Collection

def file? : Found → Option Path
  | .file p => some p
  | .unlisted _ _ => none

theorem files_addFound (x : Found) :
    (c.addFound t s x).files.Sublist (c.files ++ (file? x).toList) := by
  cases x with
  | unlisted p e => simp [addFound, file?]
  | file p =>
    simp only [addFound, addFile, file?, Option.toList_some]
    split
    · split
      · exact List.sublist_append_left _ _
      · exact List.Sublist.refl _
    · exact List.sublist_append_left _ _

/-- Files are taken up in the order in which they are found. -/
theorem files_foldl :
    (fs.foldl (addFound t s) c).files.Sublist (c.files ++ fs.filterMap file?) := by
  induction fs generalizing c with
  | nil => simp
  | cons x fs ih =>
    have hx : (x :: fs).filterMap file? = (file? x).toList ++ fs.filterMap file? := by
      cases h : file? x <;> simp [h]
    rw [List.foldl_cons, hx, ← List.append_assoc]
    exact ih.trans ((files_addFound x).append_right _)

end Collection

theorem files_collect_directory (hg : t.isDirectory g = true) (hc : collect t s [g] = .ok c) :
    ∃ place, t.find g = .ok place ∧
      c.files.Sublist ((t.walk s.skips place g).filterMap Collection.file?) := by
  obtain ⟨place, hf, hdir⟩ : ∃ place, t.find g = .ok place ∧ t.isDirectoryAt place = true := by
    cases hf : t.find g with
    | error e => simp [FileTree.isDirectory, hf] at hg
    | ok place => exact ⟨place, rfl, by simpa [FileTree.isDirectory, hf] using hg⟩
  have hoffered : Collection.offered t s g = t.walk s.skips place g := by
    simp [Collection.offered, hf, FileTree.not_isFileAt_of_isDirectoryAt hdir]
  obtain ⟨_, rfl⟩ := collect_eq_ok.1 hc
  refine ⟨place, hf, ?_⟩
  rw [List.flatMap_singleton, hoffered]
  exact Collection.files_foldl

/-- The files collected below a directory are in the order of their names there. -/
theorem pairwise_files_collect (ht : t.Proper) (hg : t.isDirectory g = true)
    (hc : collect t s [g] = .ok c) :
    c.files.Pairwise fun f f' => g.below f < g.below f' := by
  obtain ⟨place, hf, hsub⟩ := files_collect_directory hg hc
  refine List.Pairwise.sublist hsub (List.pairwise_filterMap.2 ?_)
  refine (ht.pairwise_walkFrom (FileTree.bytes_ne_nil_of_find hf)).imp ?_
  intro x y hxy f hx f' hy
  cases x with
  | unlisted _ _ => cases hx
  | file _ =>
    cases y with
    | unlisted _ _ => cases hy
    | file _ =>
      cases hx
      cases hy
      exact hxy

/-- The files collected below a directory have its path, with names behind it. -/
theorem eq_foldl_join_of_mem_collect (ht : t.Proper) (hg : t.isDirectory g = true)
    (hc : collect t s [g] = .ok c) (hf : f ∈ c.files) :
    g.below f ≠ [] ∧ (∀ n ∈ g.below f, Plain n) ∧ f = (g.below f).foldl Path.join g := by
  obtain ⟨place, hfind, hsub⟩ := files_collect_directory hg hc
  obtain ⟨x, hx, hxf⟩ := List.mem_filterMap.1 (hsub.subset hf)
  cases x with
  | unlisted _ _ => cases hxf
  | file f' =>
    cases hxf
    obtain ⟨ns, hpath, hns, hne⟩ := ht.path_of_mem hx
    rw [Found.path] at hpath
    have hbelow : g.below f = ns := Path.below_eq <| by
      rw [hpath, Path.names_foldl_join (FileTree.bytes_ne_nil_of_find hfind) hns]
    rw [hbelow]
    exact ⟨hne f rfl, hns, hpath⟩

/-- A directory, and a file whose name has more behind the name of the directory. -/
def dottedTree : FileTree where
  here := []
  entries :=
    [([Utf8.encode "d".toList], .directory .full),
     ([Utf8.encode "a.c".toList, Utf8.encode "d".toList], .file .full []),
     ([Utf8.encode "a".toList, Utf8.encode "d".toList], .directory .full),
     ([Utf8.encode "x.c".toList, Utf8.encode "a".toList, Utf8.encode "d".toList],
        .file .full [])]

theorem collect_dottedTree :
    dottedTree.Proper ∧ dottedTree.isDirectory (Path.ofText "d".toList) = true ∧
      ∃ c, collect dottedTree .default [Path.ofText "d".toList] = .ok c ∧
        c.files = [Path.ofText "d/a/x.c".toList, Path.ofText "d/a.c".toList] := by
  have hcollect : (collect dottedTree .default [Path.ofText "d".toList]).toOption.map
      Collection.files =
        some [Path.ofText "d/a/x.c".toList, Path.ofText "d/a.c".toList] := by cbv
  refine ⟨by decide, by decide, ?_⟩
  cases hc : collect dottedTree .default [Path.ofText "d".toList] with
  | error e =>
    rw [hc] at hcollect
    cases hcollect
  | ok c =>
    rw [hc] at hcollect
    exact ⟨c, rfl, Option.some.inj hcollect⟩

/-- The collection of two lists of paths from the collections of each one, and the order of the files
of one directory: that of their names below it, and not that of their bytes. -/
theorem collect_in_order (t : FileTree) (s : Selection) :
    (∀ ps, gather t s ps = collect t s ps) ∧
    (∀ ps qs, collect t s (ps ++ qs) =
      match collect t s ps, collect t s qs with
      | .error e, _ => .error e
      | .ok _, .error e => .error e
      | .ok c, .ok d => .ok (c.followedBy t d)) ∧
    (t.Proper → ∀ g c, t.isDirectory g = true → collect t s [g] = .ok c →
      ∃ nss : List (List Name), c.files = nss.map (fun ns => ns.foldl Path.join g) ∧
        nss.Pairwise (· < ·) ∧ ∀ ns ∈ nss, ns ≠ [] ∧ ∀ n ∈ ns, Plain n) ∧
    ∃ t' g' c', t'.Proper ∧ t'.isDirectory g' = true ∧ collect t' .default [g'] = .ok c' ∧
      ¬ c'.files.Pairwise fun f f' => f.bytes < f'.bytes := by
  refine ⟨gather_eq_collect t s, collect_append t s, ?_, ?_⟩
  · intro ht g c hg hc
    have hmem : ∀ f ∈ c.files, f = (g.below f).foldl Path.join g := fun f hf =>
      (eq_foldl_join_of_mem_collect ht hg hc hf).2.2
    refine ⟨c.files.map g.below, ?_, List.pairwise_map.2 (pairwise_files_collect ht hg hc), ?_⟩
    · rw [List.map_map]
      exact (List.map_id' _).symm.trans (List.map_congr_left hmem)
    · intro ns hns
      obtain ⟨f, hf, rfl⟩ := List.mem_map.1 hns
      obtain ⟨hne, hplain, _⟩ := eq_foldl_join_of_mem_collect ht hg hc hf
      exact ⟨hne, hplain⟩
  · obtain ⟨hproper, hdir, c, hc, hfiles⟩ := collect_dottedTree
    refine ⟨dottedTree, _, c, hproper, hdir, hc, ?_⟩
    rw [hfiles]
    decide

theorem collect_in_order_dotted :
    dottedTree.Proper ∧ ∃ c, collect dottedTree .default [Path.ofText "d".toList] = .ok c ∧
      ∃ nss : List (List Name),
        c.files = nss.map (fun ns => ns.foldl Path.join (Path.ofText "d".toList)) ∧
        nss.Pairwise (· < ·) ∧ ∀ ns ∈ nss, ns ≠ [] ∧ ∀ n ∈ ns, Plain n := by
  obtain ⟨hproper, hdir, c, hc, _⟩ := collect_dottedTree
  exact ⟨hproper, c, hc, (collect_in_order dottedTree .default).2.2.1 hproper _ c hdir hc⟩

end IncludeOrder
