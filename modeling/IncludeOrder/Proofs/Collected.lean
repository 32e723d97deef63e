import IncludeOrder.Proofs.Collection
import IncludeOrder.Proofs.Descent
import Mathlib

/-!
# IncludeOrder.Proofs.Collected

Exactly what is collected. Each path has something to offer (`offered`): a file itself, a directory what
a walk finds below it. A collecting that does not fail takes up all offers, one after the other
(`collect_eq_ok`). So its files have the keys of the targets that are offered, each key once, and its
failures are the directories that could not be listed, each once for each path that leads down to it
(`collect_exact`).
-/

namespace IncludeOrder

open FileTree (Found)

variable {t : FileTree} {s : Selection} {c c' : Collection} {g f : Path} {k : FileTree.Key}
variable {fs : List Found} {ps : List Path}

/-- The names that a walk passes over. -/
def Selection.skips (s : Selection) (n : Name) : Bool :=
  s.excludes (Utf8.lossy n)

/-- From the directory that `g` leads to, down to the directory `d`, which is shown as `q`. -/
def Descends (t : FileTree) (s : Selection) (g : Path) (d : Place) (q : Path) : Prop :=
  ∃ p, t.find g = .ok p ∧ t.isDirectoryAt p = true ∧ t.Reaches s.skips p g d q

/-- A walk from `g` finds the file `f`. -/
def FindsFile (t : FileTree) (s : Selection) (g f : Path) : Prop :=
  ∃ d q, Descends t s g d q ∧ t.Shows s.skips d q (.file f)

theorem Descends.path_unique (ht : t.Proper) {d : Place} {q r : Path} (h : Descends t s g d q)
    (h' : Descends t s g d r) : q = r := by
  obtain ⟨p, hp, _, hr⟩ := h
  obtain ⟨p', hp', _, hr'⟩ := h'
  rw [hp] at hp'
  cases hp'
  exact hr.path_unique ht hr'

theorem Descends.place_unique (ht : t.Proper) {d d' : Place} {q : Path} (h : Descends t s g d q)
    (h' : Descends t s g d' q) : d = d' := by
  obtain ⟨p, hp, _, hr⟩ := h
  obtain ⟨p', hp', _, hr'⟩ := h'
  rw [hp] at hp'
  cases hp'
  exact hr.place_unique ht (FileTree.bytes_ne_nil_of_find hp) hr'

namespace Collection

/-! ## Offers -/

/-- What the collecting has to say about something found. -/
def outcome? : Found → Option Outcome
  | .file _ => none
  | .unlisted q e => some ⟨q, .failed (.unlisted q e)⟩

/-- What there is to be taken up for a path. -/
def offered (t : FileTree) (s : Selection) (g : Path) : List Found :=
  match t.find g with
  | .error _ => []
  | .ok p => if t.isFileAt p then [.file g] else t.walk s.skips p g

/-- The path does not fail: it leads somewhere, and if to a file, that is a target. -/
def Accepted (t : FileTree) (s : Selection) (g : Path) : Prop :=
  ∃ p, t.find g = .ok p ∧ (t.isFileAt p = true → s.targets g = true)

theorem addPath_eq_ok :
    c.addPath t s g = .ok c' ↔
      Accepted t s g ∧ (offered t s g).foldl (addFound t s) c = c' := by
  cases hf : t.find g with
  | error e => simp [addPath, Accepted, hf]
  | ok p =>
    by_cases hfile : t.isFileAt p = true
    · by_cases hs : s.targets g = true
      · simp [addPath, Accepted, offered, hf, hfile, hs, addFound]
      · simp [addPath, Accepted, hf, hfile, hs]
    · have hg : Accepted t s g := ⟨p, hf, fun h => absurd h hfile⟩
      simp only [addPath, offered, hf, hfile, hg, true_and, Bool.false_eq_true, if_false,
        Except.ok.injEq]
      rfl

theorem addPaths_eq_ok :
    c.addPaths t s ps = .ok c' ↔
      (∀ g ∈ ps, Accepted t s g) ∧ (ps.flatMap (offered t s)).foldl (addFound t s) c = c' := by
  induction ps generalizing c with
  | nil => simp [addPaths]
  | cons g ps ih =>
    rw [List.flatMap_cons, List.foldl_append, List.forall_mem_cons, addPaths]
    split
    · rename_i e he
      have hno : ¬ Accepted t s g := fun h => by rw [addPath_eq_ok.2 ⟨h, rfl⟩] at he; cases he
      simp [hno]
    · rename_i c₁ hc₁
      obtain ⟨hg, rfl⟩ := addPath_eq_ok.1 hc₁
      rw [ih]
      simp [hg]

theorem unlisted_addFound (x : Found) :
    (c.addFound t s x).unlisted = c.unlisted ++ (outcome? x).toList := by
  cases x with
  | file q =>
    simp only [addFound, addFile]
    split
    · split <;> simp [outcome?]
    · simp [outcome?]
  | unlisted q e => rfl

theorem unlisted_foldl :
    (fs.foldl (addFound t s) c).unlisted = c.unlisted ++ fs.filterMap outcome? := by
  induction fs generalizing c with
  | nil => simp
  | cons x fs ih =>
    rw [List.foldl_cons, ih, unlisted_addFound, List.append_assoc]
    cases hx : outcome? x <;> simp [hx]

theorem mem_files_foldl (h : f ∈ (fs.foldl (addFound t s) c).files) :
    f ∈ c.files ∨ .file f ∈ fs ∧ s.targets f = true := by
  induction fs generalizing c with
  | nil => exact .inl h
  | cons x fs ih =>
    rcases ih h with hc | ⟨hf, hs⟩
    · cases x with
      | unlisted q e => exact .inl hc
      | file q =>
        simp only [addFound, addFile] at hc
        split at hc
        · rename_i hq
          split at hc
          · exact .inl hc
          · rcases List.mem_append.1 hc with hc | hc
            · exact .inl hc
            · rw [List.mem_singleton.1 hc]
              exact .inr ⟨List.mem_cons_self, hq⟩
        · exact .inl hc
    · exact .inr ⟨List.mem_cons_of_mem x hf, hs⟩

theorem mem_keys_addFile :
    k ∈ (c.addFile t g).files.map t.key ↔ k ∈ c.files.map t.key ∨ k = t.key g := by
  simp only [addFile]
  split
  · rename_i hold
    -- the file is there already, under whatever path
    constructor
    · exact .inl
    · rintro (hk | rfl)
      · exact hk
      · simpa using hold
  · rw [List.map_append, List.mem_append, List.map_singleton, List.mem_singleton]

theorem mem_keys_addFound (x : Found) :
    k ∈ (c.addFound t s x).files.map t.key ↔
      k ∈ c.files.map t.key ∨ ∃ f, .file f = x ∧ s.targets f = true ∧ k = t.key f := by
  cases x with
  | unlisted q e => simp [addFound]
  | file q =>
    by_cases hs : s.targets q = true
    · simp [addFound, hs, mem_keys_addFile]
    · simp [addFound, hs]

theorem mem_keys_foldl :
    k ∈ (fs.foldl (addFound t s) c).files.map t.key ↔
      k ∈ c.files.map t.key ∨ ∃ f, .file f ∈ fs ∧ s.targets f = true ∧ k = t.key f := by
  induction fs generalizing c with
  | nil => simp
  | cons x fs ih =>
    rw [List.foldl_cons, ih, mem_keys_addFound, or_assoc]
    simp only [List.mem_cons, or_and_right, exists_or]

/-! ## What is offered -/

theorem mem_offered (ht : t.Proper) {x : Found} :
    x ∈ offered t s g ↔ (t.isFile g = true ∧ x = .file g) ∨
      ∃ d q, Descends t s g d q ∧ t.Shows s.skips d q x := by
  simp only [offered, FileTree.isFile, Descends]
  cases hf : t.find g with
  | error e => simp
  | ok p =>
    simp only [Except.ok.injEq, exists_eq_left']
    rcases ht.isFileAt_or_isDirectoryAt hf with hfile | hdir
    · have hnot : t.isDirectoryAt p ≠ true := by
        intro h
        rw [FileTree.not_isFileAt_of_isDirectoryAt h] at hfile
        cases hfile
      simp [hfile, hnot]
    · simp [FileTree.not_isFileAt_of_isDirectoryAt hdir, hdir, FileTree.mem_walk_iff ht hf hdir]

theorem file_mem_offered (ht : t.Proper) :
    .file f ∈ offered t s g ↔ (t.isFile g = true ∧ f = g) ∨ FindsFile t s g f := by
  rw [mem_offered ht, Found.file.injEq]
  rfl

theorem unlisted_mem_offered (ht : t.Proper) {q : Path} {e : FileFault} :
    .unlisted q e ∈ offered t s g ↔ ∃ d, Descends t s g d q ∧ t.list q = .error e := by
  rw [mem_offered ht]
  constructor
  · rintro (⟨_, hx⟩ | ⟨d, q, hd, hx⟩)
    · cases hx
    · cases hx with
      | unlisted hl => exact ⟨d, hd, hl⟩
  · rintro ⟨d, hd, hl⟩
    exact .inr ⟨d, q, hd, .unlisted hl⟩

theorem nodup_offered (ht : t.Proper) (s : Selection) (g : Path) :
    ((offered t s g).map Found.path).Nodup := by
  simp only [offered]
  split
  · exact List.nodup_nil
  · rename_i p hf
    split
    · exact List.nodup_singleton _
    · exact ht.nodup_walk (FileTree.bytes_ne_nil_of_find hf) s.skips p

/-! ## Directories that could not be listed -/

end Collection

/-- A directory that cannot be listed, and how it was met. -/
structure Barred where
  place : Place
  path : Path
  fault : FileFault

def Barred.outcome (b : Barred) : Outcome :=
  ⟨b.path, .failed (.unlisted b.path b.fault)⟩

namespace Collection

theorem exists_map_eq {α β : Type} {f : α → β} {P : α → Prop} {ys : List β}
    (h : ∀ y ∈ ys, ∃ x, P x ∧ f x = y) : ∃ xs : List α, xs.map f = ys ∧ ∀ x ∈ xs, P x := by
  induction ys with
  | nil => exact ⟨[], rfl, nofun⟩
  | cons y ys ih =>
    obtain ⟨x, hx, hy⟩ := h y List.mem_cons_self
    obtain ⟨xs, hxs, hall⟩ := ih fun z hz => h z (List.mem_cons_of_mem y hz)
    exact ⟨x :: xs, by rw [List.map_cons, hy, hxs], List.forall_mem_cons.2 ⟨hx, hall⟩⟩

theorem paths_of_outcomes (fs : List Found) :
    ((fs.filterMap outcome?).map Outcome.path).Sublist (fs.map Found.path) := by
  induction fs with
  | nil => exact List.Sublist.slnil
  | cons x fs ih =>
    cases x with
    | file q => exact ih.cons q
    | unlisted q e => exact ih.cons_cons q

theorem exists_barred (ht : t.Proper) (s : Selection) (g : Path) :
    ∃ bs : List Barred, bs.map Barred.outcome = (offered t s g).filterMap outcome? ∧
      (bs.map Barred.place).Nodup ∧
      ∀ b : Barred, b ∈ bs ↔ Descends t s g b.place b.path ∧ t.list b.path = .error b.fault := by
  have hex : ∀ x ∈ (offered t s g).filterMap outcome?, ∃ b : Barred,
      (Descends t s g b.place b.path ∧ t.list b.path = .error b.fault) ∧ b.outcome = x := by
    intro x hx
    obtain ⟨y, hy, hyx⟩ := List.mem_filterMap.1 hx
    cases y with
    | file q => cases hyx
    | unlisted q e =>
      cases hyx
      obtain ⟨d, hd⟩ := (unlisted_mem_offered ht).1 hy
      exact ⟨⟨d, q, e⟩, hd, rfl⟩
  obtain ⟨bs, hmap, hall⟩ := exists_map_eq hex
  refine ⟨bs, hmap, ?_, fun b => ⟨hall b, ?_⟩⟩
  · -- one directory, one path, and each path is offered once
    have hpaths : (bs.map Barred.path).Nodup := by
      have hsub := paths_of_outcomes (offered t s g)
      rw [← hmap, List.map_map] at hsub
      exact hsub.nodup (nodup_offered ht s g)
    refine hpaths.of_map.map_on fun b hb b' hb' hplace => ?_
    have hd' := (hall b' hb').1
    rw [← hplace] at hd'
    exact List.inj_on_of_nodup_map hpaths hb hb' ((hall b hb).1.path_unique ht hd')
  · rintro ⟨hd, hl⟩
    have hmem : b.outcome ∈ bs.map Barred.outcome := by
      rw [hmap, List.mem_filterMap]
      exact ⟨_, (unlisted_mem_offered ht).2 ⟨b.place, hd, hl⟩, rfl⟩
    obtain ⟨b', hb', heq⟩ := List.mem_map.1 hmem
    have hd' := (hall b' hb').1
    obtain ⟨d, q, e⟩ := b
    obtain ⟨d', q', e'⟩ := b'
    cases heq
    have hplace : d' = d := hd'.place_unique ht hd
    rw [← hplace]
    exact hb'

end Collection

/-! ## Whole collections -/

theorem collect_eq_ok :
    collect t s ps = .ok c ↔ (∀ g ∈ ps, Collection.Accepted t s g) ∧
      (ps.flatMap (Collection.offered t s)).foldl (Collection.addFound t s) .empty = c :=
  Collection.addPaths_eq_ok

theorem unlisted_collect (h : collect t s ps = .ok c) :
    c.unlisted =
      ps.flatMap fun g => (Collection.offered t s g).filterMap Collection.outcome? := by
  obtain ⟨_, rfl⟩ := collect_eq_ok.1 h
  rw [Collection.unlisted_foldl, List.filterMap_flatMap]
  rfl

/-- Each file of a collection was given, or found below a directory that was. -/
theorem mem_files_collect (ht : t.Proper) (h : collect t s ps = .ok c) (hf : f ∈ c.files) :
    (f ∈ ps ∧ t.isFile f = true) ∨ ∃ g ∈ ps, FindsFile t s g f := by
  obtain ⟨_, rfl⟩ := collect_eq_ok.1 h
  obtain ⟨hmem, _⟩ := (Collection.mem_files_foldl hf).resolve_left List.not_mem_nil
  obtain ⟨g, hg, hoff⟩ := List.mem_flatMap.1 hmem
  rcases (Collection.file_mem_offered ht).1 hoff with ⟨hfile, rfl⟩ | hfind
  · exact .inl ⟨hg, hfile⟩
  · exact .inr ⟨g, hg, hfind⟩

theorem mem_keys_collect (ht : t.Proper) (h : collect t s ps = .ok c) :
    k ∈ c.files.map t.key ↔ (∃ g ∈ ps, t.isFile g = true ∧ k = t.key g) ∨
      ∃ g ∈ ps, ∃ f, FindsFile t s g f ∧ s.targets f = true ∧ k = t.key f := by
  obtain ⟨hacc, rfl⟩ := collect_eq_ok.1 h
  rw [Collection.mem_keys_foldl]
  constructor
  · rintro (hk | ⟨f, hmem, hs, hk⟩)
    · cases hk
    · obtain ⟨g, hg, hoff⟩ := List.mem_flatMap.1 hmem
      rcases (Collection.file_mem_offered ht).1 hoff with ⟨hfile, rfl⟩ | hfind
      · exact .inl ⟨f, hg, hfile, hk⟩
      · exact .inr ⟨g, hg, f, hfind, hs, hk⟩
  · rintro (⟨g, hg, hfile, hk⟩ | ⟨g, hg, f, hfind, hs, hk⟩)
    · -- a file that was given and did not fail is a target
      have hs : s.targets g = true := by
        obtain ⟨p, hp, himp⟩ := hacc g hg
        simp only [FileTree.isFile, hp] at hfile
        exact himp hfile
      have hoff := (Collection.file_mem_offered (s := s) ht).2 (.inl ⟨hfile, rfl⟩)
      exact .inr ⟨g, List.mem_flatMap.2 ⟨g, hg, hoff⟩, hs, hk⟩
    · have hoff := (Collection.file_mem_offered ht).2 (.inr hfind)
      exact .inr ⟨f, List.mem_flatMap.2 ⟨g, hg, hoff⟩, hs, hk⟩

/-- What a collection is, exactly. -/
structure Collection.Exact (t : FileTree) (s : Selection) (ps : List Path) (c : Collection) :
    Prop where
  /-- No two files are one file under two paths. -/
  distinct : (c.files.map t.key).Nodup
  /-- The files are the given ones, and the targets found below the given directories. -/
  keys : ∀ k, k ∈ c.files.map t.key ↔
    (∃ g ∈ ps, t.isFile g = true ∧ k = t.key g) ∨
      ∃ g ∈ ps, ∃ f, FindsFile t s g f ∧ s.targets f = true ∧ k = t.key f
  /-- Each directory on the way down that cannot be listed is told once for each given path. -/
  unlisted : ∃ barred : Path → List Barred,
    c.unlisted = ps.flatMap (fun g => (barred g).map Barred.outcome) ∧
    ∀ g ∈ ps, ((barred g).map Barred.place).Nodup ∧
      ∀ b : Barred, b ∈ barred g ↔
        Descends t s g b.place b.path ∧ t.list b.path = .error b.fault

/-- Nothing is lost and nothing comes twice; a directory that cannot be listed hides only what is in
it. -/
theorem collect_exact (ht : t.Proper) (h : collect t s ps = .ok c) :
    Collection.Exact t s ps c := by
  choose barred hmap hnodup hmem using Collection.exists_barred ht s
  refine ⟨(collect_sound h).distinct, fun k => mem_keys_collect ht h, barred, ?_, ?_⟩
  · simp only [hmap]
    exact unlisted_collect h
  · intro g _
    exact ⟨hnodup g, hmem g⟩

/-- A file, a link to it, an excluded directory with a file, and a directory that may not be read.
Below, the file is met three times, and the last directory twice. -/
def overlappingTree : FileTree where
  here := []
  entries :=
    [([Utf8.encode "l.c".toList], .link (Path.ofText "d/a.c".toList)),
     ([Utf8.encode "d".toList], .directory .full),
     ([Utf8.encode "a.c".toList, Utf8.encode "d".toList], .file .full []),
     ([Utf8.encode "build".toList, Utf8.encode "d".toList], .directory .full),
     ([Utf8.encode "b.c".toList, Utf8.encode "build".toList, Utf8.encode "d".toList],
        .file .full []),
     ([Utf8.encode "x".toList, Utf8.encode "d".toList], .directory ⟨false, true, true⟩),
     ([Utf8.encode "c.c".toList, Utf8.encode "x".toList, Utf8.encode "d".toList],
        .file .full [])]

def overlappingPaths : List Path :=
  [Path.ofText "l.c".toList, Path.ofText "d".toList, Path.ofText "./".toList]

theorem collect_exact_overlapping :
    overlappingTree.Proper ∧
      ∃ c, collect overlappingTree .default overlappingPaths = .ok c ∧
        c.files = [Path.ofText "l.c".toList] ∧
        c.unlisted.map Outcome.path =
          [Path.ofText "d/x".toList, Path.ofText "./d/x".toList] ∧
        Collection.Exact overlappingTree .default overlappingPaths c := by
  have hproper : overlappingTree.Proper := by decide
  have hcollect : (collect overlappingTree .default overlappingPaths).toOption.map
      (fun c => (c.files, c.unlisted.map Outcome.path)) =
        some ([Path.ofText "l.c".toList],
          [Path.ofText "d/x".toList, Path.ofText "./d/x".toList]) := by cbv
  cases hc : collect overlappingTree .default overlappingPaths with
  | error e =>
    rw [hc] at hcollect
    cases hcollect
  | ok c =>
    rw [hc] at hcollect
    obtain ⟨hfiles, hunlisted⟩ := Prod.mk.inj (Option.some.inj hcollect)
    exact ⟨hproper, c, rfl, hfiles, hunlisted, collect_exact hproper hc⟩

end IncludeOrder
