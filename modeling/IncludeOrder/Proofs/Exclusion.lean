import IncludeOrder.Proofs.MorePatterns
import IncludeOrder.Proofs.Reporting
import Mathlib

/-!
# IncludeOrder.Proofs.Exclusion

Excluding more never processes more. A selection that excludes more (`Selection.Narrows`) rejects the same
paths, and a walk with it finds a part of what it found before (`walkFrom_sublist`). The files of the two
collections need not have the same paths: a file that is no longer met below one directory may still be
met below another. But each file that is left was a file before, under whatever path
(`Narrows.collect_within`). For more patterns given to a command it is the same, and so for the files
that a run processes (`excluding_more`).
-/

namespace IncludeOrder

open FileTree (Found Key)

variable {t : FileTree} {s s' : Selection} {c c' : Collection} {g f q : Path} {ps : List Path}
variable {e : Failure} {o : Options} {σ : Type} {notify : σ → Outcome → σ} {start : σ}

/-! ## Selections -/

/-- The same targets, and nothing that was excluded comes back. -/
structure Selection.Narrows (s' s : Selection) : Prop where
  targets_eq : s'.targets = s.targets
  excludes : ∀ n, s.excludes n = true → s'.excludes n = true

theorem narrows_withPatterns (s : Selection) (gs : List Glob) : (s.withPatterns gs).Narrows s := by
  refine ⟨rfl, fun n hn => ?_⟩
  simp only [Selection.excludes] at hn
  simp [Selection.excludes, Selection.withPatterns, hn]

theorem exists_exclude {x : Text} (hx : Glob.Valid x) (s : Selection) :
    ∃ s', s.exclude x = .ok s' ∧ s'.Narrows s := by
  obtain ⟨g, hg⟩ := hx
  exact ⟨s.withPatterns [g], by rw [Selection.exclude_eq, hg]; rfl, narrows_withPatterns s [g]⟩

theorem exclude_append_subset (settings : Settings) {more more' : List Text} (h : more ⊆ more') :
    settings.exclude ++ more ⊆ settings.exclude ++ more' :=
  List.append_subset_of_subset_of_subset (List.subset_append_left _ _)
    (List.subset_append_of_subset_right _ h)

/-- More patterns make a selection that excludes more. -/
theorem narrows_of_selection {settings : Settings} {more more' : List Text} (hsub : more ⊆ more')
    (h : settings.selection more = .ok s) (h' : settings.selection more' = .ok s') :
    s'.Narrows s := by
  have hlists := Settings.selection_eq_ok.1 h
  have hlists' := Settings.selection_eq_ok.1 h'
  obtain ⟨gs, _, rfl⟩ := Selection.ofLists_eq_ok.1 hlists
  obtain ⟨gs', _, rfl⟩ := Selection.ofLists_eq_ok.1 hlists'
  refine ⟨rfl, fun n hn => ?_⟩
  rw [Selection.excludes_ofLists hlists] at hn
  rw [Selection.excludes_ofLists hlists']
  obtain ⟨x, hx, hmatch⟩ := hn
  exact ⟨x, exclude_append_subset settings hsub hx, hmatch⟩

/-! ## Walks -/

/-- A walk that passes over more names finds a part of what it found, in the same order. -/
theorem walkFrom_sublist {skips skips' : Name → Bool} (h : ∀ n, skips n = true → skips' n = true)
    (fuel : Nat) (p : Place) (q : Path) :
    (t.walkFrom skips' fuel p q).Sublist (t.walkFrom skips fuel p q) := by
  induction fuel generalizing p q with
  | zero => exact .slnil
  | succ fuel ih =>
    cases hl : t.list q with
    | error e => rw [FileTree.walkFrom_of_error hl, FileTree.walkFrom_of_error hl]
    | ok ns =>
      rw [FileTree.walkFrom_of_ok hl, FileTree.walkFrom_of_ok hl]
      refine List.Sublist.flatMap_right ns fun n _ => ?_
      cases hn' : skips' n with
      | true =>
        simp only [FileTree.walkName, hn', if_true]
        exact List.nil_sublist _
      | false =>
        have hn : skips n = false := by
          cases hn : skips n with
          | false => rfl
          | true => rw [h n hn] at hn'; cases hn'
        simp only [FileTree.walkName, hn, hn', Bool.false_eq_true, if_false]
        split
        · exact .refl _
        · exact ih _ _
        · exact .refl _

namespace Selection.Narrows

variable (h : s'.Narrows s)
include h

theorem offered_sublist (g : Path) :
    (Collection.offered t s' g).Sublist (Collection.offered t s g) := by
  simp only [Collection.offered]
  split
  · exact .slnil
  · split
    · exact .refl _
    · exact walkFrom_sublist (fun n hn => h.excludes _ hn) _ _ _

/-! ## Collections -/

theorem rejected_iff : Rejected t s' g e ↔ Rejected t s g e := by
  constructor
  · intro hr
    cases hr with
    | missing hg => exact .missing hg
    | unsupported hg hs => exact .unsupported hg (h.targets_eq ▸ hs)
  · intro hr
    cases hr with
    | missing hg => exact .missing hg
    | unsupported hg hs => exact .unsupported hg (h.targets_eq.symm ▸ hs)

theorem collect_eq_error : collect t s' ps = .error e ↔ collect t s ps = .error e := by
  simp only [collect, Collection.addPaths_eq_error, FirstRejected, h.rejected_iff]

end Selection.Narrows

/-- Each file of the one collection is one of the other, under whatever path, and so is each failure. -/
structure Collection.Within (t : FileTree) (c' c : Collection) : Prop where
  keys : ∀ k ∈ c'.files.map t.key, k ∈ c.files.map t.key
  unlisted : c'.unlisted.Sublist c.unlisted

theorem Selection.Narrows.collect_within (h : s'.Narrows s) (hc' : collect t s' ps = .ok c') :
    ∃ c, collect t s ps = .ok c ∧ c'.Within t c := by
  cases hc : collect t s ps with
  | error e =>
    rw [h.collect_eq_error.2 hc] at hc'
    cases hc'
  | ok c =>
    refine ⟨c, rfl, fun k hk => ?_, ?_⟩
    · obtain ⟨_, rfl⟩ := collect_eq_ok.1 hc
      obtain ⟨_, rfl⟩ := collect_eq_ok.1 hc'
      rw [Collection.mem_keys_foldl] at hk ⊢
      rcases hk with hk | ⟨f, hf, hs, hkf⟩
      · exact .inl hk
      · obtain ⟨g, hg, hoff⟩ := List.mem_flatMap.1 hf
        have hoff' : Found.file f ∈ Collection.offered t s g := (h.offered_sublist g).subset hoff
        exact .inr ⟨f, List.mem_flatMap.2 ⟨g, hg, hoff'⟩, h.targets_eq ▸ hs, hkf⟩
    · rw [unlisted_collect hc, unlisted_collect hc']
      exact List.Sublist.flatMap_right ps fun g _ => (h.offered_sublist g).filterMap _

/-! ## Runs -/

/-- The outcome is that of a file, and not of a directory that could not be listed. -/
def Outcome.isOfFile (x : Outcome) : Bool :=
  match x.verdict with
  | .failed (.unlisted _ _) => false
  | _ => true

/-- The files that a report is about. -/
def Report.processed (t : FileTree) (r : Report) : List Key :=
  (r.outcomes.filter Outcome.isOfFile).map fun x => t.key x.path

theorem isOfFile_outcomeOf (w : Bool) (t : FileTree) (q : Path) :
    (outcomeOf w t q).1.isOfFile = true := by
  cases standing t q with
  | unreadable f h =>
    rw [outcomeOf_unreadable h]
    rfl
  | inOrder text h same =>
    rw [outcomeOf_inOrder h same]
    cases (Edit.ofText? q text).isSome <;> rfl
  | outOfOrder p a text e h he =>
    rw [outcomeOf_outOfOrder h he]
    cases w <;> cases a.write <;> rfl

theorem isOfFile_outcomesOf (w : Bool) (t : FileTree) (qs : List Path) :
    ∀ x ∈ outcomesOf w t qs, x.isOfFile = true := by
  induction qs generalizing t with
  | nil => exact nofun
  | cons q qs ih => exact List.forall_mem_cons.2 ⟨isOfFile_outcomeOf w t q, ih _⟩

theorem not_isOfFile_unlisted (hc : collect t s ps = .ok c) :
    ∀ x ∈ c.unlisted, ¬ x.isOfFile = true := by
  intro x hx
  rw [unlisted_collect hc] at hx
  obtain ⟨g, _, hg⟩ := List.mem_flatMap.1 hx
  obtain ⟨y, _, hy⟩ := List.mem_filterMap.1 hg
  cases y with
  | file q => cases hy
  | unlisted q f =>
    cases hy
    exact Bool.false_ne_true

/-- A run processes the files that have been collected. -/
theorem processed_sortPaths (hc : collect t s ps = .ok c) {r : Progress σ}
    (h : sortPaths s o notify start t ps = .ok r) : r.report.processed t = c.files.map t.key := by
  rw [sortPaths_eq notify hc] at h
  cases h
  rw [Report.processed, Report.outcomes_ofOutcomes, List.filter_append,
    List.filter_eq_nil_iff.2 (not_isOfFile_unlisted hc), List.nil_append,
    List.filter_eq_self.2 (isOfFile_outcomesOf _ _ _)]
  have hpaths := congrArg (List.map t.key) (map_path_outcomesOf o.writes t c.files)
  rw [List.map_map] at hpaths
  exact hpaths

namespace Selection.Narrows

variable (h : s'.Narrows s)
include h

theorem sortPaths_eq_error :
    sortPaths s' o notify start t ps = .error e ↔ sortPaths s o notify start t ps = .error e := by
  simp only [sortPaths_eq_error_iff, FirstRejected, h.rejected_iff]

theorem sortPaths_within {r' : Progress σ} (hr' : sortPaths s' o notify start t ps = .ok r') :
    ∃ r, sortPaths s o notify start t ps = .ok r ∧
      ∀ k ∈ r'.report.processed t, k ∈ r.report.processed t := by
  obtain ⟨c', hc'⟩ := collect_of_sortPaths notify hr'
  obtain ⟨c, hc, hwithin⟩ := h.collect_within hc'
  have hr := sortPaths_eq notify hc o start
  refine ⟨_, hr, fun k hk => ?_⟩
  rw [processed_sortPaths hc' hr'] at hk
  rw [processed_sortPaths hc hr]
  exact hwithin.keys k hk

end Selection.Narrows

/-! ## Trees in which nothing is denied -/

def Entry.isPermissive : Entry → Bool
  | .file a _ => a = .full
  | .directory a => a = .full
  | .link _ => true

namespace FileTree

/-- Nothing in the tree is denied. -/
def Permissive (t : FileTree) : Prop :=
  ∀ x ∈ t.entries, x.2.isPermissive = true

instance (t : FileTree) : Decidable t.Permissive :=
  inferInstanceAs (Decidable (∀ x ∈ t.entries, x.2.isPermissive = true))

variable {p p' : Place} {q' : Path} {skips : Name → Bool}

theorem Permissive.access_eq (h : t.Permissive) {a : Access}
    (ha : t.entry? p = some (.directory a)) : a = .full := by
  unfold entry? at ha
  split at ha
  · rename_i e hl
    cases ha
    simpa [Entry.isPermissive] using h _ (mem_of_lookup hl)
  · split at ha
    · cases ha
      rfl
    · cases ha

theorem Permissive.reachable (h : t.Permissive) (ht : t.Proper) (hp : t.isDirectoryAt p = true) :
    t.reachable p = true := by
  induction p with
  | nil => rfl
  | cons n p ih =>
    obtain ⟨a, ha⟩ := isDirectoryAt_iff.1 hp
    have htail : t.isDirectoryAt p = true := ht.isDirectoryAt_tail ha
    obtain ⟨b, hb⟩ := isDirectoryAt_iff.1 htail
    rw [FileTree.reachable, ih htail]
    simp [searchableAt, hb, h.access_eq hb, Access.full]

theorem Permissive.enter (h : t.Permissive) (hp : t.isDirectoryAt p = true) :
    t.enter p = .ok () := by
  obtain ⟨a, ha⟩ := isDirectoryAt_iff.1 hp
  simp [FileTree.enter, ha, h.access_eq ha, Access.full]

theorem Permissive.exists_list (h : t.Permissive) (hq : t.find q = .ok p)
    (hp : t.isDirectoryAt p = true) : ∃ ns, t.list q = .ok ns := by
  obtain ⟨a, ha⟩ := isDirectoryAt_iff.1 hp
  refine ⟨t.namesIn p, ?_⟩
  simp [list, hq, ha, h.access_eq ha, Access.full]

theorem Reaches.isDirectoryAt (h : Reaches t skips p q p' q') (hp : t.isDirectoryAt p = true) :
    t.isDirectoryAt p' = true := by
  induction h with
  | refl p q => exact hp
  | step _ _ hdir _ ih => exact ih hdir

/-- Each directory that is reached is there under its path. -/
theorem Permissive.find_of_reaches (h : t.Permissive) (ht : t.Proper)
    (hr : Reaches t skips p q p' q') (hq : t.find q = .ok p) (hp : t.isDirectoryAt p = true) :
    t.find q' = .ok p' := by
  induction hr with
  | refl p q => exact hq
  | step _ _ hdir _ ih =>
    obtain ⟨a, ha⟩ := isDirectoryAt_iff.1 hdir
    exact ih (find_join hq (h.enter hp) (ht.plain_of_entry?_eq ha) ha (by simp)) hdir

end FileTree

section

variable (hopen : t.Permissive) (ht : t.Proper)
include hopen ht

theorem unlisted_collect_of_permissive (hc : collect t s ps = .ok c) : c.unlisted = [] := by
  refine List.eq_nil_iff_forall_not_mem.2 fun x hx => ?_
  rw [unlisted_collect hc] at hx
  obtain ⟨g, _, hg⟩ := List.mem_flatMap.1 hx
  obtain ⟨y, hy, hyx⟩ := List.mem_filterMap.1 hg
  cases y with
  | file q => cases hyx
  | unlisted q f =>
    obtain ⟨d, ⟨p, hg, hp, hreach⟩, hl⟩ := (Collection.unlisted_mem_offered ht).1 hy
    have hq := hopen.find_of_reaches ht hreach hg hp
    obtain ⟨ns, hns⟩ := hopen.exists_list hq (hreach.isDirectoryAt hp)
    rw [hns] at hl
    cases hl

/-- Each file that is collected is there under its path. -/
theorem find_of_mem_files (hc : collect t s ps = .ok c) (hf : f ∈ c.files) :
    ∃ p, t.find f = .ok p ∧ t.isFileAt p = true := by
  rcases mem_files_collect ht hc hf with ⟨_, hfile⟩ | ⟨g, _, d, q, ⟨p, hg, hp, hreach⟩, hshow⟩
  · cases hfind : t.find f with
    | error e => simp [FileTree.isFile, hfind] at hfile
    | ok p => exact ⟨p, rfl, by simpa [FileTree.isFile, hfind] using hfile⟩
  · cases hshow with
    | @file n ns hl hn hfile =>
      obtain ⟨a, b, he⟩ := FileTree.isFileAt_iff.1 hfile
      have henter : t.enter d = .ok () := hopen.enter (hreach.isDirectoryAt hp)
      have hq := hopen.find_of_reaches ht hreach hg hp
      have hlink : ∀ target, Entry.file a b ≠ .link target := by simp
      exact ⟨n :: d, FileTree.find_join hq henter (ht.plain_of_entry?_eq he) he hlink, hfile⟩

end

/-! ## Excluding more -/

/-- With one more pattern, or more of them from the command line, the same paths are rejected, and no
file is collected or processed that was not before. Files are told apart by their keys; where nothing is
denied these are their places, and no directory fails. -/
theorem excluding_more (t : FileTree) (ps : List Path) :
    (∀ (s : Selection) (x : Text), Glob.Valid x → ∃ s', s.exclude x = .ok s' ∧
      (∀ e, collect t s' ps = .error e ↔ collect t s ps = .error e) ∧
      ∀ c', collect t s' ps = .ok c' → ∃ c, collect t s ps = .ok c ∧ c'.Within t c) ∧
    (∀ (settings : Settings) (more more' : List Text), more ⊆ more' →
      (∀ x ∈ settings.exclude ++ more', Glob.Valid x) →
      ∃ s s', settings.selection more = .ok s ∧ settings.selection more' = .ok s' ∧
        ∀ {σ : Type} (o : Options) (notify : σ → Outcome → σ) (start : σ),
          (∀ e, sortPaths s' o notify start t ps = .error e ↔
            sortPaths s o notify start t ps = .error e) ∧
          ∀ r', sortPaths s' o notify start t ps = .ok r' →
            ∃ r, sortPaths s o notify start t ps = .ok r ∧
              ∀ k ∈ r'.report.processed t, k ∈ r.report.processed t) ∧
    (t.Proper → t.Permissive → ∀ s c, collect t s ps = .ok c →
      c.unlisted = [] ∧ ∀ f ∈ c.files, ∃ p, t.key f = .place p ∧ t.isFileAt p = true) := by
  refine ⟨fun s x hx => ?_, fun settings more more' hsub hvalid => ?_, fun ht hopen s c hc => ?_⟩
  · obtain ⟨s', hs', hnarrows⟩ := exists_exclude hx s
    exact ⟨s', hs', fun e => hnarrows.collect_eq_error, fun c' => hnarrows.collect_within⟩
  · have hvalid' : ∀ x ∈ settings.exclude ++ more, Glob.Valid x :=
      fun x hx => hvalid x (exclude_append_subset settings hsub hx)
    obtain ⟨s', hs'⟩ := Settings.exists_selection.2 hvalid
    obtain ⟨s, hs⟩ := Settings.exists_selection.2 hvalid'
    have hnarrows := narrows_of_selection hsub hs hs'
    exact ⟨s, s', hs, hs', fun o notify start =>
      ⟨fun e => hnarrows.sortPaths_eq_error, fun r' => hnarrows.sortPaths_within⟩⟩
  · refine ⟨unlisted_collect_of_permissive hopen ht hc, fun f hf => ?_⟩
    obtain ⟨p, hp, hfile⟩ := find_of_mem_files hopen ht hc hf
    have habove : t.reachable t.here = true := hopen.reachable ht ht.home
    exact ⟨p, by simp [FileTree.key, FileTree.canonical, habove, hp], hfile⟩

/-- A directory `d/x` with a file, and a link to it. -/
def detourTree : FileTree where
  here := []
  entries :=
    [([Utf8.encode "d".toList], .directory .full),
     ([Utf8.encode "x".toList, Utf8.encode "d".toList], .directory .full),
     ([Utf8.encode "a.c".toList, Utf8.encode "x".toList, Utf8.encode "d".toList],
        .file .full (Utf8.encode "#include <b>\n".toList)),
     ([Utf8.encode "e".toList], .link (Path.ofText "d/x".toList))]

def detourPaths : List Path :=
  [Path.ofText "d".toList, Path.ofText "e".toList]

/-- The default selection, which excludes `x` as well. -/
def detourSelection : Selection :=
  { Selection.default with patterns := Selection.default.patterns ++ [⟨[.char 'x']⟩] }

/-- Without `x` the file is met below the other directory, and so under another path. -/
theorem excluding_more_detour :
    Glob.Valid "x".toList ∧ detourTree.Proper ∧ detourTree.Permissive ∧
      Selection.default.exclude "x".toList = .ok detourSelection ∧
      ∃ c c', collect detourTree .default detourPaths = .ok c ∧
        collect detourTree detourSelection detourPaths = .ok c' ∧
        c.files = [Path.ofText "d/x/a.c".toList] ∧ c'.files = [Path.ofText "e/a.c".toList] ∧
        c'.Within detourTree c ∧
        ∃ p, detourTree.key (Path.ofText "e/a.c".toList) = .place p ∧
          detourTree.isFileAt p = true := by
  have hparse : Glob.parse "x".toList = .ok ⟨[.char 'x']⟩ := by cbv
  have hproper : detourTree.Proper := by decide
  have hopen : detourTree.Permissive := by decide
  have hfiles : (collect detourTree .default detourPaths).toOption.map Collection.files =
      some [Path.ofText "d/x/a.c".toList] := by cbv
  have hfiles' : (collect detourTree detourSelection detourPaths).toOption.map Collection.files =
      some [Path.ofText "e/a.c".toList] := by cbv
  have hexclude : Selection.default.exclude "x".toList = .ok detourSelection := by
    simp only [Selection.exclude, hparse, detourSelection]
  obtain ⟨hmore, _, hplaces⟩ := excluding_more detourTree detourPaths
  obtain ⟨s', hs', _, hwithin⟩ := hmore .default "x".toList ⟨_, hparse⟩
  obtain rfl : s' = detourSelection := Except.ok.inj (hs'.symm.trans hexclude)
  cases hc' : collect detourTree detourSelection detourPaths with
  | error e =>
    rw [hc'] at hfiles'
    cases hfiles'
  | ok c' =>
    obtain ⟨c, hc, hcc'⟩ := hwithin c' hc'
    rw [hc] at hfiles
    rw [hc'] at hfiles'
    have hf : c.files = [Path.ofText "d/x/a.c".toList] := Option.some.inj hfiles
    have hf' : c'.files = [Path.ofText "e/a.c".toList] := Option.some.inj hfiles'
    obtain ⟨_, hplace⟩ := hplaces hproper hopen detourSelection c' hc'
    exact ⟨⟨_, hparse⟩, hproper, hopen, hexclude, c, c', hc, rfl, hf, hf', hcc',
      hplace _ (by rw [hf']; exact List.mem_singleton.2 rfl)⟩

end IncludeOrder
