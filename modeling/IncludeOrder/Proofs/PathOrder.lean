import IncludeOrder.Proofs.Collected
import IncludeOrder.Proofs.FmtCommand
import Mathlib

/-!
# IncludeOrder.Proofs.PathOrder

The order in which paths are given does not matter, where keys tell files apart (`sortPaths_perm`). Of
several paths of one file, the order decides which one is kept; but none of the given paths is a link to
a file, so they all have the name of the file, and what is made of a file depends on its place and on
that name alone (`Alike`).
-/

namespace IncludeOrder

open FileTree (Key)

variable {t u u' : FileTree} {s : Selection} {c c' : Collection} {ps ps' : List Path}
variable {q r f f' : Path} {p : Place} {a : Access} {text : Text} {qs qs' : List Path}

/-! ## What is read off a path -/

section

variable (h : IncludeOrder.selfHeader q = IncludeOrder.selfHeader r)
include h

theorem Rule.holds_congr_header : Rule.holds q = Rule.holds r := by
  funext header rule
  cases rule with
  | selfHeader => simp only [holds, h]
  | shape s => rfl
  | any => rfl

theorem Category.ofLine_congr_header : Category.ofLine q = Category.ofLine r := by
  funext l
  simp only [ofLine, ofHeader, Rule.holds_congr_header h]

theorem Arrangement.arranged_congr_header : arranged q = arranged r := by
  funext ls
  simp only [arranged, sectionOf, Category.ofLine_congr_header h]

theorem Edit.ofText?_congr_header : Edit.ofText? q = Edit.ofText? r := by
  funext text
  simp only [ofText?, Arrangement.arranged_congr_header h]

theorem sortIncludes_congr_header : sortIncludes q = sortIncludes r := by
  funext text
  simp only [sortIncludes, Edit.ofText?_congr_header h]

end

/-! ## Two paths under one key -/

/-- Two paths under one key: they lead to one file and give it one header of its own, or both of them
lead nowhere. -/
inductive Alike (t : FileTree) (q r : Path) : Prop
  | file {p : Place} (hk : t.key r = t.key q) (hq : t.find q = .ok p) (hr : t.find r = .ok p)
      (header : selfHeader r = selfHeader q)
  | nowhere {e e' : FileFault} (hk : t.key r = t.key q) (hq : t.find q = .error e)
      (hr : t.find r = .error e')

namespace Alike

theorem key (h : Alike t q r) : t.key r = t.key q := by
  cases h with
  | file hk _ _ _ => exact hk
  | nowhere hk _ _ => exact hk

theorem of_find (h : Alike t q r) (hf : t.find q = .ok p) :
    t.find r = .ok p ∧ selfHeader r = selfHeader q := by
  cases h with
  | file _ hq hr header =>
    rw [hf] at hq
    cases hq
    exact ⟨hr, header⟩
  | nowhere _ hq _ =>
    rw [hf] at hq
    cases hq

theorem readText_eq (h : Alike t q r) (ht : t.readText q = .ok text) :
    t.readText r = .ok text ∧ selfHeader r = selfHeader q := by
  obtain ⟨p, a, b, hb, ha, hd⟩ := FileTree.readText_eq_ok.1 ht
  obtain ⟨hr, header⟩ := h.of_find hb.found
  exact ⟨FileTree.readText_eq_ok.2 ⟨p, a, b, ⟨hr, hb.entry⟩, ha, hd⟩, header⟩

theorem unreadable {e : FileFault} (h : Alike t q r) (ht : t.readText q = .error e) :
    ∃ e', t.readText r = .error e' := by
  cases h with
  | file _ hq hr _ =>
    refine ⟨e, ?_⟩
    simpa only [FileTree.readText, FileTree.readBytes, hq, hr] using ht
  | @nowhere _ e' _ _ hr => exact ⟨e', by simp only [FileTree.readText, FileTree.readBytes, hr]⟩

theorem outOfOrder (h : Alike t q r) (ho : OutOfOrder t q p a text) : OutOfOrder t r p a text := by
  obtain ⟨b, hb, hd⟩ := ho.holds
  obtain ⟨hr, header⟩ := h.of_find hb.found
  refine ⟨⟨b, ⟨hr, hb.entry⟩, hd⟩, ho.read, ?_⟩
  rw [sortIncludes_congr_header header]
  exact ho.changes

end Alike

/-- What a report says of a file, whichever path it was met under. -/
def Outcome.row (t : FileTree) (o : Outcome) : Key × Status × Option Text :=
  (t.key o.path, o.status, o.replacement?)

theorem Alike.row_eq (h : Alike t q r) (w : Bool) :
    (outcomeOf w t r).1.row t = (outcomeOf w t q).1.row t := by
  have hkey := h.key
  cases standing t q with
  | unreadable e he =>
    -- the row does not say how a file failed
    obtain ⟨e', he'⟩ := h.unreadable he
    rw [outcomeOf_unreadable he, outcomeOf_unreadable he']
    simp [Outcome.row, hkey, Outcome.status, Outcome.replacement?]
  | inOrder text he same =>
    obtain ⟨he', header⟩ := h.readText_eq he
    have same' : sortIncludes r text = text := by
      rw [sortIncludes_congr_header header]
      exact same
    rw [outcomeOf_inOrder he same, outcomeOf_inOrder he' same', Edit.ofText?_congr_header header]
    cases (Edit.ofText? q text).isSome <;>
      simp [Outcome.row, hkey, Outcome.status, Outcome.replacement?]
  | outOfOrder p a text e ho he =>
    have he' : Edit.ofText? r text = some e := by
      rw [Edit.ofText?_congr_header (h.of_find ho.found).2, he]
    rw [outcomeOf_outOfOrder ho he, outcomeOf_outOfOrder (h.outOfOrder ho) he']
    cases w <;> cases a.write <;>
      simp [Outcome.row, hkey, Outcome.status, Outcome.replacement?]

/-! ## The files of a collection -/

/-- None of the paths is a link to a file. -/
def NoFileLinks (t : FileTree) (ps : List Path) : Prop :=
  ∀ g ∈ ps, t.isLink g = true → t.isFile g = false

instance (t : FileTree) (ps : List Path) : Decidable (NoFileLinks t ps) :=
  inferInstanceAs (Decidable (∀ g ∈ ps, t.isLink g = true → t.isFile g = false))

theorem NoFileLinks.perm (hl : NoFileLinks t ps) (hps : ps.Perm ps') : NoFileLinks t ps' :=
  fun g hg => hl g (hps.mem_iff.2 hg)

theorem fileName?_of_mem_files (ht : t.Proper) (hl : NoFileLinks t ps)
    (hc : collect t s ps = .ok c) (hf : f ∈ c.files) (hp : t.find f = .ok p) :
    ∃ n d, p = n :: d ∧ f.fileName? = some n := by
  rcases mem_files_collect ht hc hf with ⟨hmem, hfile⟩ | ⟨g, _, d, q, ⟨p', hg, _, hr⟩, hx⟩
  · have hnot : t.isLink f = false := by
      cases h : t.isLink f with
      | false => rfl
      | true => rw [hl f hmem h] at hfile; cases hfile
    simp only [FileTree.isFile, hp] at hfile
    exact FileTree.fileName?_of_isFile ht hp hfile hnot
  · exact hr.fileName?_eq ht hg hx hp

/-- Each file of the first list is one of the second list. -/
def Covers (t : FileTree) (qs qs' : List Path) : Prop :=
  ∀ q ∈ qs, ∃ r ∈ qs', Alike t q r

theorem Rewrites.entry?_eq (hu : Rewrites t u qs) (hu' : Rewrites t u' qs')
    (hcov : Covers t qs qs') (hcov' : Covers t qs' qs) (p : Place) : u.entry? p = u'.entry? p := by
  have hsorted : ∀ {q r : Path}, Alike t q r →
      (outcomeOf true t r).1.status = (outcomeOf true t q).1.status :=
    fun h => congrArg (fun x => x.2.1) (h.row_eq true)
  by_cases h : ∃ q ∈ qs, t.find q = .ok p ∧ (outcomeOf true t q).1.status = .sorted
  · obtain ⟨q, hq, hf, hs⟩ := h
    obtain ⟨r, hr, hqr⟩ := hcov q hq
    obtain ⟨p', a, text, e, ho, _, hw⟩ := outOfOrder_of_sorted hs
    obtain rfl : p' = p := Except.ok.inj (ho.found.symm.trans hf)
    rw [hu.written q hq p' a text ho hw, hu'.written r hr p' a text (hqr.outOfOrder ho) hw,
      sortIncludes_congr_header (hqr.of_find hf).2]
  · have hkept : ∀ q ∈ qs, t.find q = .ok p → (outcomeOf true t q).1.status ≠ .sorted :=
      fun q hq hf hs => h ⟨q, hq, hf, hs⟩
    rw [hu.kept p hkept, hu'.kept p fun r hr hf hs => ?_]
    obtain ⟨q, hq, hrq⟩ := hcov' r hr
    refine hkept q hq (hrq.of_find hf).1 ?_
    rw [hsorted hrq, hs]

/-- Lists with the same keys, in whatever order, have the same rows if the key makes the row. -/
theorem perm_map_of_key {α κ ρ : Type} {key : α → κ} {row : α → ρ} {xs ys : List α}
    (h : (xs.map key).Perm (ys.map key))
    (hrow : ∀ x ∈ xs, ∀ y ∈ ys, key y = key x → row y = row x) :
    (xs.map row).Perm (ys.map row) := by
  induction xs generalizing ys with
  | nil =>
    rw [List.map_nil, List.nil_perm, List.map_eq_nil_iff] at h
    rw [h]
  | cons x xs ih =>
    have hmem : key x ∈ ys.map key := h.subset List.mem_cons_self
    obtain ⟨y, hy, hyx⟩ := List.mem_map.1 hmem
    obtain ⟨us, vs, rfl⟩ := List.append_of_mem hy
    have hsplit : (us ++ y :: vs).Perm (y :: (us ++ vs)) := List.perm_middle
    have hrest : (xs.map key).Perm ((us ++ vs).map key) := by
      have hcons := h.trans (hsplit.map key)
      rw [List.map_cons, List.map_cons, hyx] at hcons
      exact hcons.cons_inv
    have hrows := ih hrest fun x' hx' y' hy' =>
      hrow x' (List.mem_cons_of_mem x hx') y' (hsplit.symm.subset (List.mem_cons_of_mem y hy'))
    refine .trans ?_ (hsplit.map row).symm
    rw [List.map_cons, List.map_cons, hrow x List.mem_cons_self y hy hyx]
    exact hrows.cons _

/-- Two reports that say the same of the same files, in whatever order. -/
structure Report.Agrees (t : FileTree) (r r' : Report) : Prop where
  rows : (r.outcomes.map (Outcome.row t)).Perm (r'.outcomes.map (Outcome.row t))
  sorted : r.sorted = r'.sorted
  unchanged : r.unchanged = r'.unchanged
  noIncludes : r.noIncludes = r'.noIncludes
  failed : r.failed = r'.failed

theorem Report.agrees_of_rows {os os' : List Outcome}
    (h : (os.map (Outcome.row t)).Perm (os'.map (Outcome.row t))) :
    Report.Agrees t (Report.ofOutcomes os) (Report.ofOutcomes os') := by
  have hcount : ∀ x : Status,
      os.countP (fun o => o.status = x) = os'.countP (fun o => o.status = x) := by
    intro x
    have hperm := h.countP_eq fun row => row.2.1 = x
    rwa [List.countP_map, List.countP_map] at hperm
  constructor
  · rw [outcomes_ofOutcomes, outcomes_ofOutcomes]
    exact h
  all_goals simp [ofOutcomes, foldl_record, hcount]

/-! ## Two orders -/

theorem collect_perm (hps : ps.Perm ps') (hc : collect t s ps = .ok c) :
    ∃ c', collect t s ps' = .ok c' :=
  ⟨_, collect_eq_ok.2 ⟨fun g hg => (collect_eq_ok.1 hc).1 g (hps.mem_iff.2 hg), rfl⟩⟩

section

variable (hps : ps.Perm ps') (hc : collect t s ps = .ok c) (hc' : collect t s ps' = .ok c')
include hps hc hc'

theorem keys_perm (ht : t.Proper) : (c.files.map t.key).Perm (c'.files.map t.key) := by
  rw [List.perm_ext_iff_of_nodup (collect_sound hc).distinct (collect_sound hc').distinct]
  intro k
  rw [mem_keys_collect ht hc, mem_keys_collect ht hc']
  simp only [hps.mem_iff]

theorem unlisted_perm : c.unlisted.Perm c'.unlisted := by
  rw [unlisted_collect hc, unlisted_collect hc']
  exact hps.flatMap_right _

variable (ht : t.Proper) (hl : NoFileLinks t ps) (hapart : t.TellsApart)
include ht hl hapart

theorem alike_of_key_eq (hf : f ∈ c.files) (hf' : f' ∈ c'.files) (hk : t.key f' = t.key f) :
    Alike t f f' := by
  have hl' : NoFileLinks t ps' := hl.perm hps
  cases hp : t.find f with
  | error e =>
    cases hp' : t.find f' with
    | error e' => exact .nowhere hk hp hp'
    | ok p =>
      -- the key of a path that leads somewhere is a place
      rw [hapart.key_of_find hp'] at hk
      rw [hapart.find_of_key hk.symm] at hp
      cases hp
  | ok p =>
    have hp' : t.find f' = .ok p := by
      rw [hapart.key_of_find hp] at hk
      exact hapart.find_of_key hk
    obtain ⟨n, d, rfl, hn⟩ := fileName?_of_mem_files ht hl hc hf hp
    obtain ⟨n', d', heq, hn'⟩ := fileName?_of_mem_files ht hl' hc' hf' hp'
    cases heq
    refine .file hk hp hp' ?_
    rw [selfHeader, selfHeader, Path.stem?_congr (hn'.trans hn.symm)]

theorem covers_of_perm : Covers t c.files c'.files := by
  intro f hf
  have hmem := (keys_perm hps hc hc' ht).subset (List.mem_map_of_mem hf)
  obtain ⟨f', hf', hk⟩ := List.mem_map.1 hmem
  exact ⟨f', hf', alike_of_key_eq hps hc hc' ht hl hapart hf hf' hk⟩

theorem treeAfter_perm (w : Bool) : treeAfter w t c.files = treeAfter w t c'.files := by
  cases w with
  | false => rw [treeAfter_false, treeAfter_false]
  | true =>
    have hrew := (run_effect hapart (collect_sound hc).distinct).2
    have hrew' := (run_effect hapart (collect_sound hc').distinct).2
    refine FileTree.eq_of_outline_eq (hrew.outline_eq.trans hrew'.outline_eq.symm)
      (ht.congr hrew.outline_eq).distinct ?_
    exact hrew.entry?_eq hrew' (covers_of_perm hps hc hc' ht hl hapart)
      (covers_of_perm hps.symm hc' hc ht (hl.perm hps) hapart)

theorem rows_perm (w : Bool) :
    ((c.unlisted ++ outcomesOf w t c.files).map (Outcome.row t)).Perm
      ((c'.unlisted ++ outcomesOf w t c'.files).map (Outcome.row t)) := by
  rw [outcomesOf_eq hapart (collect_sound hc).distinct,
    outcomesOf_eq hapart (collect_sound hc').distinct, List.map_append, List.map_append, List.map_map,
    List.map_map]
  refine ((unlisted_perm hps hc hc').map _).append ?_
  refine perm_map_of_key (keys_perm hps hc hc' ht) fun f hf f' hf' hk => ?_
  exact (alike_of_key_eq hps hc hc' ht hl hapart hf hf' hk).row_eq w

end

theorem runFmt_tree_of_error {base : Path} {exclude : List Text} {settings : Settings} {e : Failure}
    (hload : Settings.load t base = .ok settings) (hs : settings.selection exclude = .ok s)
    (hc : collect t s ps = .error e) (colors : Bool) (v : CommandLine.Verbosity) (o : Options) :
    (CommandLine.runFmt colors base v o exclude ps t).tree = t := by
  cases ps with
  | nil => cases hc
  | cons p ps =>
    refine (CommandLine.runFmt_of_error colors v o (e := e) ?_).2
    simp only [CommandLine.collected, hload, hs]
    exact hc

/-- A file with its own header in a directory, a link to the directory, and a directory that may not be
read. Below, the file is met in the directory, behind the link and by itself. -/
def twoWaysTree : FileTree where
  here := []
  entries :=
    [([Utf8.encode "d".toList], .directory .full),
     ([Utf8.encode "a.c".toList, Utf8.encode "d".toList],
        .file .full (Utf8.encode "#include <b>\n#include \"a.h\"\n".toList)),
     ([Utf8.encode "x".toList, Utf8.encode "d".toList], .directory ⟨false, true, true⟩),
     ([Utf8.encode "k".toList], .link (Path.ofText "d".toList))]

def twoWays : List Path :=
  [Path.ofText "k".toList, Path.ofText "d".toList, Path.ofText "d/../d/a.c".toList]

end IncludeOrder
