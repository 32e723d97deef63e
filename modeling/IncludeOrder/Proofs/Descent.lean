import IncludeOrder.FileTree.Walk
import IncludeOrder.Proofs.Landing
import Mathlib.Data.List.Nodup

/-!
# IncludeOrder.Proofs.Descent

What a walk finds, said without its depth. `Reaches` leads from a directory down
through directories that can be listed and have names that are not skipped. The path under which a
directory is reached leads to it, if it leads anywhere (`Reaches.leadsTo`). So a walk finds exactly the
files in the directories reached that can be listed, and the directories reached that cannot
(`mem_walk_iff`). In a proper tree a directory is reached under one path only, and a path reaches one
directory only (`Reaches.path_unique`, `Reaches.place_unique`); a walk goes by the names below its
directory (`Proper.pairwise_walkFrom`), so it finds each path once (`Proper.nodup_walk`); and a file found
has the name of its entry (`Reaches.fileName?_eq`).
-/

namespace IncludeOrder
namespace FileTree

open IncludeOrder.Path (Plain)

variable {t : FileTree} {skips : Name → Bool} {p p' : Place} {q q' f : Path} {n : Name}
variable {ns : List Name} {fault : FileFault} {fuel : Nat}

/-- From the directory `p`, shown as `q`, down to the directory `p'`, shown as `q'`. -/
inductive Reaches (t : FileTree) (skips : Name → Bool) : Place → Path → Place → Path → Prop
  | refl (p : Place) (q : Path) : Reaches t skips p q p q
  | step {p p' : Place} {q q' : Path} {n : Name} {ns : List Name} (hlist : t.list q = .ok ns)
      (hn : skips n = false) (hdir : t.isDirectoryAt (n :: p) = true)
      (h : Reaches t skips (n :: p) (q.join n) p' q') : Reaches t skips p q p' q'

/-- What a walk shows of one directory, in its place. -/
inductive Shows (t : FileTree) (skips : Name → Bool) (p : Place) (q : Path) : Found → Prop
  | file {n : Name} {ns : List Name} (hlist : t.list q = .ok ns) (hn : skips n = false)
      (hfile : t.isFileAt (n :: p) = true) : Shows t skips p q (.file (q.join n))
  | unlisted {fault : FileFault} (hlist : t.list q = .error fault) :
      Shows t skips p q (.unlisted q fault)

/-! ## Listing -/

theorem list_eq_ok (h : t.list q = .ok ns) : ∃ p, t.find q = .ok p ∧ ns = t.namesIn p := by
  simp only [list] at h
  split at h
  · cases h
  · rename_i p hf
    refine ⟨p, hf, ?_⟩
    split at h
    · cases h
    · split at h <;> cases h
      rfl
    · cases h

/-- The path leads to the place, if it leads anywhere. -/
def LeadsTo (t : FileTree) (q : Path) (p : Place) : Prop :=
  ∀ r, t.find q = .ok r → r = p

theorem leadsTo_of_find (h : t.find q = .ok p) : t.LeadsTo q p := by
  intro r hr
  rw [h] at hr
  cases hr
  rfl

namespace LeadsTo

/-- A directory that can be listed has been found. -/
theorem find_eq (h : t.LeadsTo q p) (hl : t.list q = .ok ns) : t.find q = .ok p := by
  obtain ⟨r, hr, _⟩ := list_eq_ok hl
  rw [hr, h r hr]

theorem mem_list (h : t.LeadsTo q p) (hl : t.list q = .ok ns) :
    n ∈ ns ↔ ∃ e, t.entry? (n :: p) = some e := by
  obtain ⟨r, hr, rfl⟩ := list_eq_ok hl
  rw [h r hr]
  exact mem_namesIn

theorem join (h : t.LeadsTo q p) (ht : t.Proper) (hl : t.list q = .ok ns)
    (hdir : t.isDirectoryAt (n :: p) = true) : t.LeadsTo (q.join n) (n :: p) := by
  intro r hr
  obtain ⟨a, ha⟩ := isDirectoryAt_iff.1 hdir
  have hplain := ht.plain_of_entry?_eq ha
  have hq := h.find_eq hl
  have hfound := find_join hq (enter_of_find_join hq hplain hr) hplain ha (by simp)
  rw [hr] at hfound
  exact Except.ok.inj hfound

end LeadsTo

/-! ## The walk -/

/-- What the walk makes of one name in a directory that has been listed. -/
def walkName (t : FileTree) (skips : Name → Bool) (fuel : Nat) (p : Place) (q : Path) (n : Name) :
    List Found :=
  if skips n then []
  else
    match t.entry? (n :: p) with
    | some (.file _ _) => [.file (q.join n)]
    | some (.directory _) => t.walkFrom skips fuel (n :: p) (q.join n)
    | _ => []

theorem walkFrom_of_error (h : t.list q = .error fault) :
    t.walkFrom skips (fuel + 1) p q = [.unlisted q fault] := by
  simp only [walkFrom, h]

theorem walkFrom_of_ok (h : t.list q = .ok ns) :
    t.walkFrom skips (fuel + 1) p q = ns.flatMap (t.walkName skips fuel p q) := by
  simp only [walkFrom, h]
  rfl

/-- What there is under a name. -/
inductive Under (t : FileTree) (skips : Name → Bool) (fuel : Nat) (p : Place) (q : Path)
    (n : Name) : Prop
  | file (hn : skips n = false) (hfile : t.isFileAt (n :: p) = true)
      (hw : t.walkName skips fuel p q n = [.file (q.join n)])
  | directory (hn : skips n = false) (hdir : t.isDirectoryAt (n :: p) = true)
      (hw : t.walkName skips fuel p q n = t.walkFrom skips fuel (n :: p) (q.join n))
  | nothing (hfile : skips n = false → t.isFileAt (n :: p) = false)
      (hdir : skips n = false → t.isDirectoryAt (n :: p) = false)
      (hw : t.walkName skips fuel p q n = [])

theorem under (t : FileTree) (skips : Name → Bool) (fuel : Nat) (p : Place) (q : Path) (n : Name) :
    Under t skips fuel p q n := by
  cases hs : skips n with
  | true => exact .nothing (by simp [hs]) (by simp [hs]) (by simp [walkName, hs])
  | false =>
    cases he : t.entry? (n :: p) with
    | none =>
      exact .nothing (by simp [isFileAt, he]) (by simp [isDirectoryAt, he])
        (by simp [walkName, hs, he])
    | some e =>
      cases e with
      | file a b => exact .file hs (by simp [isFileAt, he]) (by simp [walkName, hs, he])
      | directory a =>
        exact .directory hs (by simp [isDirectoryAt, he]) (by simp [walkName, hs, he])
      | link target =>
        exact .nothing (by simp [isFileAt, he]) (by simp [isDirectoryAt, he])
          (by simp [walkName, hs, he])

theorem exists_reaches_of_mem {x : Found} (h : x ∈ t.walkFrom skips fuel p q) :
    ∃ p' q', Reaches t skips p q p' q' ∧ Shows t skips p' q' x := by
  induction fuel generalizing p q with
  | zero => cases h
  | succ fuel ih =>
    cases hl : t.list q with
    | error e =>
      rw [walkFrom_of_error hl, List.mem_singleton] at h
      rw [h]
      exact ⟨p, q, .refl p q, .unlisted hl⟩
    | ok ns =>
      rw [walkFrom_of_ok hl, List.mem_flatMap] at h
      obtain ⟨n, _, hmem⟩ := h
      cases under t skips fuel p q n with
      | file hn hfile hw =>
        rw [hw, List.mem_singleton] at hmem
        rw [hmem]
        exact ⟨p, q, .refl p q, .file hl hn hfile⟩
      | directory hn hdir hw =>
        rw [hw] at hmem
        obtain ⟨p', q', hr, hx⟩ := ih hmem
        exact ⟨p', q', .step hl hn hdir hr, hx⟩
      | nothing hfile hdir hw =>
        rw [hw] at hmem
        cases hmem

theorem Shows.mem {x : Found} (h : Shows t skips p q x) (hq : t.LeadsTo q p) (fuel : Nat) :
    x ∈ t.walkFrom skips (fuel + 1) p q := by
  cases h with
  | @file n ns hl hn hfile =>
    rw [walkFrom_of_ok hl, List.mem_flatMap]
    obtain ⟨a, b, he⟩ := isFileAt_iff.1 hfile
    exact ⟨n, (hq.mem_list hl).2 ⟨_, he⟩, by simp [walkName, hn, he]⟩
  | unlisted hl =>
    rw [walkFrom_of_error hl]
    exact List.mem_singleton.2 rfl

section

variable (ht : t.Proper)
include ht

theorem Reaches.leadsTo (h : Reaches t skips p q p' q') (hq : t.LeadsTo q p) :
    t.LeadsTo q' p' := by
  induction h with
  | refl p q => exact hq
  | step hl _ hdir _ ih => exact ih (hq.join ht hl hdir)

/-- The depth of the tree is enough, since every directory reached is a place of it. -/
theorem Reaches.mem {x : Found} (h : Reaches t skips p q p' q') (hx : Shows t skips p' q' x)
    (hq : t.LeadsTo q p) (hp : t.isDirectoryAt p = true) (hfuel : t.depth + 1 ≤ fuel + p.length) :
    x ∈ t.walkFrom skips fuel p q := by
  induction h generalizing fuel with
  | refl p q =>
    obtain ⟨a, ha⟩ := isDirectoryAt_iff.1 hp
    have hlen : p.length ≤ t.depth := length_le_depth ha
    obtain ⟨m, rfl⟩ : ∃ m, fuel = m + 1 := ⟨fuel - 1, by omega⟩
    exact hx.mem hq m
  | @step p p' q q' n ns hl hn hdir _ ih =>
    obtain ⟨a, ha⟩ := isDirectoryAt_iff.1 hdir
    have hlen : p.length + 1 ≤ t.depth := length_le_depth ha
    obtain ⟨m, rfl⟩ : ∃ m, fuel = m + 1 := ⟨fuel - 1, by omega⟩
    rw [walkFrom_of_ok hl, List.mem_flatMap]
    refine ⟨n, (hq.mem_list hl).2 ⟨_, ha⟩, ?_⟩
    have hmem : x ∈ t.walkFrom skips m (n :: p) (q.join n) :=
      ih hx (hq.join ht hl hdir) hdir (by rw [List.length_cons]; omega)
    simp [walkName, hn, ha, hmem]

theorem mem_walk_iff {x : Found} (hq : t.find q = .ok p) (hp : t.isDirectoryAt p = true) :
    x ∈ t.walk skips p q ↔ ∃ p' q', Reaches t skips p q p' q' ∧ Shows t skips p' q' x := by
  constructor
  · intro h
    exact exists_reaches_of_mem h
  · rintro ⟨p', q', hr, hx⟩
    exact hr.mem ht hx (leadsTo_of_find hq) hp (Nat.le_add_right _ _)

end

/-! ## Each path once -/

/-- The names on the way down make both the place and the path. -/
theorem Reaches.exists_names (ht : t.Proper) (h : Reaches t skips p q p' q') :
    ∃ ms : List Name, p' = ms.reverse ++ p ∧ q' = ms.foldl Path.join q ∧ ∀ m ∈ ms, Plain m := by
  induction h with
  | refl p q => exact ⟨[], rfl, rfl, nofun⟩
  | @step p p' q q' n ns _ _ hdir _ ih =>
    obtain ⟨a, ha⟩ := isDirectoryAt_iff.1 hdir
    obtain ⟨ms, hp, hq, hms⟩ := ih
    refine ⟨n :: ms, by simp [hp], hq, fun m hm => ?_⟩
    rcases List.mem_cons.1 hm with rfl | hm
    · exact ht.plain_of_entry?_eq ha
    · exact hms m hm

theorem Reaches.path_unique (ht : t.Proper) {r : Path} (h : Reaches t skips p q p' q')
    (h' : Reaches t skips p q p' r) : q' = r := by
  obtain ⟨ms, hp, rfl, _⟩ := h.exists_names ht
  obtain ⟨ms', hp', rfl, _⟩ := h'.exists_names ht
  rw [hp] at hp'
  rw [List.reverse_injective (List.append_cancel_right hp')]

theorem Reaches.place_unique (ht : t.Proper) {r : Place} (hq : q.bytes ≠ [])
    (h : Reaches t skips p q p' q') (h' : Reaches t skips p q r q') : p' = r := by
  obtain ⟨ms, rfl, hms, hplain⟩ := h.exists_names ht
  obtain ⟨ms', rfl, hms', hplain'⟩ := h'.exists_names ht
  have hnames := congrArg Path.names (hms.symm.trans hms')
  rw [Path.names_foldl_join hq hplain, Path.names_foldl_join hq hplain'] at hnames
  rw [List.append_cancel_left hnames]

def Found.path : Found → Path
  | .file q => q
  | .unlisted q _ => q

/-- Below the path of a directory there are only paths with its names and more. -/
theorem Proper.path_of_mem (ht : t.Proper) {x : Found} (hx : x ∈ t.walkFrom skips fuel p q) :
    ∃ ms : List Name, x.path = ms.foldl Path.join q ∧ (∀ m ∈ ms, Plain m) ∧
      ∀ f, x = .file f → ms ≠ [] := by
  obtain ⟨p', q', hr, hshow⟩ := exists_reaches_of_mem hx
  obtain ⟨ms, _, rfl, hms⟩ := hr.exists_names ht
  cases hshow with
  | @file n ns _ _ hfile =>
    obtain ⟨a, b, he⟩ := isFileAt_iff.1 hfile
    refine ⟨ms ++ [n], by rw [List.foldl_append]; rfl, fun m hm => ?_, by simp⟩
    rcases List.mem_append.1 hm with hm | hm
    · exact hms m hm
    · rw [List.mem_singleton.1 hm]
      exact ht.plain_of_entry?_eq he
  | unlisted _ => exact ⟨ms, rfl, hms, by simp⟩

theorem Proper.names_of_mem (ht : t.Proper) {x : Found} (hq : q.bytes ≠ [])
    (hx : x ∈ t.walkFrom skips fuel p q) : ∃ ms, x.path.names = q.names ++ ms := by
  obtain ⟨ms, hpath, hms, _⟩ := ht.path_of_mem hx
  exact ⟨ms, by rw [hpath, Path.names_foldl_join hq hms]⟩

theorem Proper.below_of_mem_walkName (ht : t.Proper) {x : Found} (hq : q.bytes ≠ [])
    (hplain : Plain n) (hx : x ∈ t.walkName skips fuel p q n) :
    ∃ ms, q.below x.path = n :: ms := by
  cases under t skips fuel p q n with
  | file _ _ hw =>
    rw [hw, List.mem_singleton] at hx
    exact ⟨[], Path.below_eq (by rw [hx, Found.path, Path.names_join hq hplain])⟩
  | directory _ _ hw =>
    rw [hw] at hx
    obtain ⟨ms, hms⟩ := ht.names_of_mem (Path.join_ne_nil hq hplain) hx
    exact ⟨_, Path.below_eq_cons hq hplain hms⟩
  | nothing _ _ hw =>
    rw [hw] at hx
    cases hx

/-! ## The order of a walk -/

/-- A walk goes by the names below the directory, compared one after the other. -/
theorem Proper.pairwise_walkFrom (ht : t.Proper) (hq : q.bytes ≠ []) :
    (t.walkFrom skips fuel p q).Pairwise fun x y => q.below x.path < q.below y.path := by
  induction fuel generalizing p q with
  | zero => exact .nil
  | succ fuel ih =>
    cases hl : t.list q with
    | error e =>
      rw [walkFrom_of_error hl]
      exact List.pairwise_singleton _ _
    | ok ns =>
      obtain ⟨r, _, hr⟩ := list_eq_ok hl
      have hplain : ∀ n ∈ ns, Plain n := by
        intro n hn
        rw [hr, mem_namesIn] at hn
        obtain ⟨e, he⟩ := hn
        exact ht.plain_of_entry?_eq he
      have hns : ns.Pairwise fun m n => m < n := hr ▸ ht.pairwise_namesIn r
      rw [walkFrom_of_ok hl, List.pairwise_flatMap]
      constructor
      · intro n hn
        cases under t skips fuel p q n with
        | file _ _ hw =>
          rw [hw]
          exact List.pairwise_singleton _ _
        | directory _ _ hw =>
          rw [hw]
          have hne := Path.join_ne_nil hq (hplain n hn)
          refine (ih hne).imp_of_mem fun {x y} hx hy hlt => ?_
          obtain ⟨ms, hms⟩ := ht.names_of_mem hne hx
          obtain ⟨ms', hms'⟩ := ht.names_of_mem hne hy
          rw [Path.below_eq_cons hq (hplain n hn) hms, Path.below_eq_cons hq (hplain n hn) hms']
          exact List.cons_lt_cons_iff.2 (.inr ⟨rfl, hlt⟩)
        | nothing _ _ hw =>
          rw [hw]
          exact .nil
      · -- what is found under two names is in the order of these names
        refine hns.imp_of_mem fun {m n} hm hn hmn x hx y hy => ?_
        obtain ⟨ms, hms⟩ := ht.below_of_mem_walkName hq (hplain m hm) hx
        obtain ⟨ms', hms'⟩ := ht.below_of_mem_walkName hq (hplain n hn) hy
        rw [hms, hms']
        exact List.cons_lt_cons_iff.2 (.inl hmn)

theorem Proper.nodup_walk (ht : t.Proper) (hq : q.bytes ≠ []) (skips : Name → Bool) (p : Place) :
    ((t.walk skips p q).map Found.path).Nodup := by
  refine List.pairwise_map.2 ((ht.pairwise_walkFrom hq).imp fun {x y} hlt heq => ?_)
  rw [heq] at hlt
  exact List.lt_irrefl _ hlt

/-! ## The places of what is found -/

/-- The path of a directory reached leads to it, if the directory can be listed. -/
theorem Reaches.find_eq (ht : t.Proper) (h : Reaches t skips p q p' q') (hq : t.find q = .ok p)
    (hl : t.list q' = .ok ns) : t.find q' = .ok p' :=
  (h.leadsTo ht (leadsTo_of_find hq)).find_eq hl

/-- A file that is found has the name of its entry, wherever its path leads. -/
theorem Reaches.fileName?_eq (ht : t.Proper) (h : Reaches t skips p q p' q') (hq : t.find q = .ok p)
    (hf : Shows t skips p' q' (.file f)) {r : Place} (hr : t.find f = .ok r) :
    ∃ n d, r = n :: d ∧ f.fileName? = some n := by
  cases hf with
  | @file n ns hl hn hfile =>
    obtain ⟨a, b, he⟩ := isFileAt_iff.1 hfile
    have hplain := ht.plain_of_entry?_eq he
    have hq' := h.find_eq ht hq hl
    have hfound := find_join hq' (enter_of_find_join hq' hplain hr) hplain he nofun
    rw [hr] at hfound
    cases hfound
    exact ⟨n, p', rfl, Path.fileName?_join (bytes_ne_nil_of_find hq') hplain⟩

end FileTree
end IncludeOrder
