import IncludeOrder.Proofs.Files
import IncludeOrder.Proofs.Shape

/-!
# IncludeOrder.Proofs.Landing

Where a path ends, from where it ends without its last name. A path that ends somewhere leads, without
its last name, to a directory that can be searched, and the last name is looked up there
(`landWithin_concat`); and an entry of a directory that a path leads to is found under its name below
that path (`find_join`), unless the directory cannot be searched (`enter_of_find_join`). So a path of a
file that is not itself a link has the name of the file (`fileName?_of_isFile`).

In a proper tree a path ends at a file, at a directory, or at a name that is missing in a directory
(`Proper.ends_of_land`). So every change to the tree keeps it proper (`Proper.write`, `Proper.add`,
`Proper.makeDirectories`).
-/

namespace IncludeOrder
namespace FileTree

open IncludeOrder.Path (Plain)

variable {t : FileTree} {p d : Place} {q : Path} {n : Name} {ns : List Name} {e : Entry}
variable {slash s s' : Bool} {l : Landing} {k : Nat}

/-! ## One name -/

/-- What a name does when it is followed from a place. -/
inductive Turn (t : FileTree) (p : Place) (n : Name) : Prop
  | denied (f : FileFault) (hp : t.enter p = .error f)
  | here (hp : t.enter p = .ok ()) (hn : n = Path.here)
  | up (hp : t.enter p = .ok ()) (hn : n = Path.up)
  | missing (hp : t.enter p = .ok ()) (hn : n ≠ Path.here) (hn' : n ≠ Path.up)
      (he : t.entry? (n :: p) = none)
  | link (target : Path) (hp : t.enter p = .ok ()) (hn : n ≠ Path.here) (hn' : n ≠ Path.up)
      (he : t.entry? (n :: p) = some (.link target))
  | entry (e : Entry) (hp : t.enter p = .ok ()) (hn : n ≠ Path.here) (hn' : n ≠ Path.up)
      (he : t.entry? (n :: p) = some e) (hlink : ∀ target, e ≠ .link target)

theorem turn (t : FileTree) (p : Place) (n : Name) : Turn t p n := by
  cases hp : t.enter p with
  | error f => exact .denied f hp
  | ok _ =>
    by_cases hn : n = Path.here
    · exact .here hp hn
    · by_cases hn' : n = Path.up
      · exact .up hp hn'
      · cases he : t.entry? (n :: p) with
        | none => exact .missing hp hn hn' he
        | some e =>
          cases e with
          | link target => exact .link target hp hn hn' he
          | file a b => exact .entry _ hp hn hn' he nofun
          | directory a => exact .entry _ hp hn hn' he nofun

section

variable {follow : Place → Path → List Name → Bool → Except FileFault Landing}

theorem landFrom_denied {f : FileFault} (hp : t.enter p = .error f) :
    t.landFrom follow p (n :: ns) slash = .error f := by
  rw [landFrom.eq_def]
  simp only [hp]

theorem landFrom_here (hp : t.enter p = .ok ()) :
    t.landFrom follow p (Path.here :: ns) slash = t.landFrom follow p ns slash := by
  rw [landFrom.eq_def]
  simp only [hp, if_true]

theorem landFrom_up (hp : t.enter p = .ok ()) :
    t.landFrom follow p (Path.up :: ns) slash = t.landFrom follow p.tail ns slash := by
  have hne : Path.up ≠ Path.here := by decide
  rw [landFrom.eq_def]
  simp only [hp, if_neg hne, if_true]

theorem landFrom_missing (hp : t.enter p = .ok ()) (hn : n ≠ Path.here) (hn' : n ≠ Path.up)
    (he : t.entry? (n :: p) = none) :
    t.landFrom follow p (n :: ns) slash =
      if ns = [] then .ok ⟨n :: p, slash⟩ else .error .notFound := by
  rw [landFrom.eq_def]
  simp only [hp, if_neg hn, if_neg hn', he]
  cases ns <;> rfl

theorem landFrom_link {target : Path} (hp : t.enter p = .ok ()) (hn : n ≠ Path.here)
    (hn' : n ≠ Path.up) (he : t.entry? (n :: p) = some (.link target)) :
    t.landFrom follow p (n :: ns) slash = follow p target ns slash := by
  rw [landFrom.eq_def]
  simp only [hp, if_neg hn, if_neg hn', he]

theorem landFrom_entry (hp : t.enter p = .ok ()) (hn : n ≠ Path.here) (hn' : n ≠ Path.up)
    (he : t.entry? (n :: p) = some e) (hlink : ∀ target, e ≠ .link target) :
    t.landFrom follow p (n :: ns) slash = t.landFrom follow (n :: p) ns slash := by
  rw [landFrom.eq_def]
  simp only [hp, if_neg hn, if_neg hn', he]

/-! ## The last name -/

/-- Where the last name of a path leads from the directory `d`. A link leads anywhere. -/
inductive LastStep (t : FileTree) (d : Place) (n : Name) (l : Landing) : Prop
  | here (hn : n = Path.here) (hl : l.place = d)
  | up (hn : n = Path.up) (hl : l.place = d.tail)
  | link (target : Path) (h : t.entry? (n :: d) = some (.link target))
  | entry (hn : n ≠ Path.here) (hn' : n ≠ Path.up) (hl : l.place = n :: d)

/-- The names but the last end in a directory, in which the last one is looked up. -/
def LandsIn (t : FileTree) (r : Except FileFault Landing) (n : Name) (l : Landing) : Prop :=
  ∃ d s, r = .ok ⟨d, s⟩ ∧ t.enter d = .ok () ∧ LastStep t d n l

theorem lastStep_of_landFrom (h : t.landFrom follow p [n] slash = .ok l) :
    t.enter p = .ok () ∧ LastStep t p n l := by
  cases turn t p n with
  | denied f hp =>
    rw [landFrom_denied hp] at h
    cases h
  | here hp hn =>
    rw [hn, landFrom_here hp] at h
    cases h
    exact ⟨hp, .here hn rfl⟩
  | up hp hn =>
    rw [hn, landFrom_up hp] at h
    cases h
    exact ⟨hp, .up hn rfl⟩
  | missing hp hn hn' he =>
    rw [landFrom_missing hp hn hn' he] at h
    cases h
    exact ⟨hp, .entry hn hn' rfl⟩
  | link target hp hn hn' he => exact ⟨hp, .link target he⟩
  | entry e hp hn hn' he hlink =>
    rw [landFrom_entry hp hn hn' he hlink] at h
    cases h
    exact ⟨hp, .entry hn hn' rfl⟩

theorem landFrom_concat
    (hfollow : ∀ p target rest n slash l, follow p target (rest ++ [n]) slash = .ok l →
      ∀ s, LandsIn t (follow p target rest s) n l)
    (h : t.landFrom follow p (ns ++ [n]) slash = .ok l) (s : Bool) :
    LandsIn t (t.landFrom follow p ns s) n l := by
  induction ns generalizing p with
  | nil =>
    obtain ⟨hp, hstep⟩ := lastStep_of_landFrom h
    exact ⟨p, s, rfl, hp, hstep⟩
  | cons m ns ih =>
    rw [List.cons_append] at h
    cases turn t p m with
    | denied f hp =>
      rw [landFrom_denied hp] at h
      cases h
    | here hp hm =>
      subst hm
      rw [landFrom_here hp] at h ⊢
      exact ih h
    | up hp hm =>
      subst hm
      rw [landFrom_up hp] at h ⊢
      exact ih h
    | missing hp hm hm' he =>
      -- a missing name is allowed at the end alone
      rw [landFrom_missing hp hm hm' he, if_neg (by simp)] at h
      cases h
    | link target hp hm hm' he =>
      rw [landFrom_link hp hm hm' he] at h ⊢
      exact hfollow p target ns n slash l h s
    | entry e hp hm hm' he hlink =>
      rw [landFrom_entry hp hm hm' he hlink] at h ⊢
      exact ih h

theorem landFrom_append
    (hfollow : ∀ p target rest s s', follow p target rest s = .ok ⟨d, s'⟩ →
      follow p target (rest ++ [n]) slash = .ok ⟨n :: d, slash⟩)
    (hd : t.enter d = .ok ()) (hn : Plain n)
    (hlink : ∀ target, t.entry? (n :: d) ≠ some (.link target))
    (h : t.landFrom follow p ns s = .ok ⟨d, s'⟩) :
    t.landFrom follow p (ns ++ [n]) slash = .ok ⟨n :: d, slash⟩ := by
  induction ns generalizing p with
  | nil =>
    cases h
    rw [List.nil_append]
    cases he : t.entry? (n :: d) with
    | none => rw [landFrom_missing hd hn.ne_here hn.ne_up he, if_pos rfl]
    | some e =>
      rw [landFrom_entry hd hn.ne_here hn.ne_up he fun target heq => hlink target (heq ▸ he)]
      rfl
  | cons m ns ih =>
    rw [List.cons_append]
    cases turn t p m with
    | denied f hp =>
      rw [landFrom_denied hp] at h
      cases h
    | here hp hm =>
      subst hm
      rw [landFrom_here hp] at h ⊢
      exact ih h
    | up hp hm =>
      subst hm
      rw [landFrom_up hp] at h ⊢
      exact ih h
    | missing hp hm hm' he =>
      -- a place that is missing cannot be entered
      rw [landFrom_missing hp hm hm' he] at h
      split at h
      · cases h
        simp [enter, he] at hd
      · cases h
    | link target hp hm hm' he =>
      rw [landFrom_link hp hm hm' he] at h ⊢
      exact hfollow p target ns s s' h
    | entry e hp hm hm' he hl =>
      rw [landFrom_entry hp hm hm' he hl] at h ⊢
      exact ih h

end

theorem landWithin_concat (h : t.landWithin k p (ns ++ [n]) slash = .ok l) (s : Bool) :
    LandsIn t (t.landWithin k p ns s) n l := by
  induction k generalizing p ns n slash l s with
  | zero =>
    rw [landWithin] at h ⊢
    refine landFrom_concat (fun p target rest n slash l h' => ?_) h s
    cases h'
  | succ k ih =>
    rw [landWithin] at h ⊢
    refine landFrom_concat (fun p target rest n slash l h' s => ?_) h s
    rw [← List.append_assoc] at h'
    exact ih h' _

theorem landWithin_append (hd : t.enter d = .ok ()) (hn : Plain n)
    (hlink : ∀ target, t.entry? (n :: d) ≠ some (.link target))
    (h : t.landWithin k p ns s = .ok ⟨d, s'⟩) (slash : Bool) :
    t.landWithin k p (ns ++ [n]) slash = .ok ⟨n :: d, slash⟩ := by
  induction k generalizing p ns s s' slash with
  | zero =>
    rw [landWithin] at h ⊢
    refine landFrom_append (fun p target rest s s' h' => ?_) hd hn hlink h
    cases h'
  | succ k ih =>
    rw [landWithin] at h ⊢
    refine landFrom_append (fun p target rest s s' h' => ?_) hd hn hlink h
    -- a slash behind the target of the last link does not matter before another name
    have hslash : (slash || ((rest ++ [n]).isEmpty && target.endsInSlash)) = slash := by
      simp
    rw [hslash, ← List.append_assoc]
    exact ih h' slash

/-! ## Below a directory -/

theorem bytes_ne_nil_of_find (h : t.find q = .ok p) : q.bytes ≠ [] := by
  intro hq
  have hempty : q.isEmpty = true := by simp [Path.isEmpty, hq]
  simp [find, land, hempty] at h

theorem isEmpty_of_ne_nil (h : q.bytes ≠ []) : q.isEmpty = false := by
  simpa [Path.isEmpty] using h

theorem land_of_find (h : t.find q = .ok p) :
    ∃ s, t.land q = .ok ⟨p, s⟩ := by
  simp only [find] at h
  cases hl : t.land q with
  | error f => simp [hl] at h
  | ok l =>
    obtain ⟨r, s⟩ := l
    refine ⟨s, ?_⟩
    simp only [hl] at h
    cases he : t.entry? r with
    | none => simp [he] at h
    | some x =>
      simp only [he] at h
      cases x with
      | directory a =>
        cases h
        rfl
      | file _ _ | link _ =>
        simp only at h
        split at h
        · cases h
        · cases h
          rfl

theorem exists_entry_of_find (h : t.find q = .ok p) : ∃ e, t.entry? p = some e := by
  obtain ⟨s, hl⟩ := land_of_find h
  cases he : t.entry? p with
  | none => simp [find, hl, he] at h
  | some e => exact ⟨e, rfl⟩

theorem landWithin_of_find (h : t.find q = .ok p) :
    ∃ s, t.landWithin linkLimit (startOf t.here q) q.names q.endsInSlash = .ok ⟨p, s⟩ := by
  obtain ⟨s, hl⟩ := land_of_find h
  simp only [land, isEmpty_of_ne_nil (bytes_ne_nil_of_find h)] at hl
  exact ⟨s, hl⟩

theorem land_join (hq : q.bytes ≠ []) (hn : Plain n) :
    t.land (q.join n) =
      t.landWithin linkLimit (startOf t.here q) (q.names ++ [n]) false := by
  have hstart : startOf t.here (q.join n) = startOf t.here q := by
    rw [startOf, startOf, Path.isAbsolute_join hq hn]
  rw [land, isEmpty_of_ne_nil (Path.join_ne_nil hq hn), if_neg Bool.false_ne_true, hstart,
    Path.names_join hq hn, Path.endsInSlash_join hq hn]

/-- An entry of a directory, not a link, is found below the path of the directory. -/
theorem find_join (h : t.find q = .ok p) (hp : t.enter p = .ok ()) (hn : Plain n)
    (hentry : t.entry? (n :: p) = some e) (hlink : ∀ target, e ≠ .link target) :
    t.find (q.join n) = .ok (n :: p) := by
  obtain ⟨s, hl⟩ := landWithin_of_find h
  have hland := land_join (t := t) (bytes_ne_nil_of_find h) hn
  have hnolink : ∀ target, t.entry? (n :: p) ≠ some (.link target) :=
    fun target heq => hlink target (Option.some.inj (hentry.symm.trans heq))
  rw [landWithin_append hp hn hnolink hl false] at hland
  simp only [find, hland, hentry]
  cases e with
  | link target => exact absurd rfl (hlink target)
  | file _ _ | directory _ => rfl

/-- Nothing is found below a directory that cannot be searched. -/
theorem enter_of_find_join {p' : Place} (h : t.find q = .ok p) (hn : Plain n)
    (hj : t.find (q.join n) = .ok p') : t.enter p = .ok () := by
  obtain ⟨s, hl⟩ := landWithin_of_find h
  obtain ⟨s', hj'⟩ := land_of_find hj
  rw [land_join (bytes_ne_nil_of_find h) hn] at hj'
  obtain ⟨d, _, hd, hent, _⟩ := landWithin_concat hj' q.endsInSlash
  rw [hl] at hd
  cases hd
  exact hent

/-! ## Links -/

/-- The path, not followed to its end, is that of a link. -/
def isLink (t : FileTree) (q : Path) : Bool :=
  match t.landAbove q, q.names.getLast? with
  | .ok p, some n =>
    match t.entry? (n :: p) with
    | some (.link _) => true
    | _ => false
  | _, _ => false

/-- The path of a file is the name of the file in some directory, unless it is a link. -/
theorem fileName?_of_isFile (ht : t.Proper) (h : t.find q = .ok p) (hfile : t.isFileAt p = true)
    (hlink : t.isLink q = false) : ∃ n d, p = n :: d ∧ q.fileName? = some n := by
  have hno : ∀ {r : Place}, t.isDirectoryAt r = true → p ≠ r := by
    rintro r hr rfl
    rw [not_isFileAt_of_isDirectoryAt hr] at hfile
    cases hfile
  have hq := bytes_ne_nil_of_find h
  obtain ⟨s, hl⟩ := landWithin_of_find h
  rcases List.eq_nil_or_concat q.names with hnil | ⟨ns, n, hns⟩
  · -- without names, a path ends where it starts, and that is a directory
    rw [hnil, landWithin.eq_def] at hl
    cases hl
    refine absurd rfl (hno ?_)
    rw [startOf]
    split
    · exact ht.root
    · exact ht.home
  · rw [List.concat_eq_append] at hns
    rw [hns] at hl
    obtain ⟨d, s', hd, hent, hstep⟩ := landWithin_concat hl false
    have hdir := isDirectoryAt_of_searchableAt (searchableAt_of_enter hent)
    cases hstep with
    | here hn hp => exact absurd hp (hno hdir)
    | up hn hp =>
      obtain ⟨a, ha⟩ := isDirectoryAt_iff.1 hdir
      exact absurd hp (hno (ht.isDirectoryAt_tail ha))
    | link target htarget =>
      have habove : t.landAbove q = .ok d := by
        simp [landAbove, isEmpty_of_ne_nil hq, hns, hd, hent]
      simp [isLink, habove, hns, htarget] at hlink
    | entry hn hn' hp => exact ⟨n, d, hp, Path.fileName?_of_names hns hn hn'⟩

/-! ## What is at the end -/

/-- At the end of a path there is a file or a directory, or a plain name is missing in a directory. -/
inductive Ends (t : FileTree) (p : Place) : Prop
  | file (h : t.isFileAt p = true)
  | directory (h : t.isDirectoryAt p = true)
  | missing (n : Name) (d : Place) (hp : p = n :: d) (hn : Plain n)
      (hd : t.isDirectoryAt d = true) (he : t.entry? p = none)

/-- The names that a path can have. -/
def Named (ns : List Name) : Prop :=
  ∀ n ∈ ns, n ≠ Path.here → n ≠ Path.up → Plain n

theorem named_names (q : Path) : Named q.names :=
  fun _ hn => Path.plain_of_mem_names hn

theorem Named.append {ms : List Name} (h : Named ns) (h' : Named ms) : Named (ns ++ ms) := by
  intro n hn
  rcases List.mem_append.1 hn with hn | hn
  · exact h n hn
  · exact h' n hn

theorem isDirectoryAt_of_enter (h : t.enter p = .ok ()) : t.isDirectoryAt p = true :=
  isDirectoryAt_of_searchableAt (searchableAt_of_enter h)

/-! ## What a change does -/

/-- A write that succeeds gives a content to the file at the end of the path. A file that was there
keeps its access, and a new one gets what is granted. -/
structure Written (t u : FileTree) (q : Path) (p : Place) (a : Access) (b : Bytes) : Prop where
  ended : t.land q = .ok ⟨p, false⟩
  change : (∃ c, t.entry? p = some (.file a c) ∧ a.write = true ∧ u = t.refill p b) ∨
    (t.entry? p = none ∧ a = t.granted ∧ u = t.put p (.file a b))

theorem write_effect {u : FileTree} {b : Bytes} (h : t.write q b = .ok u) :
    ∃ p a, Written t u q p a b := by
  simp only [write] at h
  split at h
  · cases h
  · rename_i l hl
    obtain ⟨p, slash⟩ := l
    split at h
    · cases h
    · rename_i hslash
      rw [Bool.not_eq_true] at hslash
      subst hslash
      split at h
      · rename_i a c he
        split at h
        · rename_i hw
          cases h
          exact ⟨p, a, hl, .inl ⟨c, he, hw, rfl⟩⟩
        · cases h
      · cases h
      · rename_i he
        split at h
        · cases h
          exact ⟨p, t.granted, hl, .inr ⟨he, rfl, rfl⟩⟩
        · cases h

/-- An entry that is added gets its name in the directory that the names before lead to. -/
structure Added (t u : FileTree) (q : Path) (n : Name) (d : Place) (e : Entry) : Prop where
  names : q.names = q.names.dropLast ++ [n]
  plain : Plain n
  above : ∃ s, t.landWithin linkLimit (startOf t.here q) q.names.dropLast false = .ok ⟨d, s⟩ ∧
    t.enter d = .ok ()
  new : t.entry? (n :: d) = none
  tree_eq : u = t.put (n :: d) e

theorem landAbove_eq_ok (h : t.landAbove q = .ok d) :
    ∃ s, t.landWithin linkLimit (startOf t.here q) q.names.dropLast false = .ok ⟨d, s⟩ ∧
      t.enter d = .ok () := by
  simp only [landAbove] at h
  split at h
  · cases h
  · split at h
    · cases h
    · rename_i l hl
      split at h
      · cases h
      · rename_i hent
        cases h
        exact ⟨l.slash, hl, hent⟩

theorem add_effect {u : FileTree} (h : t.add q e = .ok u) : ∃ n d, Added t u q n d e := by
  simp only [add] at h
  split at h
  · cases h
  · rename_i d hd
    split at h
    · cases h
    · rename_i n hlast
      split at h
      · cases h
      · rename_i hn
        rw [Bool.or_eq_true, decide_eq_true_iff, decide_eq_true_iff, not_or] at hn
        split at h
        · cases h
        · rename_i hnew
          split at h
          · cases h
            obtain ⟨ms, hms⟩ := List.getLast?_eq_some_iff.1 hlast
            exact ⟨n, d, by rw [hms, List.dropLast_concat],
              Path.plain_of_mem_names (List.mem_of_getLast? hlast) hn.1 hn.2, landAbove_eq_ok hd,
              by simpa using hnew, rfl⟩
          · cases h

namespace Proper

variable {follow : Place → Path → List Name → Bool → Except FileFault Landing}

theorem isDirectoryAt_startOf (ht : t.Proper) (hp : t.isDirectoryAt p = true) (q : Path) :
    t.isDirectoryAt (startOf p q) = true := by
  rw [startOf]
  split
  · exact ht.root
  · exact hp

theorem ends_of_landFrom (ht : t.Proper)
    (hfollow : ∀ p target rest slash l, t.isDirectoryAt p = true → Named rest →
      follow p target rest slash = .ok l → Ends t l.place)
    (hns : Named ns) (hp : t.isFileAt p = true ∨ t.isDirectoryAt p = true)
    (h : t.landFrom follow p ns slash = .ok l) : Ends t l.place := by
  induction ns generalizing p with
  | nil =>
    cases h
    exact hp.elim .file .directory
  | cons n ns ih =>
    have hrest : Named ns := fun m hm => hns m (List.mem_cons_of_mem n hm)
    cases turn t p n with
    | denied f hp' =>
      rw [landFrom_denied hp'] at h
      cases h
    | here hp' hn =>
      rw [hn, landFrom_here hp'] at h
      exact ih hrest hp h
    | up hp' hn =>
      rw [hn, landFrom_up hp'] at h
      obtain ⟨a, ha⟩ := isDirectoryAt_iff.1 (isDirectoryAt_of_enter hp')
      exact ih hrest (.inr (ht.isDirectoryAt_tail ha)) h
    | missing hp' hn hn' he =>
      rw [landFrom_missing hp' hn hn' he] at h
      split at h
      · cases h
        exact .missing n p rfl (hns n List.mem_cons_self hn hn') (isDirectoryAt_of_enter hp') he
      · cases h
    | link target hp' hn hn' he =>
      rw [landFrom_link hp' hn hn' he] at h
      exact hfollow p target ns slash l (isDirectoryAt_of_enter hp') hrest h
    | entry e hp' hn hn' he hlink =>
      rw [landFrom_entry hp' hn hn' he hlink] at h
      refine ih hrest ?_ h
      cases e with
      | file a b => exact .inl (isFileAt_iff.2 ⟨a, b, he⟩)
      | directory a => exact .inr (isDirectoryAt_iff.2 ⟨a, he⟩)
      | link target => exact absurd rfl (hlink target)

theorem ends_of_landWithin (ht : t.Proper) (hns : Named ns) (hp : t.isDirectoryAt p = true)
    (h : t.landWithin k p ns slash = .ok l) : Ends t l.place := by
  induction k generalizing p ns slash l with
  | zero =>
    rw [landWithin] at h
    refine ht.ends_of_landFrom (fun p target rest slash l _ _ h' => ?_) hns (.inr hp) h
    cases h'
  | succ k ih =>
    rw [landWithin] at h
    refine ht.ends_of_landFrom (fun p target rest slash l hp' hrest h' => ?_) hns (.inr hp) h
    exact ih ((named_names target).append hrest) (ht.isDirectoryAt_startOf hp' target) h'

theorem ends_of_land (ht : t.Proper) (h : t.land q = .ok l) : Ends t l.place := by
  simp only [land] at h
  split at h
  · cases h
  · exact ht.ends_of_landWithin (named_names q) (ht.isDirectoryAt_startOf ht.home q) h

/-- What is found is a file or a directory. -/
theorem isFileAt_or_isDirectoryAt (ht : t.Proper) (h : t.find q = .ok p) :
    t.isFileAt p = true ∨ t.isDirectoryAt p = true := by
  obtain ⟨s, hl⟩ := land_of_find h
  cases ht.ends_of_land hl with
  | file hfile => exact .inl hfile
  | directory hdir => exact .inr hdir
  | missing n d hp hn hd he => simp [find, hl, he] at h

/-! ## Trees that grow -/

theorem write {t' : FileTree} {b : Bytes} (ht : t.Proper) (h : t.write q b = .ok t') :
    t'.Proper := by
  obtain ⟨p, a, hw⟩ := write_effect h
  rcases hw.change with ⟨c, _, _, rfl⟩ | ⟨he, _, rfl⟩
  · exact ht.congr (outline_refill t p b)
  · cases ht.ends_of_land hw.ended with
    | file hfile => simp [isFileAt, he] at hfile
    | directory hdir => simp [isDirectoryAt, he] at hdir
    | missing n d hp hn hd _ =>
      subst hp
      refine ht.put ?_ hd fun hdir => ?_
      · intro m hm
        cases hm
        exact hn
      · simp [isDirectoryAt, he] at hdir

theorem add {t' : FileTree} (ht : t.Proper) (h : t.add q e = .ok t') : t'.Proper := by
  obtain ⟨n, d, ha⟩ := add_effect h
  obtain ⟨_, _, hent⟩ := ha.above
  rw [ha.tree_eq]
  refine ht.put ?_ (isDirectoryAt_of_enter hent) fun hdir => ?_
  · intro m hm
    cases hm
    exact ha.plain
  · simp [isDirectoryAt, ha.new] at hdir

theorem makeUpwards (ht : t.Proper) (qs : List Path) : (t.makeUpwards qs).2.Proper := by
  induction qs with
  | nil => exact ht
  | cons q above ih =>
    simp only [FileTree.makeUpwards]
    split
    · rename_i t' h
      exact ht.add h
    · split
      · rename_i e t' habove
        rw [habove] at ih
        exact ih
      · rename_i t' habove
        rw [habove] at ih
        split
        · rename_i t'' h
          exact ih.add h
        · simp only [settle]
          split <;> exact ih
    · simp only [settle]
      split <;> exact ht

theorem makeDirectories (ht : t.Proper) (q : Path) : (t.makeDirectories q).2.Proper :=
  ht.makeUpwards (lineage q)

end Proper
end FileTree
end IncludeOrder
