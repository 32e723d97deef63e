import IncludeOrder.Proofs.Landing

/-!
# IncludeOrder.Proofs.Growth

Trees that grow. `Extends t u` says that all that is in `t` is also in `u`, apart from what the files
contain, and that `u` has no link besides. Then a path that ends somewhere in `t` ends there in `u`
(`Extends.land`, `Extends.find`).

Writing a file extends the tree, and what was written is at the end of the path (`write_effect`,
`Written.holds`). Making directories changes nothing that was there and adds directories alone, each at
the end of a path that was asked for (`makeDirectories_furnishes`); where the directory is there
already, it changes nothing (`makeDirectories_of_isDirectory`).
-/

namespace IncludeOrder
namespace FileTree

open IncludeOrder.Path (Plain)

variable {t u v : FileTree} {p d : Place} {q : Path} {n : Name} {ns : List Name} {e : Entry}
variable {a : Access} {b : Bytes} {k : Nat} {slash : Bool} {l : Landing} {qs : List Path}

/-- `u` has what `t` has, perhaps with other contents of files, and no link besides. -/
structure Extends (t u : FileTree) : Prop where
  here_eq : u.here = t.here
  kept : ∀ p e, t.entry? p = some e → ∃ e', u.entry? p = some e' ∧ e'.hollow = e.hollow
  no_link : ∀ p target, u.entry? p = some (.link target) → t.entry? p = some (.link target)

namespace Extends

theorem entry_directory (h : Extends t u) (he : t.entry? p = some (.directory a)) :
    u.entry? p = some (.directory a) := by
  obtain ⟨e', he', hollow⟩ := h.kept p _ he
  cases e' with
  | directory a' =>
    cases hollow
    exact he'
  | file a' b' => cases hollow
  | link target => cases hollow

theorem entry_link {target : Path} (h : Extends t u) (he : t.entry? p = some (.link target)) :
    u.entry? p = some (.link target) := by
  obtain ⟨e', he', hollow⟩ := h.kept p _ he
  cases e' with
  | link target' =>
    cases hollow
    exact he'
  | file a' b' => cases hollow
  | directory a' => cases hollow

theorem enter (h : Extends t u) (hp : t.enter p = .ok ()) : u.enter p = .ok () := by
  simp only [FileTree.enter] at hp
  split at hp
  · cases hp
  · rename_i a ha
    simp only [FileTree.enter, h.entry_directory ha]
    exact hp
  · cases hp

/-! ## Paths -/

section

variable {follow follow' : Place → Path → List Name → Bool → Except FileFault Landing}

theorem landFrom (h : Extends t u)
    (hfollow : ∀ p target rest slash l, follow p target rest slash = .ok l →
      follow' p target rest slash = .ok l)
    (hl : t.landFrom follow p ns slash = .ok l) : u.landFrom follow' p ns slash = .ok l := by
  induction ns generalizing p with
  | nil => exact hl
  | cons n ns ih =>
    cases turn t p n with
    | denied f hp =>
      rw [landFrom_denied hp] at hl
      cases hl
    | here hp hn =>
      subst hn
      rw [landFrom_here hp] at hl
      rw [landFrom_here (h.enter hp)]
      exact ih hl
    | up hp hn =>
      subst hn
      rw [landFrom_up hp] at hl
      rw [landFrom_up (h.enter hp)]
      exact ih hl
    | missing hp hn hn' he =>
      -- what has come there since is no link, so the path still ends there
      rw [landFrom_missing hp hn hn' he] at hl
      split at hl
      · rename_i hns
        subst hns
        cases hu : u.entry? (n :: p) with
        | none => rwa [landFrom_missing (h.enter hp) hn hn' hu, if_pos rfl]
        | some e =>
          have hlink : ∀ target, e ≠ .link target := by
            rintro target rfl
            rw [h.no_link _ target hu] at he
            cases he
          rw [landFrom_entry (h.enter hp) hn hn' hu hlink]
          exact hl
      · cases hl
    | link target hp hn hn' he =>
      rw [landFrom_link hp hn hn' he] at hl
      rw [landFrom_link (h.enter hp) hn hn' (h.entry_link he)]
      exact hfollow p target ns slash l hl
    | entry e hp hn hn' he hlink =>
      obtain ⟨e', he', hollow⟩ := h.kept _ e he
      have hlink' : ∀ target, e' ≠ .link target := by
        rintro target rfl
        rw [h.no_link _ target he'] at he
        cases he
        exact hlink target rfl
      rw [landFrom_entry hp hn hn' he hlink] at hl
      rw [landFrom_entry (h.enter hp) hn hn' he' hlink']
      exact ih hl

end

theorem landWithin (h : Extends t u) (hl : t.landWithin k p ns slash = .ok l) :
    u.landWithin k p ns slash = .ok l := by
  induction k generalizing p ns slash l with
  | zero =>
    rw [FileTree.landWithin] at hl ⊢
    exact h.landFrom (fun _ _ _ _ _ h' => h') hl
  | succ k ih =>
    rw [FileTree.landWithin] at hl ⊢
    exact h.landFrom (fun _ _ _ _ _ h' => ih h') hl

theorem land (h : Extends t u) (hl : t.land q = .ok l) : u.land q = .ok l := by
  simp only [FileTree.land, h.here_eq] at hl ⊢
  split at hl
  · cases hl
  · rename_i hq
    rw [if_neg hq]
    exact h.landWithin hl

theorem find (h : Extends t u) (hf : t.find q = .ok p) : u.find q = .ok p := by
  obtain ⟨slash, hl⟩ := land_of_find hf
  simp only [FileTree.find, hl] at hf
  simp only [FileTree.find, h.land hl]
  split at hf
  · cases hf
  · rename_i a ha
    simp only [h.entry_directory ha]
  · rename_i e hdir he
    obtain ⟨e', he', hollow⟩ := h.kept p e he
    cases e' with
    | directory a =>
      cases e with
      | directory a' => exact absurd rfl (hdir a')
      | file _ _ | link _ => cases hollow
    | file _ _ | link _ =>
      simp only [he']
      exact hf

end Extends

/-! ## Files -/

theorem extends_put (hp : t.entry? p = none) (hlink : ∀ target, e ≠ .link target) :
    Extends t (t.put p e) := by
  refine ⟨rfl, fun r f hr => ?_, fun r target hr => ?_⟩
  · have hne : r ≠ p := by
      rintro rfl
      rw [hp] at hr
      cases hr
    exact ⟨f, by rw [entry?_put_ne hne, hr], rfl⟩
  · by_cases hrp : r = p
    · rw [hrp, entry?_put_self] at hr
      cases hr
      exact absurd rfl (hlink target)
    · rwa [entry?_put_ne hrp] at hr

theorem extends_refill (t : FileTree) (p : Place) (b : Bytes) : Extends t (t.refill p b) := by
  refine ⟨rfl, fun r e hr => ?_, fun r target hr => ?_⟩
  · refine ⟨_, by rw [entry?_refill, hr, Option.map_some], ?_⟩
    split
    · exact hollow_refill b e
    · rfl
  · rw [entry?_refill, Option.map_eq_some_iff] at hr
    obtain ⟨e, he, hlink⟩ := hr
    rw [he]
    -- a new content makes no link of what was none
    cases e with
    | link target' => simpa [Entry.refill] using hlink
    | file a c => split at hlink <;> cases hlink
    | directory a => split at hlink <;> cases hlink

namespace Written

theorem grows (h : Written t u q p a b) : Extends t u := by
  rcases h.change with ⟨_, _, _, rfl⟩ | ⟨he, _, rfl⟩
  · exact extends_refill t p b
  · exact extends_put he nofun

theorem entry_self (h : Written t u q p a b) : u.entry? p = some (.file a b) := by
  rcases h.change with ⟨_, he, _, rfl⟩ | ⟨_, _, rfl⟩
  · exact entry?_refill_self he b
  · exact entry?_put_self t p _

theorem holds (h : Written t u q p a b) : u.Holds q p a b := by
  refine ⟨?_, h.entry_self⟩
  simp only [find, h.grows.land h.ended, h.entry_self, Bool.false_eq_true, if_false]

end Written

/-! ## Directories -/

namespace Added

theorem grows (h : Added t u q n d e) (hlink : ∀ target, e ≠ .link target) : Extends t u := by
  rw [h.tree_eq]
  exact extends_put h.new hlink

/-- A new directory is what its path leads to. -/
theorem find_eq (h : Added t u q n d (.directory a)) : u.find q = .ok (n :: d) := by
  have hext := h.grows nofun
  obtain ⟨s, hl, hent⟩ := h.above
  have hself : u.entry? (n :: d) = some (.directory a) := by
    rw [h.tree_eq]
    exact entry?_put_self t _ _
  have hlink : ∀ target, u.entry? (n :: d) ≠ some (.link target) := by
    intro target
    rw [hself]
    simp
  have hland := landWithin_append (hext.enter hent) h.plain hlink (hext.landWithin hl) q.endsInSlash
  have hq : q.bytes ≠ [] := by
    intro hnil
    have hnames := h.names
    simp [Path.names, hnil] at hnames
  rw [← h.names] at hland
  simp only [find, land, isEmpty_of_ne_nil hq, hext.here_eq, hland, hself, Bool.false_eq_true,
    if_false]

end Added

/-- `u` is `t` with directories made at the end of some of the paths. -/
structure Furnishes (t u : FileTree) (qs : List Path) : Prop where
  here_eq : u.here = t.here
  shared_eq : u.shared = t.shared
  granted_eq : u.granted = t.granted
  entry : ∀ p, u.entry? p = t.entry? p ∨
    (t.entry? p = none ∧ u.entry? p = some (.directory t.granted) ∧ ∃ q ∈ qs, u.find q = .ok p)

namespace Furnishes

theorem refl (t : FileTree) (qs : List Path) : Furnishes t t qs :=
  ⟨rfl, rfl, rfl, fun _ => .inl rfl⟩

theorem mono {rs : List Path} (h : Furnishes t u qs) (hqs : ∀ q ∈ qs, q ∈ rs) : Furnishes t u rs := by
  refine ⟨h.here_eq, h.shared_eq, h.granted_eq, fun p => (h.entry p).imp_right ?_⟩
  rintro ⟨hp, hu, q, hq, hf⟩
  exact ⟨hp, hu, q, hqs q hq, hf⟩

theorem grows (h : Furnishes t u qs) : Extends t u := by
  refine ⟨h.here_eq, fun p e he => ?_, fun p target hl => ?_⟩
  · rcases h.entry p with hu | ⟨hp, _⟩
    · exact ⟨e, by rw [hu, he], rfl⟩
    · rw [hp] at he
      cases he
  · rcases h.entry p with hu | ⟨_, hu, _⟩
    · rwa [hu] at hl
    · rw [hu] at hl
      cases hl

theorem trans (h : Furnishes t u qs) (h' : Furnishes u v qs) : Furnishes t v qs := by
  refine ⟨h'.here_eq.trans h.here_eq, h'.shared_eq.trans h.shared_eq,
    h'.granted_eq.trans h.granted_eq, fun p => ?_⟩
  rcases h'.entry p with hv | ⟨hu, hv, hfound⟩
  · rcases h.entry p with hu | ⟨hp, hu, q, hq, hf⟩
    · exact .inl (hv.trans hu)
    · exact .inr ⟨hp, hv.trans hu, q, hq, h'.grows.find hf⟩
  · rcases h.entry p with hu' | ⟨_, hu', _⟩
    · exact .inr ⟨hu' ▸ hu, h.granted_eq ▸ hv, hfound⟩
    · rw [hu] at hu'
      cases hu'

theorem entry_file (h : Furnishes t u qs) (hu : u.entry? p = some (.file a b)) :
    t.entry? p = some (.file a b) := by
  rcases h.entry p with hp | ⟨_, hp, _⟩
  · rw [← hp, hu]
  · rw [hp] at hu
    cases hu

/-- If no directory has been made, a path leads where it led. -/
theorem find_of_not_made (h : Furnishes t u qs)
    (hmade : ¬ ∃ r, t.entry? r = none ∧ u.entry? r = some (.directory t.granted))
    (hu : u.find q = .ok p) : t.find q = .ok p := by
  have hsame : ∀ r, u.entry? r = t.entry? r := by
    intro r
    rcases h.entry r with hr | ⟨hr, hr', _⟩
    · exact hr
    · exact absurd ⟨r, hr, hr'⟩ hmade
  have hback : Extends u t :=
    ⟨h.here_eq.symm, fun r e he => ⟨e, (hsame r).symm.trans he, rfl⟩,
      fun r _ hr => (hsame r).trans hr⟩
  exact hback.find hu

end Furnishes

theorem makeDirectory_furnishes (h : t.makeDirectory q = .ok u) (hq : q ∈ qs) :
    Furnishes t u qs := by
  obtain ⟨n, d, ha⟩ := add_effect h
  refine ⟨by rw [ha.tree_eq]; rfl, by rw [ha.tree_eq]; rfl, by rw [ha.tree_eq]; rfl, fun p => ?_⟩
  by_cases hp : p = n :: d
  · subst hp
    refine .inr ⟨ha.new, ?_, q, hq, ha.find_eq⟩
    rw [ha.tree_eq]
    exact entry?_put_self t _ _
  · rw [ha.tree_eq]
    exact .inl (entry?_put_ne hp t _)

theorem settle_snd (t : FileTree) (q : Path) (f : FileFault) : (t.settle q f).2 = t := by
  rw [settle]
  split <;> rfl

theorem makeUpwards_furnishes (t : FileTree) (qs : List Path) :
    Furnishes t (t.makeUpwards qs).2 qs := by
  induction qs with
  | nil => exact .refl t []
  | cons q above ih =>
    have habove : Furnishes t (t.makeUpwards above).2 (q :: above) :=
      ih.mono fun r hr => List.mem_cons_of_mem q hr
    simp only [makeUpwards]
    split
    · rename_i u h
      exact makeDirectory_furnishes h List.mem_cons_self
    · split
      · rename_i f u hu
        rw [hu] at habove
        exact habove
      · rename_i u hu
        rw [hu] at habove
        split
        · rename_i v h
          exact habove.trans (makeDirectory_furnishes h List.mem_cons_self)
        · rw [settle_snd]
          exact habove
    · rw [settle_snd]
      exact .refl t _

/-- Whether it succeeds or not, only directories on the way are made. -/
theorem makeDirectories_furnishes (t : FileTree) (q : Path) :
    Furnishes t (t.makeDirectories q).2 (lineage q) :=
  makeUpwards_furnishes t (lineage q)

/-- Where there is something, no directory is made. -/
theorem makeDirectory_of_find (h : t.find q = .ok p) (hns : q.names = ns ++ [n]) :
    t.makeDirectory q = .error .alreadyThere := by
  obtain ⟨s, hl⟩ := landWithin_of_find h
  rw [hns] at hl
  obtain ⟨d, s', hd, hent, hstep⟩ := landWithin_concat hl false
  have habove : t.landAbove q = .ok d := by
    simp [landAbove, isEmpty_of_ne_nil (bytes_ne_nil_of_find h), hns, hd, hent]
  have hlast : q.names.getLast? = some n := by rw [hns, List.getLast?_concat]
  simp only [makeDirectory, add, habove, hlast]
  cases hstep with
  | here hn _ => simp [hn]
  | up hn _ => simp [hn]
  | link target htarget => simp [htarget]
  | entry hn hn' hp =>
    obtain ⟨e, he⟩ := exists_entry_of_find h
    have he' : t.entry? (n :: d) = some e := hp ▸ he
    simp [he']

theorem makeDirectories_of_isDirectory (h : t.isDirectory q = true) :
    t.makeDirectories q = (.ok (), t) := by
  rw [makeDirectories, lineage]
  split
  · rfl
  · rename_i m r hparts
    have hnames : q.names ≠ [] := by
      intro hnil
      simp [Path.parts, hnil] at hparts
    obtain ⟨ns, n, hns⟩ := (List.eq_nil_or_concat q.names).resolve_left hnames
    obtain ⟨p, hp⟩ : ∃ p, t.find q = .ok p := by
      simp only [isDirectory] at h
      split at h
      · rename_i p hp
        exact ⟨p, hp⟩
      · cases h
    rw [List.concat_eq_append] at hns
    simp only [makeUpwards, makeDirectory_of_find hp hns, settle, h, if_true]

end FileTree
end IncludeOrder
