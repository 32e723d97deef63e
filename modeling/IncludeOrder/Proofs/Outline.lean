import IncludeOrder.FileTree.Walk

/-!
# IncludeOrder.Proofs.Outline

The outline of a tree is the tree with all its files emptied: what is where, of which kind, with which
links and which access. Where a path leads, which places are listed and what a walk finds depend on
the outline alone (`find_outline`, `key_outline`, `walk_outline`), so a change of contents, which
keeps the outline (`outline_refill`), changes none of it.

`TellsApart` is what the keys of paths need to tell files apart (`TellsApart.key_of_find`): without it,
one file may be met under two keys. It is a matter of the outline, too.
-/

namespace IncludeOrder

/-- An entry, emptied if it is a file. -/
def Entry.hollow : Entry → Entry
  | .file a _ => .file a []
  | .directory a => .directory a
  | .link q => .link q

namespace FileTree

def hollowAt (e : Place × Entry) : Place × Entry :=
  (e.1, e.2.hollow)

/-- The tree with its files emptied. -/
def outline (t : FileTree) : FileTree :=
  { t with entries := t.entries.map hollowAt }

variable {t t' : FileTree}

/-! ## Entries -/

theorem lookup_map (f : Place → Entry → Entry) (p : Place) (es : List (Place × Entry)) :
    (es.map fun e => (e.1, f e.1 e.2)).lookup p = (es.lookup p).map (f p) := by
  induction es with
  | nil => rfl
  | cons e es ih =>
    rw [List.map_cons, List.lookup_cons, List.lookup_cons]
    by_cases h : (p == e.1) = true
    · simp [beq_iff_eq.1 h]
    · simp [h, ih]

/-- Each entry is changed where it is. The outermost directory need not be among the entries. -/
theorem entry?_map {f : Place → Entry → Entry} (t : FileTree)
    (hf : f [] (.directory .full) = .directory .full) (p : Place) :
    FileTree.entry? { t with entries := t.entries.map fun e => (e.1, f e.1 e.2) } p =
      (t.entry? p).map (f p) := by
  simp only [lookup_map, FileTree.entry?]
  cases t.entries.lookup p with
  | some e => rfl
  | none =>
    by_cases h : p = []
    · simp [h, hf]
    · simp [h]

theorem entry?_outline (t : FileTree) (p : Place) :
    t.outline.entry? p = (t.entry? p).map Entry.hollow :=
  entry?_map (f := fun _ => Entry.hollow) t rfl p

@[simp] theorem here_outline (t : FileTree) : t.outline.here = t.here := rfl

@[simp] theorem shared_outline (t : FileTree) : t.outline.shared = t.shared := rfl

theorem isFileAt_outline (t : FileTree) (p : Place) : t.outline.isFileAt p = t.isFileAt p := by
  simp only [isFileAt, entry?_outline]
  cases t.entry? p with
  | none => rfl
  | some e => cases e <;> rfl

theorem searchableAt_outline (t : FileTree) (p : Place) :
    t.outline.searchableAt p = t.searchableAt p := by
  simp only [searchableAt, entry?_outline]
  cases t.entry? p with
  | none => rfl
  | some e => cases e <;> rfl

theorem reachable_outline (t : FileTree) (p : Place) : t.outline.reachable p = t.reachable p := by
  induction p with
  | nil => rfl
  | cons n p ih => rw [reachable, reachable, searchableAt_outline, ih]

theorem namesIn_outline (t : FileTree) (p : Place) : t.outline.namesIn p = t.namesIn p := by
  simp only [namesIn, outline, List.filterMap_map]
  rfl

theorem depth_outline (t : FileTree) : t.outline.depth = t.depth := by
  simp only [depth, outline, List.map_map]
  rfl

/-! ## Paths -/

theorem enter_outline (t : FileTree) (p : Place) : t.outline.enter p = t.enter p := by
  simp only [enter, entry?_outline]
  cases t.entry? p with
  | none => rfl
  | some e => cases e <;> rfl

theorem landFrom_outline (t : FileTree)
    (follow : Place → Path → List Name → Bool → Except FileFault Landing) :
    t.outline.landFrom follow = t.landFrom follow := by
  funext p ns slash
  induction ns generalizing p with
  | nil => rfl
  | cons n rest ih =>
    simp only [landFrom, enter_outline, entry?_outline, ih]
    cases t.entry? (n :: p) with
    | none => rfl
    | some e => cases e <;> rfl

theorem landWithin_outline (t : FileTree) (links : Nat) :
    t.outline.landWithin links = t.landWithin links := by
  induction links with
  | zero => rw [landWithin, landWithin, landFrom_outline]
  | succ k ih => rw [landWithin, landWithin, landFrom_outline, ih]

theorem land_outline (t : FileTree) (q : Path) : t.outline.land q = t.land q := by
  simp only [land, landWithin_outline, here_outline]

theorem find_outline (t : FileTree) (q : Path) : t.outline.find q = t.find q := by
  simp only [find, land_outline]
  cases t.land q with
  | error e => rfl
  | ok l =>
    simp only [entry?_outline]
    cases t.entry? l.place with
    | none => rfl
    | some e => cases e <;> rfl

theorem key_outline (t : FileTree) (q : Path) : t.outline.key q = t.key q := by
  simp only [key, canonical, find_outline, reachable_outline, here_outline]

/-! ## Walks -/

theorem list_outline (t : FileTree) (q : Path) : t.outline.list q = t.list q := by
  simp only [list, find_outline, namesIn_outline]
  cases t.find q with
  | error e => rfl
  | ok p =>
    simp only [entry?_outline]
    cases t.entry? p with
    | none => rfl
    | some e => cases e <;> rfl

theorem walkFrom_outline (t : FileTree) (skips : Name → Bool) (fuel : Nat) (p : Place) (q : Path) :
    t.outline.walkFrom skips fuel p q = t.walkFrom skips fuel p q := by
  induction fuel generalizing p q with
  | zero => rfl
  | succ fuel ih =>
    simp only [walkFrom, list_outline]
    cases t.list q with
    | error e => rfl
    | ok ns =>
      refine congrArg (fun f => ns.flatMap f) (funext fun n => ?_)
      by_cases hs : skips n = true
      · simp [hs]
      · simp only [entry?_outline, ih]
        cases t.entry? (n :: p) with
        | none => rfl
        | some e => cases e <;> rfl

theorem walk_outline (t : FileTree) (skips : Name → Bool) (p : Place) (q : Path) :
    t.outline.walk skips p q = t.walk skips p q := by
  rw [walk, walk, depth_outline, walkFrom_outline]

/-! ## Trees with one outline -/

theorem find_congr (h : t'.outline = t.outline) (q : Path) : t'.find q = t.find q := by
  rw [← find_outline t', h, find_outline]

theorem key_congr (h : t'.outline = t.outline) (q : Path) : t'.key q = t.key q := by
  rw [← key_outline t', h, key_outline]

theorem isFileAt_congr (h : t'.outline = t.outline) (p : Place) :
    t'.isFileAt p = t.isFileAt p := by
  rw [← isFileAt_outline t', h, isFileAt_outline]

theorem walk_congr (h : t'.outline = t.outline) (skips : Name → Bool) (p : Place) (q : Path) :
    t'.walk skips p q = t.walk skips p q := by
  rw [← walk_outline t', h, walk_outline]

/-! ## Changes -/

theorem lookup_putIn_self (p : Place) (e : Entry) (es : List (Place × Entry)) :
    (putIn p e es).lookup p = some e := by
  induction es with
  | nil => simp [putIn]
  | cons x es ih =>
    obtain ⟨r, f⟩ := x
    by_cases h : r = p
    · simp [putIn, h]
    · have hb : (p == r) = false := by simpa using Ne.symm h
      simp [putIn, h, List.lookup_cons, hb, ih]

theorem lookup_putIn_ne {p q : Place} (h : q ≠ p) (e : Entry) (es : List (Place × Entry)) :
    (putIn p e es).lookup q = es.lookup q := by
  have hb : (q == p) = false := by simpa using h
  induction es with
  | nil => simp [putIn, List.lookup_cons, hb]
  | cons x es ih =>
    obtain ⟨r, f⟩ := x
    by_cases hr : r = p
    · simp [putIn, hr, List.lookup_cons, hb]
    · simp [putIn, hr, List.lookup_cons, ih]

@[simp] theorem entry?_put_self (t : FileTree) (p : Place) (e : Entry) :
    FileTree.entry? (t.put p e) p = some e := by
  simp only [put, entry?, lookup_putIn_self]

theorem entry?_put_ne {p q : Place} (h : q ≠ p) (t : FileTree) (e : Entry) :
    FileTree.entry? (t.put p e) q = t.entry? q := by
  simp only [put, entry?, lookup_putIn_ne h]

/-! ## Contents -/

theorem hollow_refill (b : Bytes) (e : Entry) : (e.refill b).hollow = e.hollow := by
  cases e <;> rfl

theorem outline_refill (t : FileTree) (p : Place) (b : Bytes) :
    FileTree.outline (t.refill p b) = t.outline := by
  simp only [outline, refill, List.map_map]
  congr 1
  refine List.map_congr_left fun e _ => ?_
  simp only [Function.comp_apply, hollowAt]
  split
  · rw [hollow_refill]
  · rfl

theorem entry?_refill (t : FileTree) (p q : Place) (b : Bytes) :
    FileTree.entry? (t.refill p b) q =
      (t.entry? q).map fun e => if t.sameFile p q then e.refill b else e := by
  refine entry?_map (f := fun r e => if t.sameFile p r then e.refill b else e) t ?_ q
  split <;> rfl

theorem entry?_refill_self {p : Place} {a : Access} {c : Bytes} (h : t.entry? p = some (.file a c))
    (b : Bytes) : FileTree.entry? (t.refill p b) p = some (.file a b) := by
  simp [entry?_refill, h, sameFile, Entry.refill]

/-! ## Files that are told apart -/

/-- What the keys of paths need to tell files apart: the directories above the working directory can be
searched, so a path that leads somewhere has a place for its key, and no file has a second name. -/
structure TellsApart (t : FileTree) : Prop where
  above : t.reachable t.here = true
  single : t.shared = []

namespace TellsApart

theorem congr (ht : t.TellsApart) (h : t'.outline = t.outline) : t'.TellsApart := by
  have hhere : t'.here = t.here := by rw [← here_outline t', h, here_outline]
  refine ⟨?_, ?_⟩
  · rw [hhere, ← reachable_outline t', h, reachable_outline]
    exact ht.above
  · rw [← shared_outline t', h, shared_outline]
    exact ht.single

theorem key_of_find (ht : t.TellsApart) {q : Path} {p : Place} (h : t.find q = .ok p) :
    t.key q = .place p := by
  simp [key, canonical, ht.above, h]

/-- Two paths of one file have one key. -/
theorem key_eq (ht : t.TellsApart) {q r : Path} {p : Place} (h : t.find q = .ok p)
    (h' : t.find r = .ok p) : t.key r = t.key q := by
  rw [ht.key_of_find h, ht.key_of_find h']

/-- A working directory below a directory that cannot be searched, and a file `x` in it. -/
def barredTree : FileTree where
  here := [[0x62], [0x61]]
  entries :=
    [([[0x61]], .directory ⟨true, true, false⟩),
     ([[0x62], [0x61]], .directory .full),
     ([[0x78], [0x62], [0x61]], .file .full [])]

/-- There, `x` and `./x` lead to one file and have two keys. -/
example :
    barredTree.find ⟨[0x78]⟩ = .ok [[0x78], [0x62], [0x61]] ∧
      barredTree.find ⟨[0x2E, 0x2F, 0x78]⟩ = .ok [[0x78], [0x62], [0x61]] ∧
      barredTree.key ⟨[0x78]⟩ ≠ barredTree.key ⟨[0x2E, 0x2F, 0x78]⟩ :=
  ⟨rfl, rfl, by decide⟩

theorem find_of_key (ht : t.TellsApart) {q : Path} {p : Place} (h : t.key q = .place p) :
    t.find q = .ok p := by
  simp only [key, canonical, ht.above, Bool.or_true, if_true] at h
  cases hf : t.find q with
  | error e => simp [hf] at h
  | ok r =>
    simp only [hf] at h
    cases h
    rfl

theorem entry?_refill_ne (ht : t.TellsApart) {p q : Place} (h : q ≠ p) (b : Bytes) :
    FileTree.entry? (t.refill p b) q = t.entry? q := by
  simp [entry?_refill, sameFile, ht.single, Ne.symm h]

end TellsApart
end FileTree
end IncludeOrder
