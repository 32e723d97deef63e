import IncludeOrder.FileTree.Files
import IncludeOrder.Proofs.Outline
import IncludeOrder.Proofs.Utf8

/-!
# IncludeOrder.Proofs.Files

Reading and writing a file that is there. `Holds` says where a path leads and what the file there
contains; writing replaces exactly that content (`Holds.write_eq`), and what was written is what a
reader then gets (`Holds.readText_eq`). What a path reads depends on the outline of the tree and on
one entry (`readText_congr`).
-/

namespace IncludeOrder
namespace FileTree

variable {t t' : FileTree} {q : Path} {p : Place} {a : Access} {b : Bytes}

/-- The path leads to a file, to its place, its access and its content. -/
structure Holds (t : FileTree) (q : Path) (p : Place) (a : Access) (b : Bytes) : Prop where
  found : t.find q = .ok p
  entry : t.entry? p = some (.file a b)

def Readable (t : FileTree) (q : Path) : Prop :=
  ∃ p a b, t.Holds q p a b ∧ a.read = true

def Writable (t : FileTree) (q : Path) : Prop :=
  ∃ p a b, t.Holds q p a b ∧ a.write = true

theorem readBytes_eq_ok :
    t.readBytes q = .ok b ↔ ∃ p a, t.Holds q p a b ∧ a.read = true := by
  constructor
  · intro h
    simp only [readBytes] at h
    split at h
    · cases h
    · rename_i p hf
      split at h
      · rename_i a c he
        split at h
        · rename_i hr
          cases h
          exact ⟨p, a, ⟨hf, he⟩, hr⟩
        · cases h
      · split at h <;> cases h
      · cases h
  · rintro ⟨p, a, h, hr⟩
    simp [readBytes, h.found, h.entry, hr]

theorem readText_eq_ok {text : Text} :
    t.readText q = .ok text ↔
      ∃ p a b, t.Holds q p a b ∧ a.read = true ∧ Utf8.decode? b = some text := by
  constructor
  · intro h
    simp only [readText] at h
    split at h
    · cases h
    · rename_i b hb
      obtain ⟨p, a, hold, hr⟩ := readBytes_eq_ok.1 hb
      split at h
      · cases h
      · rename_i u hd
        cases h
        exact ⟨p, a, b, hold, hr, hd⟩
  · rintro ⟨p, a, b, h, hr, hd⟩
    simp [readText, readBytes_eq_ok.2 ⟨p, a, h, hr⟩, hd]

theorem readText_congr (ho : t'.outline = t.outline)
    (he : ∀ p, t.find q = .ok p → t'.entry? p = t.entry? p) : t'.readText q = t.readText q := by
  simp only [readText, readBytes, find_congr ho]
  cases hf : t.find q with
  | error e => rfl
  | ok p => simp only [he p hf]

namespace Holds

theorem unique {p' : Place} {a' : Access} {b' : Bytes} (h : t.Holds q p a b)
    (h' : t.Holds q p' a' b') : p = p' ∧ a = a' ∧ b = b' := by
  have hp : p = p' := Except.ok.inj (h.found.symm.trans h'.found)
  subst hp
  have he := h.entry.symm.trans h'.entry
  cases he
  exact ⟨rfl, rfl, rfl⟩

theorem congr (h : t.Holds q p a b) (ho : t'.outline = t.outline)
    (he : t'.entry? p = t.entry? p) : t'.Holds q p a b :=
  ⟨by rw [find_congr ho, h.found], by rw [he, h.entry]⟩

theorem readText_eq (h : t.Holds q p a b) (hr : a.read = true) {text : Text}
    (hd : Utf8.decode? b = some text) : t.readText q = .ok text :=
  readText_eq_ok.2 ⟨p, a, b, h, hr, hd⟩

theorem land_eq (h : t.Holds q p a b) : t.land q = .ok ⟨p, false⟩ := by
  -- a slash at the end of a path stands for a directory, and there is a file
  have hf := h.found
  simp only [find] at hf
  cases hl : t.land q with
  | error e => rw [hl] at hf; cases hf
  | ok l =>
    obtain ⟨r, slash⟩ := l
    rw [hl] at hf
    cases he : t.entry? r with
    | none => simp [he] at hf
    | some x =>
      simp only [he] at hf
      cases x with
      | directory d =>
        cases hf
        rw [h.entry] at he
        cases he
      | file _ _ | link _ =>
        cases slash
        · cases hf
          rfl
        · cases hf

theorem write_eq (h : t.Holds q p a b) (c : Bytes) :
    t.write q c = if a.write then .ok (t.refill p c) else .error .denied := by
  simp [write, h.land_eq, h.entry]

end Holds
end FileTree
end IncludeOrder
