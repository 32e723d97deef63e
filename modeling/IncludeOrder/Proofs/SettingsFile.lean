import IncludeOrder.Proofs.Growth
import IncludeOrder.Proofs.SettingsText
import Mathlib

/-!
# IncludeOrder.Proofs.SettingsFile

The settings in their file. What a change of the file has done is known from its result: a failed one
has made directories at most (`store_error`), and after one that succeeded the file holds the text
(`store_effect`). A file that holds the text of some settings is read as these
(`load_of_written`), so what is saved is what is loaded next (`load_save`).
-/

namespace IncludeOrder
namespace Settings

open FileTree (Furnishes Written)

variable {t t' : FileTree} {base : Path} {p : Place} {a : Access} {b : Bytes} {s : Settings}
variable {text : Text} {f : FileFault}

/-! ## Reading -/

theorem pathExists_of_holds (h : t.Holds (file base) p a b) : t.pathExists (file base) = true := by
  simp [FileTree.pathExists, h.found]

theorem load_of_not_exists (h : t.pathExists (file base) = false) : load t base = .ok default := by
  simp [load, h]

theorem load_of_holds {d : Toml.Entries} (h : t.Holds (file base) p a (Utf8.encode text))
    (ha : a.read = true) (hd : Toml.read text = some d) (hs : ofDocument? d = some s) :
    load t base = .ok s := by
  have htext : t.readText (file base) = .ok text := h.readText_eq ha (Utf8.decode?_encode text)
  simp [load, pathExists_of_holds h, htext, hd, hs]

theorem load_of_written (h : t.Holds (file base) p a (Utf8.encode s.written))
    (ha : a.read = true) : load t base = .ok s :=
  load_of_holds h ha (read_written s) (ofDocument?_document s)

theorem load_of_template (h : t.Holds (file base) p a (Utf8.encode template))
    (ha : a.read = true) : load t base = .ok default :=
  load_of_holds h ha read_template (ofDocument?_document default)

theorem load_of_unreadable (h : t.Holds (file base) p a b) (ha : a.read = false) :
    load t base = .error (.system .denied) := by
  have hb : t.readBytes (file base) = .error .denied := by
    simp [FileTree.readBytes, h.found, h.entry, ha]
  simp [load, pathExists_of_holds h, FileTree.readText, hb]

/-! ## Changing -/

theorem store_effect (h : store t base text = (.ok (), t')) :
    ∃ t₁ p a, t.makeDirectories base = (.ok (), t₁) ∧
      Written t₁ t' (file base) p a (Utf8.encode text) := by
  simp only [store] at h
  split at h
  · cases h
  · rename_i t₁ hmade
    split at h
    · cases h
    · rename_i t₂ hw
      cases h
      obtain ⟨p, a, hwritten⟩ := FileTree.write_effect hw
      exact ⟨t₁, p, a, hmade, hwritten⟩

theorem store_error (h : store t base text = (.error f, t')) :
    Furnishes t t' (FileTree.lineage base) := by
  have hmade := FileTree.makeDirectories_furnishes t base
  simp only [store] at h
  split at h
  · rename_i e t₁ heq
    cases h
    rwa [heq] at hmade
  · rename_i t₁ heq
    rw [heq] at hmade
    split at h
    · cases h
      exact hmade
    · cases h

theorem save_eq_ok : s.save t base = (.ok (), t') ↔ store t base s.written = (.ok (), t') := by
  rw [save]
  cases hs : store t base s.written with
  | mk r u => cases r <;> simp [orFailure]

theorem save_eq_error {e : Failure} (h : s.save t base = (.error e, t')) :
    ∃ f, store t base s.written = (.error f, t') := by
  rw [save] at h
  cases hs : store t base s.written with
  | mk r u =>
    rw [hs] at h
    cases r with
    | error f =>
      cases h
      exact ⟨f, rfl⟩
    | ok x => cases h

/-- What is saved is loaded again, list by list and text by text, if the file may be read. -/
theorem load_save (s : Settings) (h : s.save t base = (.ok (), t'))
    (hr : t'.Readable (file base)) : load t' base = .ok s := by
  obtain ⟨t₁, p, a, _, hw⟩ := store_effect (save_eq_ok.1 h)
  obtain ⟨p', a', b', hold, ha⟩ := hr
  obtain ⟨_, rfl, _⟩ := hw.holds.unique hold
  exact load_of_written hw.holds ha

/-- Quotes of both kinds in runs, backslashes, control characters, line ends, an empty text. -/
def awkward : Settings :=
  ⟨["".toList, "a\"b'c".toList, "\\'''".toList, "'\"\"\"\n".toList, "\n\n\r\nx".toList],
    ["\t\x00\x1b\x7f'".toList, "\\".toList, "]\n[files]".toList, "ä€𝄞".toList]⟩

def nestedBase : Path :=
  Path.ofText "a/b".toList

theorem load_save_awkward :
    ∃ t', awkward.save .empty nestedBase = (.ok (), t') ∧ t'.Readable (file nestedBase) ∧
      load t' nestedBase = .ok awkward := by
  have hrun : (match awkward.save .empty nestedBase with
    | (.ok (), u) => (u.readBytes (file nestedBase)).isOk = true
    | (.error _, _) => False) := by cbv
  split at hrun
  · rename_i u hs
    have hr : u.Readable (file nestedBase) := by
      cases hb : u.readBytes (file nestedBase) with
      | error f => simp [hb, Except.isOk, Except.toBool] at hrun
      | ok b =>
        obtain ⟨p, a, hold⟩ := FileTree.readBytes_eq_ok.1 hb
        exact ⟨p, a, b, hold⟩
    exact ⟨u, hs, hr, load_save awkward hs hr⟩
  · exact hrun.elim

end Settings
end IncludeOrder
