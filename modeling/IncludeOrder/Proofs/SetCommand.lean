import IncludeOrder.CommandLine.Session
import IncludeOrder.Proofs.SettingsFile

/-!
# IncludeOrder.Proofs.SetCommand

The command that sets a key, on any tree (`runSet_effect`). If it fails, it has made directories on the
way to the base directory at most. If it succeeds, the settings were loaded, one list of them is
replaced, and these settings are what is loaded next.

If the owner may read what is made, there is one way to miss that: the path of the file leads nowhere, so
that the default settings are loaded, and leads to a file once the directories on the way are made
(`Overlooked`). Such a file is replaced; if it cannot be read, nothing is loaded from it afterwards.
-/

namespace IncludeOrder
namespace Settings

open FileTree (Furnishes Written)

variable {t u : FileTree} {base : Path} {s s' : Settings} {key value : Text}

/-- A key that is set is one of the keys, and the other list stays as it is. -/
theorem set_eq_ok (h : s.set key value = .ok s') :
    ∃ k : Key, k.name = key ∧ ∀ k', k' ≠ k → s'.value k' = s.value k' := by
  simp only [set] at h
  split at h
  · cases h
  · rename_i hk
    cases h
    refine ⟨.extensions, by simpa using List.find?_some hk, fun k' hk' => ?_⟩
    cases k' with
    | extensions => exact absurd rfl hk'
    | exclude => rfl
  · rename_i hk
    split at h
    · cases h
    · cases h
      refine ⟨.exclude, by simpa using List.find?_some hk, fun k' hk' => ?_⟩
      cases k' with
      | extensions => rfl
      | exclude => exact absurd rfl hk'

/-- From `t` to `u` directories have been made, and so the path of the file, which led nowhere, leads to
a file that was there, that can be written and not read. -/
structure Overlooked (t u : FileTree) (base : Path) : Prop where
  missing : t.pathExists (file base) = false
  made : ∃ p, t.entry? p = none ∧ u.entry? p = some (.directory t.granted)
  found : ∃ p a b, u.find (file base) = .ok p ∧ t.entry? p = some (.file a b) ∧
    a.write = true ∧ a.read = false

/-- A file that is written, and that can then not be read, was overlooked when the settings were
loaded. -/
theorem overlooked_of_unreadable {t₁ : FileTree} {qs : List Path} {p : Place} {a : Access} {b : Bytes}
    (hload : load t base = .ok s) (hnew : t.granted.read = true) (hf : Furnishes t t₁ qs)
    (hw : Written t₁ u (file base) p a b) (ha : a.read = false) : Overlooked t u base := by
  rcases hw.change with ⟨c, hp₁, hwrite, _⟩ | ⟨_, rfl, _⟩
  · have hp : t.entry? p = some (.file a c) := hf.entry_file hp₁
    have hfind₁ : t₁.find (file base) = .ok p := by
      simp [FileTree.find, hw.ended, hp₁]
    have hnot : ∀ r, t.find (file base) ≠ .ok r := by
      intro r hr
      have hrp : r = p := Except.ok.inj ((hf.grows.find hr).symm.trans hfind₁)
      rw [load_of_unreadable ⟨hrp ▸ hr, hp⟩ ha] at hload
      cases hload
    obtain ⟨r, hr, hr₁⟩ : ∃ r, t.entry? r = none ∧ t₁.entry? r = some (.directory t.granted) :=
      Classical.byContradiction fun hnone => hnot p (hf.find_of_not_made hnone hfind₁)
    refine ⟨?_, ⟨r, hr, hw.grows.entry_directory hr₁⟩, p, a, c, hw.holds.found, hp, hwrite, ha⟩
    simp only [FileTree.pathExists]
    split
    · rename_i r hr
      exact absurd hr (hnot r)
    · rfl
  · -- a new file can be read
    rw [hf.granted_eq, hnew] at ha
    cases ha

/-- What is saved where settings could be loaded is loaded next, or the file was overlooked. -/
theorem load_of_save (hload : load t base = .ok s) (hnew : t.granted.read = true)
    (h : s'.save t base = (.ok (), u)) :
    load u base = .ok s' ∨ (load u base = .error (.system .denied) ∧ Overlooked t u base) := by
  obtain ⟨t₁, p, a, hmade, hw⟩ := store_effect (save_eq_ok.1 h)
  have hf : Furnishes t t₁ (FileTree.lineage base) := by
    have h₁ := FileTree.makeDirectories_furnishes t base
    rwa [hmade] at h₁
  cases ha : a.read with
  | true => exact .inl (load_of_written hw.holds ha)
  | false =>
    exact .inr ⟨load_of_unreadable hw.holds ha, overlooked_of_unreadable hload hnew hf hw ha⟩

end Settings

namespace CommandLine

open FileTree (Furnishes)
open Settings (Overlooked)

/-- A command that fails has only made directories on the way to the base directory. One that succeeds
has replaced one list of the settings that were loaded, and the next ones loaded are these if the owner
may read a new file, unless the file was overlooked. -/
theorem runSet_effect (colors : Bool) (base : Path) (key value : Text) (t : FileTree) :
    (∀ f, (runSet colors base key value t).result = .error f →
      Furnishes t (runSet colors base key value t).tree (FileTree.lineage base)) ∧
    ((runSet colors base key value t).result = .ok () →
      ∃ s s' : Settings, Settings.load t base = .ok s ∧ s.set key value = .ok s' ∧
        (∃ k : Settings.Key, k.name = key ∧ ∀ k', k' ≠ k → s'.value k' = s.value k') ∧
        (t.granted.read = true →
          Settings.load (runSet colors base key value t).tree base = .ok s' ∨
          (Settings.load (runSet colors base key value t).tree base = .error (.system .denied) ∧
            Overlooked t (runSet colors base key value t).tree base))) := by
  cases hload : Settings.load t base with
  | error f =>
    simp only [runSet, hload]
    exact ⟨fun _ _ => .refl t _, nofun⟩
  | ok s =>
    cases hset : s.set key value with
    | error f =>
      simp only [runSet, hload, hset]
      exact ⟨fun _ _ => .refl t _, nofun⟩
    | ok s' =>
      cases hsave : s'.save t base with
      | mk r u =>
        cases r with
        | error f =>
          obtain ⟨_, hstore⟩ := Settings.save_eq_error hsave
          simp only [runSet, hload, hset, hsave]
          exact ⟨fun _ _ => Settings.store_error hstore, nofun⟩
        | ok _ =>
          simp only [runSet, hload, hset, hsave]
          exact ⟨nofun, fun _ =>
            ⟨s, s', rfl, hset, Settings.set_eq_ok hset, fun hnew =>
              Settings.load_of_save hload hnew hsave⟩⟩

/-- `files.exclude` is set to `foo`. -/
def setFoo (t : FileTree) (base : Path) : Ended Unit :=
  runSet false base (Text.ofString "files.exclude") (Text.ofString "foo") t

/-- In `b` there is a file of settings that can be written and not read, and there is no `x`. -/
def hiddenTree : FileTree where
  here := []
  entries :=
    [([word "b"], .directory .full),
     ([word "config.toml", word "b"],
        .file ⟨false, true, false⟩ (Utf8.encode "[files]\nextensions = [\"cc\"]\n".toList))]

def hiddenBase : Path := ⟨word "x/../b"⟩

theorem setFoo_hidden :
    (setFoo hiddenTree hiddenBase).result = .ok () ∧
      ∀ s, Settings.load (setFoo hiddenTree hiddenBase).tree hiddenBase ≠ .ok s := by
  have hrun : (setFoo hiddenTree hiddenBase).result.isOk = true ∧
      (Settings.load (setFoo hiddenTree hiddenBase).tree hiddenBase).isOk = false := by
    decide +kernel
  constructor
  · cases h : (setFoo hiddenTree hiddenBase).result with
    | ok _ => rfl
    | error f => simp [h, Except.isOk, Except.toBool] at hrun
  · intro s hs
    simp [hs, Except.isOk, Except.toBool] at hrun

/-- A directory `b` and a file `f`. The base directory below `f` cannot be made, but `n` is. -/
def blockedTree : FileTree where
  here := []
  entries := [([word "b"], .directory .full), ([word "f"], .file .full [])]

def blockedBase : Path := ⟨word "n/../f/m"⟩

theorem runSet_effect_cases :
    (∃ f, (setFoo blockedTree blockedBase).result = .error f ∧
      (setFoo blockedTree blockedBase).tree.isDirectory ⟨word "n"⟩ = true ∧
      Furnishes blockedTree (setFoo blockedTree blockedBase).tree (FileTree.lineage blockedBase)) ∧
    ((setFoo blockedTree ⟨word "b"⟩).result = .ok () ∧ ∃ s s' : Settings,
      Settings.load blockedTree ⟨word "b"⟩ = .ok s ∧
      s.set (Text.ofString "files.exclude") (Text.ofString "foo") = .ok s' ∧
      Settings.load (setFoo blockedTree ⟨word "b"⟩).tree ⟨word "b"⟩ = .ok s') ∧
    ((setFoo hiddenTree hiddenBase).result = .ok () ∧
      Overlooked hiddenTree (setFoo hiddenTree hiddenBase).tree hiddenBase) := by
  have hblocked : (setFoo blockedTree blockedBase).result.isOk = false ∧
      (setFoo blockedTree blockedBase).tree.isDirectory ⟨word "n"⟩ = true := by decide +kernel
  have hplain : (setFoo blockedTree ⟨word "b"⟩).result.isOk = true ∧
      (Settings.load (setFoo blockedTree ⟨word "b"⟩).tree ⟨word "b"⟩).isOk = true := by
    decide +kernel
  refine ⟨?_, ?_, ?_⟩
  · cases h : (setFoo blockedTree blockedBase).result with
    | ok _ => simp [h, Except.isOk, Except.toBool] at hblocked
    | error f =>
      exact ⟨f, rfl, hblocked.2, (runSet_effect false blockedBase _ _ blockedTree).1 f h⟩
  · cases h : (setFoo blockedTree ⟨word "b"⟩).result with
    | error f => simp [h, Except.isOk, Except.toBool] at hplain
    | ok _ =>
      obtain ⟨s, s', hs, hset, _, hnext⟩ :=
        (runSet_effect false ⟨word "b"⟩ _ _ blockedTree).2 h
      refine ⟨rfl, s, s', hs, hset, (hnext rfl).resolve_right ?_⟩
      rintro ⟨hdenied, _⟩
      simp [setFoo, hdenied, Except.isOk, Except.toBool] at hplain
  · obtain ⟨hresult, hnot⟩ := setFoo_hidden
    obtain ⟨_, s', _, _, _, hnext⟩ := (runSet_effect false hiddenBase _ _ hiddenTree).2 hresult
    exact ⟨hresult, ((hnext rfl).resolve_left (hnot s')).2⟩

/-- The next settings loaded are not always those that were set, although the owner may read what is
made. -/
theorem runSet_overlooks :
    ¬ ∀ (t : FileTree) (base : Path) (key value : Text), t.granted = .full →
      (runSet false base key value t).result = .ok () →
      ∃ s s' : Settings, Settings.load t base = .ok s ∧ s.set key value = .ok s' ∧
        Settings.load (runSet false base key value t).tree base = .ok s' := by
  intro hall
  obtain ⟨hresult, hnot⟩ := setFoo_hidden
  obtain ⟨_, s', _, _, hnext⟩ := hall hiddenTree hiddenBase _ _ rfl hresult
  exact hnot s' hnext

end CommandLine
end IncludeOrder
