import IncludeOrder.CommandLine.Session
import IncludeOrder.Proofs.SettingsFile

/-!
# IncludeOrder.Proofs.SettingsRuns

The commands on the settings, one after another. Each run of the program loads the settings, and one
that sets a key writes all of them again; seen from outside, this is the same as keeping the settings
in memory (`replies_refine`).

`Houses t base d` is what is assumed of the tree: the base directory is the place `d`, and the file in
it can be read and written, or once it is made, if it is not there. One action keeps that, answers as in
memory, and leaves what is loaded as the settings in memory (`Action.execute_eq`).
-/

namespace IncludeOrder
namespace Settings

open FileTree (Written)

/-- The name of the file in its directory. -/
def fileName : Name :=
  Utf8.encode (Text.ofString "config.toml")

theorem plain_fileName : Path.Plain fileName := by decide +kernel

/-- The base directory can be searched and written, and what has the name of the file in it is a file
that can be read and written. If there is nothing of this name, the owner may read and write what is
made. -/
structure Houses (t : FileTree) (base : Path) (d : Place) : Prop where
  found : t.find base = .ok d
  searchable : t.enter d = .ok ()
  writable : t.writableAt d = true
  entry : (t.entry? (fileName :: d) = none ∧ t.granted.read = true ∧ t.granted.write = true) ∨
    ∃ a b, t.entry? (fileName :: d) = some (.file a b) ∧ a.read = true ∧ a.write = true

namespace Houses

variable {t : FileTree} {base : Path} {d : Place}

theorem no_link (h : Houses t base d) (target : Path) :
    t.entry? (fileName :: d) ≠ some (.link target) := by
  rcases h.entry with ⟨he, _⟩ | ⟨a, b, he, _⟩ <;> simp [he]

theorem land_file (h : Houses t base d) : t.land (file base) = .ok ⟨fileName :: d, false⟩ := by
  obtain ⟨s, hl⟩ := FileTree.landWithin_of_find h.found
  have hjoin := FileTree.land_join (t := t) (FileTree.bytes_ne_nil_of_find h.found) plain_fileName
  exact hjoin.trans
    (FileTree.landWithin_append h.searchable plain_fileName h.no_link hl false)

theorem makeDirectories (h : Houses t base d) : t.makeDirectories base = (.ok (), t) := by
  refine FileTree.makeDirectories_of_isDirectory ?_
  simp only [FileTree.isDirectory, h.found]
  exact FileTree.isDirectoryAt_of_enter h.searchable

theorem pathExists_file (h : Houses t base d) :
    t.pathExists (file base) = (t.entry? (fileName :: d)).isSome := by
  rcases h.entry with ⟨he, _⟩ | ⟨a, b, he, _⟩ <;>
    simp [FileTree.pathExists, FileTree.find, h.land_file, he]

theorem load_of_absent (h : Houses t base d) (he : t.entry? (fileName :: d) = none) :
    load t base = .ok default :=
  load_of_not_exists (by rw [h.pathExists_file, he]; rfl)

/-! ## Writing the file -/

/-- The file can be written, and then it is there and can still be read and written. -/
theorem write (h : Houses t base d) (b : Bytes) :
    ∃ t' a, t.write (file base) b = .ok t' ∧ Houses t' base d ∧
      t'.Holds (file base) (fileName :: d) a b ∧ a.read = true := by
  obtain ⟨t', hw⟩ : ∃ t', t.write (file base) b = .ok t' := by
    rcases h.entry with ⟨he, _⟩ | ⟨a, c, he, _, ha⟩
    · exact ⟨t.put (fileName :: d) (.file t.granted b), by
        simp [FileTree.write, h.land_file, he, h.writable]⟩
    · exact ⟨t.refill (fileName :: d) b, by simp [FileTree.write, h.land_file, he, ha]⟩
  obtain ⟨p, a, written⟩ := FileTree.write_effect hw
  -- the write ends where the path ends, so it is the file of the settings that has been written
  have hp : fileName :: d = p := by
    have hended := h.land_file.symm.trans written.ended
    cases hended
    rfl
  subst hp
  have ha : a.read = true ∧ a.write = true := by
    rcases written.change with ⟨c, hc, _⟩ | ⟨hnew, rfl, _⟩
    · rcases h.entry with ⟨he, _⟩ | ⟨a', b', he, ha'⟩
      · rw [he] at hc
        cases hc
      · rw [he] at hc
        cases hc
        exact ha'
    · rcases h.entry with ⟨_, hgranted⟩ | ⟨a', b', he, _⟩
      · exact hgranted
      · rw [hnew] at he
        cases he
  refine ⟨t', a, hw, ⟨written.grows.find h.found, written.grows.enter h.searchable, ?_, ?_⟩,
    written.holds, ha.1⟩
  · obtain ⟨c, hc⟩ := FileTree.isDirectoryAt_iff.1 (FileTree.isDirectoryAt_of_enter h.searchable)
    simpa only [FileTree.writableAt, hc, written.grows.entry_directory hc] using h.writable
  · exact .inr ⟨a, b, written.entry_self, ha⟩

theorem save (h : Houses t base d) (s : Settings) :
    ∃ t', s.save t base = (.ok (), t') ∧ Houses t' base d ∧ load t' base = .ok s := by
  obtain ⟨t', a, hw, h', hold, ha⟩ := h.write (Utf8.encode s.written)
  refine ⟨t', save_eq_ok.2 ?_, h', load_of_written hold ha⟩
  simp [store, h.makeDirectories, hw]

/-- Making the file changes nothing in the settings: it is made with what they are without it. -/
theorem init (h : Houses t base d) :
    ∃ t', Settings.init t base = (.ok (file base), t') ∧ Houses t' base d ∧
      load t' base = load t base := by
  by_cases he : t.entry? (fileName :: d) = none
  · obtain ⟨t', a, hw, h', hold, ha⟩ := h.write (Utf8.encode template)
    refine ⟨t', ?_, h', (load_of_template hold ha).trans (h.load_of_absent he).symm⟩
    simp [Settings.init, h.makeDirectories, h.pathExists_file, he, hw]
  · refine ⟨t, ?_, h, rfl⟩
    simp [Settings.init, h.makeDirectories, h.pathExists_file, Option.isSome_iff_ne_none.2 he]

end Houses
end Settings

namespace CommandLine

open Settings (Houses)

/-! ## In memory -/

/-- The commands on the settings. -/
inductive Action where
  | get (key : Text)
  | set (key value : Text)
  | list
  | path
  | init
deriving DecidableEq, Repr

namespace Action

def command : Action → Command
  | get key => .get key
  | set key value => .set key value
  | list => .list
  | path => .path
  | init => .init

/-- The settings after an action: only a key that is set successfully changes them. -/
def after (s : Settings) : Action → Settings
  | set key value =>
    match s.set key value with
    | .ok s' => s'
    | .error _ => s
  | _ => s

/-- How an action on settings in memory ends, and what it prints. -/
def answer (colors : Bool) (base : Path) (s : Settings) : Action → Except Failure Unit × Console
  | get key =>
    match s.get? key with
    | some value => (.ok (), Console.empty.say value)
    | none => (.error (.unknownKey key), .empty)
  | set key value =>
    match s.set key value with
    | .ok _ =>
      (.ok (), Console.empty.say (Paint.painted colors .green (Text.ofString "Set:") ++
        ' ' :: key ++ [' ', '=', ' '] ++ value))
    | .error e => (.error e, .empty)
  | list => (.ok (), ([] :: s.listed.map (listLine colors) ++ [[]]).foldl Console.say .empty)
  | path => (.ok (), Console.empty.say (Settings.file base).shown)
  | init =>
    (.ok (), Console.empty.say (Paint.painted colors .green (Text.ofString "Initialized:") ++
      ' ' :: (Settings.file base).shown))

end Action

/-- What a run of the program shows: its exit code, its outputs, and the failure it ended with. -/
structure Reply where
  code : Nat
  console : Console
  failure? : Option Failure

def Exit.reply (e : Exit) : Reply :=
  ⟨e.code, e.console, e.failure?⟩

/-- A run of the program: arguments that ask for an action on the settings below `base`. -/
structure Call (base : Path) where
  surroundings : Surroundings
  arguments : List Bytes
  invocation : Invocation
  action : Action
  accepted : read surroundings.base? arguments = .ok invocation
  command_eq : invocation.command = action.command
  base_eq : baseOf surroundings invocation = base

section

variable {base : Path} {α : Type}

namespace Call

/-- The run on a tree. -/
def onTree (c : Call base) (t : FileTree) : Reply × FileTree :=
  let e := perform c.surroundings c.arguments t
  (e.reply, e.tree)

/-- The same action on settings in memory. -/
def inMemory (c : Call base) (s : Settings) : Reply × Settings :=
  let reply :=
    match c.action.answer c.surroundings.colors base s with
    | (.ok (), console) => ⟨0, console, none⟩
    | (.error f, console) =>
      ⟨f.exitCode, console.warn (failureLine c.surroundings.colors f), some f⟩
  (reply, c.action.after s)

end Call

/-- The replies to calls one after another, and the state in the end. -/
def replies (step : Call base → α → Reply × α) : List (Call base) → α → List Reply × α
  | [], x => ([], x)
  | c :: cs, x =>
    let first := step c x
    let rest := replies step cs first.2
    (first.1 :: rest.1, rest.2)

/-! ## Refinement -/

variable {t : FileTree} {d : Place} {s : Settings}

/-- One action, whichever it is: the same answer, and a file that holds the settings after it. -/
theorem Action.execute_eq {env : Surroundings} {i : Invocation} {a : Action}
    (ht : Houses t base d) (hs : Settings.load t base = .ok s) (hc : i.command = a.command)
    (hb : baseOf env i = base) :
    ∃ t', execute env i t =
        ⟨(a.answer env.colors base s).1, (a.answer env.colors base s).2, t'⟩ ∧
      Houses t' base d ∧ Settings.load t' base = .ok (a.after s) := by
  cases a with
  | get key =>
    refine ⟨t, ?_, ht, hs⟩
    simp only [execute, hc, hb, Action.command, runGet, hs, Action.answer]
    cases s.get? key <;> rfl
  | set key value =>
    cases hset : s.set key value with
    | error e =>
      refine ⟨t, ?_, ht, by simpa only [Action.after, hset] using hs⟩
      simp only [execute, hc, hb, Action.command, runSet, hs, hset, Action.answer]
    | ok s' =>
      obtain ⟨t', hsave, ht', hs'⟩ := ht.save s'
      refine ⟨t', ?_, ht', by simpa only [Action.after, hset] using hs'⟩
      simp only [execute, hc, hb, Action.command, runSet, hs, hset, hsave, Action.answer]
  | list =>
    refine ⟨t, ?_, ht, hs⟩
    simp only [execute, hc, hb, Action.command, runList, hs, Action.answer]
  | path =>
    refine ⟨t, ?_, ht, hs⟩
    simp only [execute, hc, hb, Action.command, Action.answer]
  | init =>
    obtain ⟨t', hinit, ht', hs'⟩ := ht.init
    refine ⟨t', ?_, ht', hs'.trans hs⟩
    simp only [execute, hc, hb, Action.command, runInit, hinit, Action.answer]

theorem Call.onTree_eq (c : Call base) (ht : Houses t base d) (hs : Settings.load t base = .ok s) :
    ∃ t', c.onTree t = ((c.inMemory s).1, t') ∧ Houses t' base d ∧
      Settings.load t' base = .ok (c.inMemory s).2 := by
  obtain ⟨t', hexec, ht', hs'⟩ := Action.execute_eq ht hs c.command_eq c.base_eq
  refine ⟨t', ?_, ht', hs'⟩
  simp only [Call.onTree, perform, c.accepted, hexec, Call.inMemory]
  cases c.action.answer c.surroundings.colors base s with
  | mk result console => cases result <;> rfl

theorem replies_eq (calls : List (Call base)) (ht : Houses t base d)
    (hs : Settings.load t base = .ok s) :
    ∃ t', replies Call.onTree calls t = ((replies Call.inMemory calls s).1, t') ∧
      Houses t' base d ∧ Settings.load t' base = .ok (replies Call.inMemory calls s).2 := by
  induction calls generalizing t s with
  | nil => exact ⟨t, rfl, ht, hs⟩
  | cons c cs ih =>
    -- the tree after the first call houses the settings in memory after it
    obtain ⟨t₁, hfirst, ht₁, hs₁⟩ := c.onTree_eq ht hs
    obtain ⟨t₂, hrest, ht₂, hs₂⟩ := ih ht₁ hs₁
    refine ⟨t₂, ?_, ht₂, hs₂⟩
    simp only [replies, hfirst, hrest]

/-- Any number of calls reply as the same actions on settings that are kept in memory, which without
a file start as the default ones; and making the file leaves the settings as they are. -/
theorem replies_refine (ht : Houses t base d) (hs : Settings.load t base = .ok s)
    (calls : List (Call base)) :
    (t.entry? (Settings.fileName :: d) = none → s = .default) ∧
    (∃ t', replies Call.onTree calls t = ((replies Call.inMemory calls s).1, t') ∧
      Houses t' base d ∧ Settings.load t' base = .ok (replies Call.inMemory calls s).2) ∧
    ∀ colors, Settings.load (runInit colors base t).tree base = .ok s := by
  refine ⟨fun he => ?_, replies_eq calls ht hs, fun colors => ?_⟩
  · exact Except.ok.inj (hs.symm.trans (ht.load_of_absent he))
  · obtain ⟨t', hinit, _, hs'⟩ := ht.init
    simp only [runInit, hinit, hs', hs]

end

def plainBase : Path := ⟨word "b"⟩

/-- The call with some words behind those that give the base directory. -/
def plainCall (action : Action) (arguments : List Bytes)
    (h : read none ([word "--base-dir", word "b", word "config"] ++ arguments) =
      .ok ⟨false, false, some plainBase, action.command⟩) : Call plainBase where
  surroundings := ⟨false, none, none, [], .empty⟩
  arguments := [word "--base-dir", word "b", word "config"] ++ arguments
  invocation := ⟨false, false, some plainBase, action.command⟩
  action := action
  accepted := h
  command_eq := rfl
  base_eq := rfl

def plainCalls : List (Call plainBase) :=
  [plainCall (.set (Text.ofString "files.exclude") (Text.ofString "x, y"))
      [word "set", word "files.exclude", word "x, y"] rfl,
   plainCall .init [word "init"] rfl,
   plainCall (.set (Text.ofString "files.exclude") (Text.ofString "["))
      [word "set", word "files.exclude", word "["] rfl,
   plainCall (.get (Text.ofString "files.exclude")) [word "get", word "files.exclude"] rfl]

def plainTree : FileTree where
  here := []
  entries := [([word "b"], .directory .full)]

theorem replies_refine_plain :
    ∃ t', replies Call.onTree plainCalls plainTree =
        ((replies Call.inMemory plainCalls .default).1, t') ∧
      (replies Call.onTree plainCalls plainTree).1.map Reply.code = [0, 0, 1, 0] ∧
      Settings.load t' plainBase =
        .ok ⟨Selection.defaultExtensions, ["x".toList, "y".toList]⟩ := by
  have hhouses : Houses plainTree plainBase [word "b"] :=
    ⟨by rfl, by rfl, by rfl, .inl ⟨by rfl, by rfl, by rfl⟩⟩
  have hload : Settings.load plainTree plainBase = .ok .default := by rfl
  obtain ⟨_, ⟨t', hreplies, _, hs⟩, _⟩ := replies_refine hhouses hload plainCalls
  have hmemory : (replies Call.inMemory plainCalls .default).1.map Reply.code = [0, 0, 1, 0] ∧
      (replies Call.inMemory plainCalls .default).2 =
        ⟨Selection.defaultExtensions, ["x".toList, "y".toList]⟩ := by decide +kernel
  rw [hmemory.2] at hs
  exact ⟨t', hreplies, by rw [hreplies]; exact hmemory.1, hs⟩

end CommandLine
end IncludeOrder
