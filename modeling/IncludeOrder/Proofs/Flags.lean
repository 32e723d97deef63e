import IncludeOrder.CommandLine.Arguments

/-!
# IncludeOrder.Proofs.Flags

The flags that say how much is printed, in front of all other arguments. What has been given to a level
decides how the next argument is read, but of its flags only the one that is given again. So every step
of reading treats what has one more flag as it treats the rest (`Frames`), unless it takes that flag
itself, and so does the reading of a level (`Reads.withFlag`). Such a flag in front of the arguments
therefore changes nothing in what they ask for but itself (`read_common`).
-/

namespace IncludeOrder
namespace CommandLine

/-- The flags that every level knows and that are no requests: those for how much is printed. -/
def Flag.Common (f : Flag) : Prop := f = .verbose ∨ f = .quiet

/-- The flag as an argument. -/
def Flag.argument (f : Flag) : Bytes := 0x2D :: 0x2D :: f.long

namespace Invocation

def marked (i : Invocation) : Flag → Bool
  | .verbose => i.verbose
  | .quiet => i.quiet
  | _ => false

/-- The same invocation with one more flag. -/
def mark (i : Invocation) : Flag → Invocation
  | .verbose => { i with verbose := true }
  | .quiet => { i with quiet := true }
  | _ => i

/-- The same invocation with some more flags. -/
def markAll (i : Invocation) (fs : List Flag) : Invocation :=
  fs.foldr (fun f i => i.mark f) i

@[simp] theorem command_mark (i : Invocation) (f : Flag) : (i.mark f).command = i.command := by
  cases f <;> rfl

@[simp] theorem base?_mark (i : Invocation) (f : Flag) : (i.mark f).base? = i.base? := by
  cases f <;> rfl

@[simp] theorem command_markAll (i : Invocation) (fs : List Flag) :
    (i.markAll fs).command = i.command := by
  induction fs with
  | nil => rfl
  | cons f fs ih => exact (command_mark _ f).trans ih

@[simp] theorem base?_markAll (i : Invocation) (fs : List Flag) :
    (i.markAll fs).base? = i.base? := by
  induction fs with
  | nil => rfl
  | cons f fs ih => exact (base?_mark _ f).trans ih

theorem marked_mark_ne (i : Invocation) {f f' : Flag} (h : f ≠ f') :
    (i.mark f').marked f = i.marked f := by
  cases f <;> cases f' <;> first | rfl | exact absurd rfl h

theorem marked_mark_self (i : Invocation) {f : Flag} (h : f.Common) : (i.mark f).marked f = true := by
  rcases h with rfl | rfl <;> rfl

theorem marked_markAll (i : Invocation) {f : Flag} (h : f.Common) (fs : List Flag) :
    (i.markAll fs).marked f = true ↔ f ∈ fs ∨ i.marked f = true := by
  induction fs with
  | nil => simp [markAll]
  | cons f' fs ih =>
    have hcons : i.markAll (f' :: fs) = (i.markAll fs).mark f' := rfl
    by_cases hf : f = f'
    · subst hf
      simp [hcons, marked_mark_self _ h]
    · rw [hcons, marked_mark_ne _ hf, ih]
      simp [hf]

end Invocation

variable {f : Flag} {g g' : Given} {l : Level} {base? : Option Bytes} {b : Bytes}

namespace Given

/-- With one more flag in front of the others. -/
def withFlag (g : Given) (f : Flag) : Given :=
  { g with flags := f :: g.flags }

@[simp] theorem withFlag_pending (g : Given) (f : Flag) : (g.withFlag f).pending = g.pending := rfl

/-- A step that does not take the flag goes on as before with it in front, and ends with it in
front. -/
def Frames (f : Flag) (step : Given → Except Stop Given) : Prop :=
  ∀ ⦃g g'⦄, step g = .ok g' → f ∉ g'.flags →
    f ∉ g.flags ∧ step (g.withFlag f) = .ok (g'.withFlag f)

theorem Frames.andThen {step next : Given → Except Stop Given} (h : Frames f step)
    (h' : Frames f next) :
    Frames f fun g =>
      match step g with
      | .error e => .error e
      | .ok g' => next g' := by
  intro g g₂ hg hf
  cases hs : step g with
  | error e =>
    simp only [hs] at hg
    cases hg
  | ok g₁ =>
    simp only [hs] at hg
    obtain ⟨hf₁, hnext⟩ := h' hg hf
    obtain ⟨hf₀, hstep⟩ := h hs hf₁
    exact ⟨hf₀, by simp only [hstep, hnext]⟩

theorem Frames.ite {c : Given → Prop} [DecidablePred c] {step next : Given → Except Stop Given}
    (hc : ∀ g, c (g.withFlag f) ↔ c g) (h : Frames f step) (h' : Frames f next) :
    Frames f fun g => if c g then step g else next g := by
  intro g g' hg hf
  by_cases hcg : c g
  · simp only [if_pos hcg] at hg
    simp only [if_pos ((hc g).2 hcg)]
    exact h hg hf
  · simp only [if_neg hcg] at hg
    simp only [if_neg (mt (hc g).1 hcg)]
    exact h' hg hf

theorem frames_error (f : Flag) (e : Stop) : Frames f fun _ => .error e := nofun

/-- A change of something else than the flags. -/
theorem frames_ok {change : Given → Given} (hflags : ∀ g, (change g).flags = g.flags)
    (h : ∀ g, change (g.withFlag f) = (change g).withFlag f) : Frames f fun g => .ok (change g) := by
  intro g g' hg hf
  cases hg
  exact ⟨hflags g ▸ hf, congrArg Except.ok (h g)⟩

theorem frames_accept (f : Flag) (s : Setting) (value : Bytes) : Frames f (·.accept s value) := by
  unfold accept
  exact .ite (fun _ => .rfl) (frames_error f _) <| .ite (fun _ => .rfl) (frames_error f _) <|
    frames_ok (fun _ => rfl) fun _ => rfl

theorem frames_settle (f : Flag) : Frames f settle := by
  intro g g' hg hf
  simp only [settle] at hg
  split at hg
  · rename_i hp
    cases hg
    exact ⟨hf, by simp only [settle, withFlag_pending, hp]⟩
  · cases hg
  · rename_i s value hp
    obtain ⟨hf₀, haccept⟩ := frames_accept f s value hg hf
    exact ⟨hf₀, by simp only [settle, withFlag_pending, hp, haccept]⟩

theorem frames_addFlag (f f' : Flag) : Frames f (·.addFlag f') := by
  unfold addFlag
  refine (frames_settle f).andThen ?_
  have htake : Frames f fun g =>
      if g.flags.contains f' then .error .misuse else .ok { g with flags := g.flags ++ [f'] } := by
    intro g g' hg hf
    dsimp only at hg
    split at hg
    · cases hg
    · rename_i hnew
      cases hg
      have hnot : f ∉ g.flags ∧ f ≠ f' := by simpa using hf
      have hnew' : f' ≠ f ∧ f' ∉ g.flags := by simpa [Ne.symm hnot.2] using hnew
      exact ⟨hnot.1, if_neg (by simpa [withFlag] using hnew')⟩
  cases f' with
  | help => exact frames_error f _
  | version => exact frames_error f _
  | verbose => exact htake
  | quiet => exact htake
  | check => exact htake
  | dryRun => exact htake

theorem frames_addPlace (f : Flag) (places : Places) (b : Bytes) :
    Frames f (·.addPlace places b) := by
  unfold addPlace
  refine (frames_settle f).andThen ?_
  intro g g' hg hf
  have hnext : (g.withFlag f).nextValue? places = g.nextValue? places := by
    cases places <;> rfl
  cases hv : g.nextValue? places with
  | none =>
    simp only [hv] at hg
    cases hg
  | some v =>
    simp only [hv] at hg
    simp only [hnext, hv]
    split at hg
    · rename_i hb
      cases hg
      exact ⟨hf, if_pos hb⟩
    · cases hg

theorem frames_addLetters (f : Flag) (known : List Flag) (cs : Bytes) :
    Frames f (·.addLetters known cs) := by
  induction cs with
  | nil => exact frames_ok (fun _ => rfl) fun _ => rfl
  | cons c cs ih =>
    unfold addLetters
    cases known.find? fun f => f.letter? = some c with
    | none => exact frames_error f _
    | some f' => exact (frames_addFlag f f').andThen ih

theorem frames_addLong (f : Flag) (l : Level) (b : Bytes) : Frames f (·.addLong l b) := by
  unfold addLong
  dsimp only
  cases l.flags.find? (fun f => f.long = b.takeWhile (· ≠ 0x3D)) with
  | some f' =>
    cases b.dropWhile (· ≠ 0x3D) with
    | nil => exact frames_addFlag f f'
    | cons c value => exact frames_error f _
  | none =>
    cases l.settings.find? (fun s => s.long = b.takeWhile (· ≠ 0x3D)) with
    | none => exact frames_error f _
    | some s =>
      cases b.dropWhile (· ≠ 0x3D) with
      | nil => exact (frames_settle f).andThen (frames_ok (fun _ => rfl) fun _ => rfl)
      | cons c value => exact (frames_settle f).andThen (frames_accept f s value)

theorem add_withFlag (h : g.add l b = .ok g') (hf : f ∉ g'.flags) :
    f ∉ g.flags ∧ (g.withFlag f).add l b = .ok (g'.withFlag f) := by
  have hframes : Frames f (·.add l b) := by
    unfold add
    refine .ite (fun _ => .rfl) (frames_addPlace f _ b) ?_
    split
    · exact frames_ok (fun _ => rfl) fun _ => rfl
    · exact frames_addLong f l _
    · exact frames_addLetters f _ _
    · intro g g' hg hf
      dsimp only [withFlag_pending] at hg ⊢
      split at hg
      · cases hg
        exact ⟨hf, rfl⟩
      · exact frames_addPlace f _ b hg hf
  exact hframes h hf

theorem finish_withFlag (h : g.finish l base? = .ok g') (hf : f ∉ g'.flags) :
    f ∉ g.flags ∧ (g.withFlag f).finish l base? = .ok (g'.withFlag f) := by
  have hframes : Frames f (·.finish l base?) := by
    unfold finish
    refine (frames_settle f).andThen <| .ite (fun _ => .rfl) (frames_error f _) <|
      .ite (fun g => ?_) (frames_error f _) (frames_ok (fun _ => rfl) fun _ => rfl)
    cases l.places <;> exact .rfl
  exact hframes h hf

end Given

/-! ## Levels -/

/-- How a level is read: its arguments one after the other, up to the end or to a command, which is read
before the level is finished. -/
inductive Reads (base? : Option Bytes) :
    Level → Given → List Bytes → List (Level × Given) → Prop
  | stop {l : Level} {g g' : Given} (hl : l ≠ .config) (hfinish : g.finish l base? = .ok g') :
    Reads base? l g [] [(l, g')]
  | command {l c : Level} {g g' : Given} {b : Bytes} {bs : List Bytes}
    {inner : List (Level × Given)} (hchild : g.child? l b = some c)
    (hinner : Reads base? c .empty bs inner) (hfinish : g.finish l base? = .ok g') :
    Reads base? l g (b :: bs) ((l, g') :: inner)
  | argument {l : Level} {g g₁ : Given} {b : Bytes} {bs : List Bytes}
    {levels : List (Level × Given)} (hchild : g.child? l b = none)
    (hhelp : g.asksForHelp l b = false) (hadd : g.add l b = .ok g₁)
    (hrest : Reads base? l g₁ bs levels) : Reads base? l g (b :: bs) levels

theorem reads_of_readLevel {arguments : List Bytes} {levels : List (Level × Given)}
    (h : readLevel base? l g arguments = .ok levels) : Reads base? l g arguments levels := by
  induction arguments generalizing l g levels with
  | nil =>
    rw [readLevel] at h
    split at h
    · cases h
    · rename_i hl
      cases hfinish : g.finish l base? with
      | error e => simp [hfinish] at h
      | ok g' =>
        rw [hfinish] at h
        cases h
        exact .stop hl hfinish
  | cons b bs ih =>
    rw [readLevel] at h
    cases hchild : g.child? l b with
    | some c =>
      cases hinner : readLevel base? c .empty bs with
      | error e => simp [hchild, hinner] at h
      | ok inner =>
        cases hfinish : g.finish l base? with
        | error e => simp [hchild, hinner, hfinish] at h
        | ok g' =>
          simp only [hchild, hinner, hfinish] at h
          cases h
          exact .command hchild (ih hinner) hfinish
    | none =>
      cases hhelp : g.asksForHelp l b with
      | true => simp [hchild, hhelp] at h
      | false =>
        cases hadd : g.add l b with
        | error e => simp [hchild, hhelp, hadd] at h
        | ok g₁ => exact .argument hchild hhelp hadd (ih (by simpa [hchild, hhelp, hadd] using h))

theorem Reads.readLevel_eq {arguments : List Bytes} {levels : List (Level × Given)}
    (h : Reads base? l g arguments levels) : readLevel base? l g arguments = .ok levels := by
  induction h with
  | stop hl hfinish => rw [readLevel, if_neg hl, hfinish]
  | command hchild _ hfinish ih => simp only [readLevel, hchild, ih, hfinish]
  | argument hchild hhelp hadd _ ih => simp [readLevel, hchild, hhelp, hadd, ih]

/-- A level that does not take the flag is read as before with it in front, and what its command is
given stays the same. -/
theorem Reads.withFlag {arguments : List Bytes} {levels : List (Level × Given)}
    (h : Reads base? l g arguments levels) (f : Flag) :
    ∃ g' inner, levels = (l, g') :: inner ∧
      (f ∉ g'.flags → f ∉ g.flags ∧
        Reads base? l (g.withFlag f) arguments ((l, g'.withFlag f) :: inner)) := by
  induction h with
  | stop hl hfinish =>
    refine ⟨_, [], rfl, fun hf => ?_⟩
    obtain ⟨hf₀, hfinish'⟩ := Given.finish_withFlag hfinish hf
    exact ⟨hf₀, .stop hl hfinish'⟩
  | command hchild hinner hfinish _ =>
    refine ⟨_, _, rfl, fun hf => ?_⟩
    obtain ⟨hf₀, hfinish'⟩ := Given.finish_withFlag hfinish hf
    exact ⟨hf₀, .command hchild hinner hfinish'⟩
  | argument hchild hhelp hadd _ ih =>
    obtain ⟨g', inner, hlevels, hread⟩ := ih
    refine ⟨g', inner, hlevels, fun hf => ?_⟩
    obtain ⟨hf₁, hrest⟩ := hread hf
    obtain ⟨hf₀, hadd'⟩ := Given.add_withFlag hadd hf₁
    exact ⟨hf₀, .argument hchild hhelp hadd' hrest⟩

/-! ## All arguments -/

/-- The flag in front of all arguments is the first thing that the outermost level is given. -/
theorem readLevel_argument (hf : f.Common) (base? : Option Bytes) (arguments : List Bytes) :
    readLevel base? .top .empty (f.argument :: arguments) =
      readLevel base? .top (Given.empty.withFlag f) arguments := by
  rcases hf with rfl | rfl <;> rfl

theorem commandOf_withFlag (hf : f.Common) (l : Level) (g : Given) :
    commandOf l (g.withFlag f) = commandOf l g := by
  have hcheck : Flag.check ≠ f ∧ Flag.dryRun ≠ f := by
    rcases hf with rfl | rfl <;> decide
  have hflags : ∀ f' ≠ f, (g.withFlag f).flags.contains f' = g.flags.contains f' := by
    intro f' hf'
    simp [Given.withFlag, hf']
  unfold commandOf
  rw [hflags _ hcheck.1, hflags _ hcheck.2]
  rfl

theorem invocationOf_withFlag (hf : f.Common) {inner : List (Level × Given)} {i : Invocation}
    (h : invocationOf ((l, g) :: inner) = .ok i) :
    invocationOf ((l, g.withFlag f) :: inner) = .ok (i.mark f) := by
  -- the innermost level has the same command, whether it is the outermost one or not
  obtain ⟨l', g', g'', hlast, hlast', hcommand⟩ : ∃ l' g' g'',
      ((l, g) :: inner).getLast? = some (l', g') ∧
      ((l, g.withFlag f) :: inner).getLast? = some (l', g'') ∧ commandOf l' g'' = commandOf l' g' := by
    rcases List.eq_nil_or_concat inner with rfl | ⟨outer, ⟨l', g'⟩, rfl⟩
    · exact ⟨l, g, g.withFlag f, rfl, rfl, commandOf_withFlag hf l g⟩
    · rw [List.concat_eq_append, ← List.cons_append, ← List.cons_append]
      exact ⟨l', g', g', List.getLast?_concat, List.getLast?_concat, rfl⟩
  simp only [invocationOf, hlast] at h
  simp only [invocationOf, hlast', hcommand]
  cases hc : commandOf l' g' with
  | none =>
    rw [hc] at h
    cases h
  | some c =>
    rw [hc] at h
    cases h
    rcases hf with rfl | rfl <;> simp [Invocation.mark, Given.withFlag, Given.values]

theorem marked_of_mem (hf : f.Common) {inner : List (Level × Given)} {i : Invocation}
    (h : invocationOf ((l, g) :: inner) = .ok i) (hmem : f ∈ g.flags) : i.marked f = true := by
  rw [invocationOf] at h
  split at h
  · cases h
  · split at h
    · cases h
    · cases h
      rcases hf with rfl | rfl <;> simp [Invocation.marked, hmem]

/-- A flag in front of all arguments that is not among them changes nothing but itself. -/
theorem read_common (hf : f.Common) {arguments : List Bytes} {i : Invocation}
    (h : read base? arguments = .ok i) (hi : i.marked f = false) :
    read base? (f.argument :: arguments) = .ok (i.mark f) := by
  rw [read] at h
  cases hl : readLevel base? .top .empty arguments with
  | error e =>
    rw [hl] at h
    cases h
  | ok levels =>
    rw [hl] at h
    obtain ⟨g, inner, rfl, hread⟩ := (reads_of_readLevel hl).withFlag f
    have hg : f ∉ g.flags := by
      intro hmem
      have hmarked := marked_of_mem hf h hmem
      rw [hi] at hmarked
      cases hmarked
    rw [read, readLevel_argument hf, (hread hg).2.readLevel_eq]
    exact invocationOf_withFlag hf h

/-- The arguments with some flags in front. -/
def flagged (fs : List Flag) (arguments : List Bytes) : List Bytes :=
  fs.map Flag.argument ++ arguments

theorem read_flagged {fs : List Flag} (hfs : fs.Nodup) (hcommon : ∀ f ∈ fs, f.Common)
    {arguments : List Bytes} {i : Invocation} (h : read base? arguments = .ok i)
    (hi : ∀ f ∈ fs, i.marked f = false) :
    read base? (flagged fs arguments) = .ok (i.markAll fs) := by
  induction fs with
  | nil => exact h
  | cons f fs ih =>
    obtain ⟨hf, hfs⟩ := List.nodup_cons.1 hfs
    obtain ⟨hc, hcommon⟩ := List.forall_mem_cons.1 hcommon
    obtain ⟨hif, hi⟩ := List.forall_mem_cons.1 hi
    have hnew : (i.markAll fs).marked f = false := by
      rw [← Bool.not_eq_true, Invocation.marked_markAll i hc, hif]
      simp [hf]
    exact read_common hc (ih hfs hcommon hi) hnew

end CommandLine
end IncludeOrder
