import IncludeOrder.CommandLine.Arguments
import IncludeOrder.CommandLine.Paint
import IncludeOrder.Run
import IncludeOrder.Settings

/-!
# IncludeOrder.CommandLine.Session

Running a command: what it writes to its two outputs, what it does to the tree, and the failure it may
end with.

* `execute` — a command that has been read.
* `perform` — the program on its arguments.

The base directory is the one given, or else `.incsort` in the home directory.
-/

namespace IncludeOrder
namespace CommandLine

/-- What has been written to the output and to the error output. -/
structure Console where
  output : Text
  errors : Text
deriving DecidableEq, Repr

namespace Console

def empty : Console := ⟨[], []⟩

def write (c : Console) (t : Text) : Console :=
  { c with output := c.output ++ t }

def say (c : Console) (l : Line) : Console :=
  c.write (l ++ ['\n'])

def complain (c : Console) (t : Text) : Console :=
  { c with errors := c.errors ++ t }

def warn (c : Console) (l : Line) : Console :=
  c.complain (l ++ ['\n'])

end Console

inductive Verbosity where
  | quiet
  | normal
  | verbose
deriving DecidableEq, Repr

/-- Quiet wins. -/
def Invocation.verbosity (i : Invocation) : Verbosity :=
  if i.quiet then .quiet else if i.verbose then .verbose else .normal

/-- The texts of the argument parser: its help, what it says to arguments that it does not take, and the
completions for a shell. -/
structure Manual where
  help : (arguments : List Bytes) → Text
  complaint : (arguments : List Bytes) → Text
  completions : (shell : Bytes) → Text

def Manual.empty : Manual :=
  ⟨fun _ => [], fun _ => [], fun _ => []⟩

/-- What the program is given besides its arguments. -/
structure Surroundings where
  colors : Bool
  home? : Option Bytes
  /-- The base directory of the environment. -/
  base? : Option Bytes
  input : Bytes
  manual : Manual

/-- A result, what has been written, and the tree. -/
structure Ended (α : Type) where
  result : Except Failure α
  console : Console
  tree : FileTree

/-! ## Sorting files -/

section
variable (colors : Bool)

def modeLine? (o : Options) : Option Line :=
  if o.check then some (Text.ofString "(check)")
  else if o.dryRun then some (Text.ofString "(dry run)")
  else none

def tag (o : Options) (s : Status) : Text :=
  let t := '[' :: Text.ofString (s.label o.writes) ++ [']']
  match s with
  | .sorted => Paint.painted colors .green t
  | .noIncludes => Paint.painted colors .yellow t
  | _ => t

/-- The block of a file in its new order, if the run is to show it. -/
def blockLines (o : Options) (r : Option Text) : List Line :=
  match r with
  | none => []
  | some t =>
    if o.dryRun then
      (Text.listed t).map fun l => List.replicate 6 ' ' ++ Paint.painted colors .dimmed l
    else []

def outcomeLines (o : Options) (x : Outcome) : List Line :=
  ([' ', ' '] ++ tag colors o x.status ++ ' ' :: x.path.shown) :: blockLines colors o x.replacement?

/-- Failures are shown always, sorted files unless the run is quiet, and the others if it is
verbose. -/
def showOutcome (v : Verbosity) (o : Options) (c : Console) (x : Outcome) : Console :=
  match x.status with
  | .failed =>
    c.warn ([' ', ' '] ++ Paint.painted colors .boldRed (Text.ofString "[FAILED]") ++
      ' ' :: x.message?.getD [])
  | .sorted =>
    if v = .quiet then c else (outcomeLines colors o x).foldl Console.say c
  | _ =>
    if v = .verbose then (outcomeLines colors o x).foldl Console.say c else c

def countLine (name : String) (count : Text) : Line :=
  [' ', ' '] ++ Text.ofString name ++ [':', ' '] ++ count

def summaryLines (r : Report) : List Line :=
  [[], Text.ofString "Summary:",
   countLine "Sorted" (Text.ofNat r.sorted),
   countLine "Unchanged" (Text.ofNat r.unchanged),
   countLine "No includes" (Text.ofNat r.noIncludes)] ++
  if r.failed = 0 then []
  else [countLine "Failed" (Paint.painted colors .red (Text.ofNat r.failed))]

/-- A run ends well unless files failed or, in a check, are out of order. -/
def resultOf (o : Options) (r : Report) : Except Failure Unit :=
  if r.failed ≠ 0 then .error (.filesFailed r.failed)
  else if o.check && r.sorted ≠ 0 then .error (.notSorted r.sorted)
  else .ok ()

def orHere (ps : List Path) : List Path :=
  match ps with
  | [] => [Path.ofText ['.']]
  | _ :: _ => ps

def runFmt (base : Path) (v : Verbosity) (o : Options) (exclude : List Text) (ps : List Path)
    (t : FileTree) : Ended Unit :=
  match Settings.load t base with
  | .error e => ⟨.error e, .empty, t⟩
  | .ok settings =>
    match settings.selection exclude with
    | .error e => ⟨.error e, .empty, t⟩
    | .ok s =>
      let start :=
        if v = .quiet then Console.empty
        else
          (modeLine? o).elim Console.empty fun l =>
            Console.empty.say (Paint.painted colors .yellow l)
      match sortPaths s o (showOutcome colors v o) start t (orHere ps) with
      | .error e => ⟨.error e, start, t⟩
      | .ok p =>
        let console :=
          if v = .quiet then p.told else (summaryLines colors p.report).foldl Console.say p.told
        ⟨resultOf o p.report, console, p.tree⟩

/-! ## The other commands -/

def runStdin (base file : Path) (input : Bytes) (t : FileTree) : Ended Unit :=
  match Settings.load t base with
  | .error e => ⟨.error e, .empty, t⟩
  | .ok settings =>
    match settings.selection [] with
    | .error e => ⟨.error e, .empty, t⟩
    | .ok s =>
      match Utf8.decode? input with
      | none => ⟨.error (.system .notText), .empty, t⟩
      | some text => ⟨.ok (), Console.empty.write (sortPiped s file text), t⟩

/-- A name with spaces up to the width of a column. -/
def padded (width : Nat) (t : Text) : Text :=
  t ++ List.replicate (width - t.length) ' '

def categoryLine (c : Category) : Line :=
  [' ', ' '] ++ Text.ofNat c.priority ++ ' ' ::
    Paint.painted colors .cyan (padded 14 (Text.ofString c.name)) ++
    ' ' :: Text.ofString c.description

def categoryLines : List Line :=
  [] :: Category.all.map (categoryLine colors) ++ [[]]

def runGet (base : Path) (key : Text) (t : FileTree) : Ended Unit :=
  match Settings.load t base with
  | .error e => ⟨.error e, .empty, t⟩
  | .ok s =>
    match s.get? key with
    | none => ⟨.error (.unknownKey key), .empty, t⟩
    | some value => ⟨.ok (), Console.empty.say value, t⟩

def runSet (base : Path) (key value : Text) (t : FileTree) : Ended Unit :=
  match Settings.load t base with
  | .error e => ⟨.error e, .empty, t⟩
  | .ok s =>
    match s.set key value with
    | .error e => ⟨.error e, .empty, t⟩
    | .ok s' =>
      match s'.save t base with
      | (.error e, t') => ⟨.error e, .empty, t'⟩
      | (.ok (), t') =>
        ⟨.ok (), Console.empty.say (Paint.painted colors .green (Text.ofString "Set:") ++
          ' ' :: key ++ [' ', '=', ' '] ++ value), t'⟩

def listLine (e : Text × Text) : Line :=
  Paint.painted colors .cyan e.1 ++ [' ', '=', ' '] ++ e.2

def runList (base : Path) (t : FileTree) : Ended Unit :=
  match Settings.load t base with
  | .error e => ⟨.error e, .empty, t⟩
  | .ok s =>
    ⟨.ok (), ([] :: s.listed.map (listLine colors) ++ [[]]).foldl Console.say .empty, t⟩

def runInit (base : Path) (t : FileTree) : Ended Unit :=
  match Settings.init t base with
  | (.error e, t') => ⟨.error e, .empty, t'⟩
  | (.ok p, t') =>
    ⟨.ok (), Console.empty.say (Paint.painted colors .green (Text.ofString "Initialized:") ++
      ' ' :: p.shown), t'⟩

end

/-! ## All commands -/

def baseOf (s : Surroundings) (i : Invocation) : Path :=
  match i.base?, s.base?, s.home? with
  | some p, _, _ => p
  | none, some b, _ => ⟨b⟩
  | none, none, some h => if h.isEmpty then ⟨word ".incsort"⟩ else Path.join ⟨h⟩ (word ".incsort")
  | none, none, none => ⟨word ".incsort"⟩

def execute (s : Surroundings) (i : Invocation) (t : FileTree) : Ended Unit :=
  let base := baseOf s i
  match i.command with
  | .fmt ps check dryRun exclude => runFmt s.colors base i.verbosity ⟨check, dryRun⟩ exclude ps t
  | .stdin file => runStdin base file s.input t
  | .categories => ⟨.ok (), (categoryLines s.colors).foldl Console.say .empty, t⟩
  | .get key => runGet base key t
  | .set key value => runSet s.colors base key value t
  | .list => runList s.colors base t
  | .path => ⟨.ok (), Console.empty.say (Settings.file base).shown, t⟩
  | .init => runInit s.colors base t
  | .completions shell => ⟨.ok (), Console.empty.write (s.manual.completions shell), t⟩

def failureLine (colors : Bool) (f : Failure) : Line :=
  Paint.painted colors .boldRed (Text.ofString "[ERROR]") ++ ' ' :: f.message

/-- How the program ends. -/
structure Exit where
  code : Nat
  console : Console
  tree : FileTree
  /-- The failure of the command, if it was run and failed. -/
  failure? : Option Failure

def versionLine : Line :=
  Text.ofString "incsort 0.3.0"

def perform (s : Surroundings) (arguments : List Bytes) (t : FileTree) : Exit :=
  match read s.base? arguments with
  | .error .help => ⟨0, Console.empty.write (s.manual.help arguments), t, none⟩
  | .error .version => ⟨0, Console.empty.say versionLine, t, none⟩
  | .error .misuse => ⟨2, Console.empty.complain (s.manual.complaint arguments), t, none⟩
  | .ok i =>
    match execute s i t with
    | ⟨.ok (), c, t'⟩ => ⟨0, c, t', none⟩
    | ⟨.error f, c, t'⟩ => ⟨f.exitCode, c.warn (failureLine s.colors f), t', some f⟩

end CommandLine
end IncludeOrder
