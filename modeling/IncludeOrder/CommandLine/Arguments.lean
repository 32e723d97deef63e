import IncludeOrder.CommandLine.Grammar

/-!
# IncludeOrder.CommandLine.Arguments

Reading the arguments of the program. They are taken in order, so that of a request for help and a
fault the first one counts. The value of an option is checked only when the next option or argument of
its level comes, or at the end: a command in between, with all that belongs to it, is read before.

* `read` — the command that the arguments ask for, or why there is none to run.
-/

namespace IncludeOrder
namespace CommandLine

/-- Why no command is run. -/
inductive Stop where
  | help
  | version
  | misuse
deriving DecidableEq, Repr

/-- An option whose value is still to come, or still to be checked. -/
inductive Pending where
  | nothing
  | awaiting (s : Setting)
  | holding (s : Setting) (value : Bytes)
deriving DecidableEq, Repr

/-- What has been given to a level so far. -/
structure Given where
  flags : List Flag
  settings : List (Setting × Bytes)
  places : List Bytes
  pending : Pending
  /-- Options have come to an end. -/
  closed : Bool

namespace Given

def empty : Given := ⟨[], [], [], .nothing, false⟩

def has (g : Given) (s : Setting) : Bool :=
  g.settings.any fun e => e.1 = s

def values (g : Given) (s : Setting) : List Bytes :=
  (g.settings.filter fun e => e.1 = s).map (·.2)

/-- Takes the value of an option. -/
def accept (g : Given) (s : Setting) (value : Bytes) : Except Stop Given :=
  if !s.value.accepts value then .error .misuse
  else if g.has s && !s.repeats then .error .misuse
  else .ok { g with settings := g.settings ++ [(s, value)], pending := .nothing }

/-- Takes the value that is pending. -/
def settle (g : Given) : Except Stop Given :=
  match g.pending with
  | .nothing => .ok g
  | .awaiting _ => .error .misuse
  | .holding s value => g.accept s value

def addFlag (g : Given) (f : Flag) : Except Stop Given :=
  match g.settle with
  | .error e => .error e
  | .ok g' =>
    match f with
    | .help => .error .help
    | .version => .error .version
    | _ => if g'.flags.contains f then .error .misuse else .ok { g' with flags := g'.flags ++ [f] }

/-- The value that the next argument must be, if one more is expected. -/
def nextValue? (g : Given) : Places → Option Value
  | .each vs => vs[g.places.length]?
  | .many v => some v

def addPlace (places : Places) (g : Given) (b : Bytes) : Except Stop Given :=
  match g.settle with
  | .error e => .error e
  | .ok g' =>
    match g'.nextValue? places with
    | none => .error .misuse
    | some v => if v.accepts b then .ok { g' with places := g'.places ++ [b] } else .error .misuse

/-- The letters of some flags. -/
def addLetters (known : List Flag) (g : Given) : Bytes → Except Stop Given
  | [] => .ok g
  | c :: r =>
    match known.find? fun f => f.letter? = some c with
    | none => .error .misuse
    | some f =>
      match g.addFlag f with
      | .error e => .error e
      | .ok g' => g'.addLetters known r

/-- The name of an option, perhaps with a value behind an equals sign. -/
def addLong (l : Level) (g : Given) (b : Bytes) : Except Stop Given :=
  let name := b.takeWhile (· ≠ 0x3D)
  match l.flags.find? (fun f => f.long = name), l.settings.find? (fun s => s.long = name),
    b.dropWhile (· ≠ 0x3D) with
  | some f, _, [] => g.addFlag f
  | some _, _, _ :: _ => .error .misuse
  | none, some s, [] =>
    match g.settle with
    | .error e => .error e
    | .ok g' => .ok { g' with pending := .awaiting s }
  | none, some s, _ :: value =>
    match g.settle with
    | .error e => .error e
    | .ok g' => g'.accept s value
  | none, none, _ => .error .misuse

/-- An argument that is not the name of a command. -/
def add (l : Level) (g : Given) (b : Bytes) : Except Stop Given :=
  if g.closed then g.addPlace l.places b
  else
    match b with
    | [0x2D, 0x2D] => .ok { g with closed := true }
    | 0x2D :: 0x2D :: name => g.addLong l name
    | 0x2D :: c :: r => g.addLetters l.flags (c :: r)
    | _ =>
      match g.pending with
      | .awaiting s => .ok { g with pending := .holding s b }
      | _ => g.addPlace l.places b

def enough (g : Given) : Places → Bool
  | .each vs => g.places.length = vs.length
  | .many _ => true

/-- The check at the end. The base directory may come from the environment, where it must be valid
unless the level has one of its own. -/
def finish (l : Level) (base? : Option Bytes) (g : Given) : Except Stop Given :=
  match g.settle with
  | .error e => .error e
  | .ok g' =>
    if !g'.has .baseDir && !base?.all Value.path.accepts then .error .misuse
    else if !l.required.all g'.has || !g'.enough l.places then .error .misuse
    else .ok g'

/-- The command that an argument names. -/
def child? (l : Level) (g : Given) (b : Bytes) : Option Level :=
  if g.closed then none
  else
    match g.pending with
    | .awaiting _ => none
    | _ => l.children.lookup b

/-- The argument asks for help, which levels with commands have a command for. -/
def asksForHelp (l : Level) (g : Given) (b : Bytes) : Bool :=
  !l.children.isEmpty && !g.closed && b = word "help" &&
    match g.pending with
    | .awaiting _ => false
    | _ => true

end Given

/-- Help about a command that is named by its path. -/
def helpAbout (l : Level) : List Bytes → Stop
  | [] => .help
  | b :: bs =>
    match l.children.lookup b with
    | some c => helpAbout c bs
    | none =>
      if !l.children.isEmpty && b = word "help" && bs.isEmpty then .help else .misuse

/-- Reads the arguments of a level, those of its command among them. The levels come with what has
been given to them, the outermost first. -/
def readLevel (base? : Option Bytes) (l : Level) (g : Given) :
    List Bytes → Except Stop (List (Level × Given))
  | [] =>
    if l = .config then .error .misuse
    else
      match g.finish l base? with
      | .error e => .error e
      | .ok g' => .ok [(l, g')]
  | b :: bs =>
    match g.child? l b with
    | some c =>
      match readLevel base? c .empty bs with
      | .error e => .error e
      | .ok inner =>
        match g.finish l base? with
        | .error e => .error e
        | .ok g' => .ok ((l, g') :: inner)
    | none =>
      if g.asksForHelp l b then .error (helpAbout l bs)
      else
        match g.add l b with
        | .error e => .error e
        | .ok g' => readLevel base? l g' bs

/-! ## Commands -/

inductive Command where
  | fmt (paths : List Path) (check dryRun : Bool) (exclude : List Text)
  | stdin (file : Path)
  | categories
  | get (key : Text)
  | set (key value : Text)
  | list
  | path
  | init
  | completions (shell : Bytes)
deriving DecidableEq, Repr

/-- A command with what was given at any level. -/
structure Invocation where
  verbose : Bool
  quiet : Bool
  /-- The base directory of the innermost level that has one. -/
  base? : Option Path
  command : Command

def textOf (b : Bytes) : Text :=
  Utf8.lossy b

/-- The command of the innermost level; only the outermost and `config` are none. -/
def commandOf (l : Level) (g : Given) : Option Command :=
  match l, g.places with
  | .fmt, ps =>
    some (.fmt (ps.map Path.mk) (g.flags.contains .check) (g.flags.contains .dryRun)
      ((g.values .exclude).map textOf))
  | .stdin, _ => (g.values .filename).head?.map fun b => .stdin ⟨b⟩
  | .categories, _ => some .categories
  | .completions, [s] => some (.completions s)
  | .get, [k] => some (.get (textOf k))
  | .set, [k, v] => some (.set (textOf k) (textOf v))
  | .list, _ => some .list
  | .path, _ => some .path
  | .init, _ => some .init
  | _, _ => none

/-- Without a command help is given. -/
def invocationOf (levels : List (Level × Given)) : Except Stop Invocation :=
  match levels.getLast? with
  | none => .error .help
  | some (l, g) =>
    match commandOf l g with
    | none => .error .help
    | some c =>
      .ok
        { verbose := levels.any fun e => e.2.flags.contains .verbose
          quiet := levels.any fun e => e.2.flags.contains .quiet
          base? := (levels.flatMap fun e => e.2.values .baseDir).getLast?.map Path.mk
          command := c }

/-- Reads all arguments. `base?` is the base directory of the environment. -/
def read (base? : Option Bytes) (arguments : List Bytes) : Except Stop Invocation :=
  match readLevel base? .top .empty arguments with
  | .error e => .error e
  | .ok levels => invocationOf levels

end CommandLine
end IncludeOrder
