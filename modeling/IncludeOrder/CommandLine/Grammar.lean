import IncludeOrder.Path

/-!
# IncludeOrder.CommandLine.Grammar

The commands, and what may be given to each. Commands lie in each other: the outermost level holds the
commands, and `config` holds commands of its own. Verbosity and the base directory can be given at any
level.

* `Level.children`, `Level.flags`, `Level.settings`, `Level.places` — what a level knows.
* `Value.accepts` — the values that are valid.
-/

namespace IncludeOrder
namespace CommandLine

inductive Level where
  | top
  | fmt
  | stdin
  | categories
  | config
  | completions
  | get
  | set
  | list
  | path
  | init
deriving DecidableEq, Repr

/-- An option without a value. -/
inductive Flag where
  | verbose
  | quiet
  | check
  | dryRun
  | help
  | version
deriving DecidableEq, Repr

/-- An option with a value. -/
inductive Setting where
  | baseDir
  | exclude
  | filename
deriving DecidableEq, Repr

inductive Value where
  | path
  | text
  | shell
deriving DecidableEq, Repr

/-- The arguments that stand for themselves: one of each value, or any number of one. -/
inductive Places where
  | each (values : List Value)
  | many (value : Value)
deriving DecidableEq, Repr

/-- The bytes of a word. -/
def word (s : String) : Bytes :=
  Utf8.encode s.toList

def shells : List Bytes :=
  ["bash", "elvish", "fish", "powershell", "zsh"].map word

namespace Value

/-- A path must not be empty, and text must be text. -/
def accepts (v : Value) (b : Bytes) : Bool :=
  match v with
  | path => !b.isEmpty
  | text => (Utf8.decode? b).isSome
  | shell => shells.contains b

end Value

namespace Flag

def long : Flag → Bytes
  | verbose => word "verbose"
  | quiet => word "quiet"
  | check => word "check"
  | dryRun => word "dry-run"
  | help => word "help"
  | version => word "version"

/-- The letter of a flag, which `--check` does without. -/
def letter? : Flag → Option UInt8
  | verbose => some 0x76
  | quiet => some 0x71
  | check => none
  | dryRun => some 0x64
  | help => some 0x68
  | version => some 0x56

end Flag

namespace Setting

def long : Setting → Bytes
  | baseDir => word "base-dir"
  | exclude => word "exclude"
  | filename => word "filename"

def value : Setting → Value
  | baseDir => .path
  | exclude => .text
  | filename => .path

/-- It can be given several times. -/
def repeats : Setting → Bool
  | exclude => true
  | _ => false

end Setting

namespace Level

def children : Level → List (Bytes × Level)
  | top =>
    [(word "fmt", fmt), (word "stdin", stdin), (word "categories", categories),
     (word "config", config), (word "completions", completions)]
  | config =>
    [(word "get", get), (word "set", set), (word "list", list), (word "path", path),
     (word "init", init)]
  | _ => []

def flags : Level → List Flag
  | top => [.verbose, .quiet, .help, .version]
  | fmt => [.verbose, .quiet, .help, .check, .dryRun]
  | _ => [.verbose, .quiet, .help]

def settings : Level → List Setting
  | fmt => [.baseDir, .exclude]
  | stdin => [.baseDir, .filename]
  | _ => [.baseDir]

def places : Level → Places
  | fmt => .many .path
  | get => .each [.text]
  | set => .each [.text, .text]
  | completions => .each [.shell]
  | _ => .each []

/-- The options that must be given. -/
def required : Level → List Setting
  | stdin => [.filename]
  | _ => []

end Level
end CommandLine
end IncludeOrder
