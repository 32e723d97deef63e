import IncludeOrder.FileTree.Files
import IncludeOrder.Selection
import IncludeOrder.Text.Blank
import IncludeOrder.Text.Quoted
import IncludeOrder.Toml.Reader
import IncludeOrder.Toml.Writer

/-!
# IncludeOrder.Settings

The settings are two lists, the extensions of the files to sort and the patterns of the names to pass
over. They are shown and changed by key, and kept as a document in a file of their own.

* `Settings.get?`, `Settings.set` — the list of a key, as text.
* `Settings.ofDocument?`, `Settings.written` — the settings of a document, and the document of some
  settings.
* `Settings.load`, `Settings.save`, `Settings.init` — the file in its directory.
* `Settings.selection` — what the settings select.
-/

namespace IncludeOrder

structure Settings where
  extensions : List Text
  exclude : List Text
deriving DecidableEq, Repr

namespace Settings

def default : Settings :=
  ⟨Selection.defaultExtensions, Selection.defaultExcludes⟩

/-! ## Keys -/

inductive Key where
  | extensions
  | exclude
deriving DecidableEq, Repr

namespace Key

/-- The keys in the order in which they are listed. -/
def all : List Key := [extensions, exclude]

def name : Key → Text
  | extensions => Text.ofString "files.extensions"
  | exclude => Text.ofString "files.exclude"

def ofName? (t : Text) : Option Key :=
  all.find? fun k => k.name = t

end Key

def value (s : Settings) : Key → List Text
  | .extensions => s.extensions
  | .exclude => s.exclude

def get? (s : Settings) (name : Text) : Option Text :=
  match Key.ofName? name with
  | none => none
  | some k => some (Text.quotedList (s.value k))

def listed (s : Settings) : List (Text × Text) :=
  Key.all.map fun k => (k.name, Text.quotedList (s.value k))

/-! ## Lists given as text -/

/-- Without the brackets around the whole. -/
def withoutBrackets (t : Text) : Text :=
  match t with
  | '[' :: r => if r.getLast? = some ']' then r.dropLast else t
  | _ => t

/-- An element without white space and quotes around it, the double ones outside the single ones. -/
def element (t : Text) : Text :=
  Text.stripped (· = '\'') (Text.stripped (· = '"') (Text.trimmed t))

/-- Elements are separated by commas, and empty ones do not count. -/
def parseList (t : Text) : List Text :=
  (((withoutBrackets (Text.trimmed t)).splitOn ',').map element).filter (· ≠ [])

/-- An extension is stored without the dots in front of it, and patterns only if all are valid. -/
def set (s : Settings) (name value : Text) : Except Failure Settings :=
  match Key.ofName? name with
  | none => .error (.unknownKey name)
  | some .extensions =>
    .ok { s with extensions := (parseList value).map (·.dropWhile (· = '.')) }
  | some .exclude =>
    match Selection.parseAll (parseList value) with
    | .error e => .error (.invalidPattern e)
    | .ok _ => .ok { s with exclude := parseList value }

/-- What the settings select, with more patterns to exclude. -/
def selection (s : Settings) (more : List Text) : Except Failure Selection :=
  match Selection.ofLists s.extensions (s.exclude ++ more) with
  | .error e => .error (.invalidPattern e)
  | .ok r => .ok r

/-! ## Documents -/

/-- All the texts, if each node is one. -/
def texts? : List Toml.Node → Option (List Text)
  | [] => some []
  | .text t :: ns =>
    match texts? ns with
    | none => none
    | some ts => some (t :: ts)
  | _ :: _ => none

/-- A list in a document; without a node it has its default. -/
def list? (otherwise : List Text) : Option Toml.Node → Option (List Text)
  | none => some otherwise
  | some (.array ns) => texts? ns
  | some _ => none

def ofNodes? (extensions exclude : Option Toml.Node) : Option Settings :=
  match list? default.extensions extensions, list? default.exclude exclude with
  | some es, some xs => some ⟨es, xs⟩
  | _, _ => none

/-- The lists are keys of a table or the first elements of an array. A date counts as a table without
keys, and keys that are not known do not matter. -/
def ofDocument? (d : Toml.Entries) : Option Settings :=
  match d.lookup (Text.ofString "files") with
  | none => some default
  | some (.table _ es) =>
    ofNodes? (es.lookup (Text.ofString "extensions")) (es.lookup (Text.ofString "exclude"))
  | some (.array ns) => ofNodes? ns.head? ns.tail.head?
  | some (.date _) => some default
  | some _ => none

def written (s : Settings) : Text :=
  Text.ofString "[files]\nextensions = " ++ Toml.writeArray s.extensions ++
    Text.ofString "\nexclude = " ++ Toml.writeArray s.exclude ++ ['\n']

/-- The document for a start, which says what the settings are for. -/
def template : Text :=
  Text.ofString <|
    "# incsort configuration file\n" ++
    "# Location: ~/.incsort/config.toml\n" ++
    "\n" ++
    "[files]\n" ++
    "# File extensions to sort (case-insensitive, without the dot)\n" ++
    "# Default: [\"h\", \"c\", \"cpp\", \"hpp\"]\n" ++
    "# Example: extensions = [\"h\", \"c\", \"cpp\", \"hpp\", \"cc\", \"hh\"]\n" ++
    "extensions = [\"h\", \"c\", \"cpp\", \"hpp\"]\n" ++
    "\n" ++
    "# Glob patterns for file or directory names skipped while walking\n" ++
    "# Default: [\".git\", \"build\", \"target\", \"node_modules\"]\n" ++
    "# Example: exclude = [\".git\", \"build\", \"third_party*\"]\n" ++
    "exclude = [\".git\", \"build\", \"target\", \"node_modules\"]\n"

/-! ## The file -/

/-- The file of the settings in its directory. -/
def file (base : Path) : Path :=
  base.join (Utf8.encode (Text.ofString "config.toml"))

/-- Without a file the settings are the default ones. -/
def load (t : FileTree) (base : Path) : Except Failure Settings :=
  if !t.pathExists (file base) then .ok default
  else
    match t.readText (file base) with
    | .error e => .error (.system e)
    | .ok text =>
      match Toml.read text with
      | none => .error (.settingsInvalid (file base) (Text.ofString "no valid document"))
      | some d =>
        match ofDocument? d with
        | none => .error (.settingsInvalid (file base) (Text.ofString "no document of settings"))
        | some s => .ok s

/-- Writes the file in its directory, which is made first. -/
def store (t : FileTree) (base : Path) (text : Text) : FileTree.Changed Unit :=
  match t.makeDirectories base with
  | (.error e, t') => (.error e, t')
  | (.ok (), t') =>
    match t'.write (file base) (Utf8.encode text) with
    | .error e => (.error e, t')
    | .ok t'' => (.ok (), t'')

/-- The outcome of a change with a fault of the system as a failure. -/
def orFailure {α : Type} : FileTree.Changed α → Except Failure α × FileTree
  | (.error e, t) => (.error (.system e), t)
  | (.ok a, t) => (.ok a, t)

def save (s : Settings) (t : FileTree) (base : Path) : Except Failure Unit × FileTree :=
  orFailure (store t base s.written)

/-- A file that is already there stays as it is. -/
def init (t : FileTree) (base : Path) : Except Failure Path × FileTree :=
  match t.makeDirectories base with
  | (.error e, t') => (.error (.system e), t')
  | (.ok (), t') =>
    if t'.pathExists (file base) then (.ok (file base), t')
    else
      match t'.write (file base) (Utf8.encode template) with
      | .error e => (.error (.system e), t')
      | .ok t'' => (.ok (file base), t'')

end Settings
end IncludeOrder
