import IncludeOrder.Toml.Scalar
import IncludeOrder.Toml.Strings

/-!
# IncludeOrder.Toml.Reader

Reading a document. Its lines are headers, keys with values, comments and blank lines. Values nest, and
so do the parts of a key, but both to a limit only.

* `read` — the table that a text is, if the whole text is a valid document.
-/

namespace IncludeOrder
namespace Toml

/-- Arrays and inline tables nest to this depth, and keys have at most so many parts. -/
def nesting : Nat := 79

/-! ## Between the parts -/

def spaces (t : Text) : Text :=
  t.dropWhile isSpace

/-- The text behind a character that must be there. -/
def after? (c : Char) : Text → Option Text
  | [] => none
  | d :: r => if d = c then some r else none

/-- Passes over the rest of a line, which holds at most a comment. The last line need not end. -/
def lineEnd? (t : Text) : Option Text :=
  let rest :=
    match spaces t with
    | '#' :: r => r.dropWhile isPlain
    | r => r
  match rest with
  | [] => some []
  | _ :: _ => lineFeed? rest

/-- Passes over white space, line ends and comments. -/
def trivia? (comment : Bool) : Text → Option Text
  | [] => some []
  | c :: r =>
    if c = '\n' then trivia? false r
    else if c = '\r' then
      match r with
      | '\n' :: r' => trivia? false r'
      | _ => none
    else if comment then if isPlain c then trivia? true r else none
    else if isSpace c then trivia? false r
    else if c = '#' then trivia? true r
    else some (c :: r)

/-! ## Keys -/

def isBare (c : Char) : Bool :=
  c.isAlphanum || c = '_' || c = '-'

/-- One part of a key. -/
def readPart (t : Text) : Reading Text :=
  match t with
  | [] => none
  | c :: _ =>
    if c = '"' ∨ c = '\'' then readLineString t
    else if isBare c then some (t.takeWhile isBare, t.dropWhile isBare)
    else none

/-- A key of at most `parts` parts, with the spaces around them. -/
def readKey : (parts : Nat) → Text → Reading (List Text)
  | 0, _ => none
  | n + 1, t =>
    match readPart (spaces t) with
    | none => none
    | some (k, r) =>
      match after? '.' (spaces r) with
      | none => some ([k], spaces r)
      | some r' =>
        match readKey n r' with
        | none => none
        | some (ks, r'') => some (k :: ks, r'')

/-! ## Values -/

def isWordChar (c : Char) : Bool :=
  c.isAlphanum || c = '+' || c = '-' || c = '_' || c = '.' || c = ':'

/-- A time behind a date and a space. -/
def laterTime? (word rest : Text) : Option (Text × Text) :=
  match rest with
  | ' ' :: r =>
    if isDate word && isTimeOfDate (r.takeWhile isWordChar) then
      some (word ++ ' ' :: r.takeWhile isWordChar, r.dropWhile isWordChar)
    else none
  | _ => none

def readWord (t : Text) : Reading Node :=
  let word := t.takeWhile isWordChar
  let rest := t.dropWhile isWordChar
  match laterTime? word rest with
  | some (w, r) => some (.date w, r)
  | none =>
    match Node.ofWord? word with
    | none => none
    | some n => some (n, rest)

/-- A value that holds no other values. -/
def readSimple (t : Text) : Reading Node :=
  match t with
  | [] => none
  | c :: _ =>
    if c = '"' ∨ c = '\'' then
      match readString t with
      | none => none
      | some (s, r) => some (.text s, r)
    else readWord t

/-- The elements of an array up to its closing bracket. A comma may follow the last one. -/
def readElements (value : Text → Reading Node) : (fuel : Nat) → Text → Reading (List Node)
  | 0, _ => none
  | fuel + 1, t =>
    match trivia? false t with
    | none => none
    | some (']' :: r) => some ([], r)
    | some t' =>
      match value t' with
      | none => none
      | some (n, r) =>
        match trivia? false r with
        | some (',' :: r') =>
          match readElements value fuel r' with
          | none => none
          | some (ns, r'') => some (n :: ns, r'')
        | some (']' :: r') => some ([n], r')
        | _ => none

/-- A key with its value. -/
def readPair (value : Text → Reading Node) (t : Text) : Reading (List Text × Node) :=
  match readKey nesting t with
  | none => none
  | some (ks, r) =>
    match after? '=' r with
    | none => none
    | some r' =>
      match value (spaces r') with
      | none => none
      | some (n, r'') => some ((ks, n), r'')

/-- Adds a key of several parts with its value. -/
def addPair (ks : List Text) (n : Node) (es : Entries) : Option Entries :=
  match ks.getLast? with
  | none => none
  | some k => define ks.dropLast k n es

/-- The members of an inline table up to its closing brace. -/
def readMembers (value : Text → Reading Node) : (fuel : Nat) → Entries → Text → Reading Entries
  | 0, _, _ => none
  | fuel + 1, es, t =>
    match readPair value t with
    | none => none
    | some ((ks, n), r) =>
      match addPair ks n es with
      | none => none
      | some es' =>
        match spaces r with
        | ',' :: r' => readMembers value fuel es' r'
        | '\x7d' :: r' => some (es', r')
        | _ => none

def readInlineTable (value : Text → Reading Node) (t : Text) : Reading Entries :=
  match spaces t with
  | '\x7d' :: r => some ([], r)
  | _ => readMembers value (t.length + 1) [] t

/-- A value in which others nest to at most `depth`. -/
def readValue : (depth : Nat) → Text → Reading Node
  | 0, t => readSimple t
  | depth + 1, t =>
    match t with
    | '[' :: r =>
      match readElements (readValue depth) (r.length + 1) r with
      | none => none
      | some (ns, r') => some (.array ns, r')
    | '\x7b' :: r =>
      match readInlineTable (readValue depth) r with
      | none => none
      | some (es, r') => some (.table .value es, r')
    | _ => readSimple t

/-! ## Lines -/

/-- What has been read so far, and the path of the last header. -/
structure Progress where
  document : Entries
  header : List Text

def readTableHeader (p : Progress) (t : Text) : Reading Progress :=
  match readKey nesting t with
  | none => none
  | some (ks, r) =>
    match after? ']' r with
    | none => none
    | some r' =>
      match openTable ks p.document with
      | none => none
      | some es => some (⟨es, ks⟩, r')

def readRowHeader (p : Progress) (t : Text) : Reading Progress :=
  match readKey nesting t with
  | none => none
  | some (ks, r) =>
    match r with
    | ']' :: ']' :: r' =>
      match openRow ks p.document with
      | none => none
      | some es => some (⟨es, ks⟩, r')
    | _ => none

def readLinePair (p : Progress) (t : Text) : Reading Progress :=
  match readPair (readValue nesting) t with
  | none => none
  | some ((ks, n), r) =>
    match within (addPair ks n) p.header p.document with
    | none => none
    | some es => some ({ p with document := es }, r)

/-- A line up to its comment. -/
def readContent (p : Progress) (t : Text) : Reading Progress :=
  match t with
  | '[' :: '[' :: r => readRowHeader p r
  | '[' :: r => readTableHeader p r
  | '#' :: _ => some (p, t)
  | '\n' :: _ => some (p, t)
  | '\r' :: _ => some (p, t)
  | _ => readLinePair p t

/-- Every line takes at least one character. -/
def readLines : (fuel : Nat) → Progress → Text → Option Entries
  | 0, _, _ => none
  | fuel + 1, p, t =>
    match spaces t with
    | [] => some p.document
    | c :: r =>
      match readContent p (c :: r) with
      | none => none
      | some (p', r') =>
        match lineEnd? r' with
        | none => none
        | some r'' => readLines fuel p' r''

/-- A byte order mark may stand in front. -/
def read (t : Text) : Option Entries :=
  let t' :=
    match t with
    | '\uFEFF' :: r => r
    | _ => t
  readLines (t'.length + 1) ⟨[], []⟩ t'

end Toml
end IncludeOrder
