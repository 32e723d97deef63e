import IncludeOrder.Proofs.Toml.Arrays
import IncludeOrder.Settings
import Mathlib

/-!
# IncludeOrder.Proofs.SettingsText

The settings as the text of their file. `document s` is what the settings `s` are as a document: it is
read from the text in which they are written (`read_written`), and it stands for them
(`ofDocument?_document`). The text for a start is that of the default settings, with comments
(`read_template`).
-/

namespace IncludeOrder
namespace Settings

open Toml

variable {s : Settings} {p p' : Toml.Progress} {t r w name : Text} {fuel : Nat}

/-- An array of strings. -/
def arrayOf (ts : List Text) : Node :=
  .array (ts.map Node.text)

/-- The table in which the settings are kept. -/
def filesOf (entries : Entries) : Entries :=
  [(Text.ofString "files", .table .header entries)]

def document (s : Settings) : Entries :=
  filesOf [(Text.ofString "extensions", arrayOf s.extensions),
    (Text.ofString "exclude", arrayOf s.exclude)]

theorem texts?_map (ts : List Text) : texts? (ts.map Node.text) = some ts := by
  induction ts with
  | nil => rfl
  | cons t ts ih => simp only [List.map_cons, texts?, ih]

theorem ofDocument?_document (s : Settings) : ofDocument? (document s) = some s := by
  have hlists : ofDocument? (document s) =
      ofNodes? (some (arrayOf s.extensions)) (some (arrayOf s.exclude)) := rfl
  rw [hlists]
  simp only [ofNodes?, list?, arrayOf, texts?_map]

/-! ## Lines -/

theorem readLines_line {c : Char} (hs : spaces t = c :: w)
    (h : readContent p (c :: w) = some (p', '\n' :: r)) :
    readLines (fuel + 1) p t = readLines fuel p' r := by
  have hend : lineEnd? ('\n' :: r) = some r := rfl
  simp only [readLines, hs, h, hend]

theorem writeArray_eq_cons (ts : List Text) : ∃ v, writeArray ts = '[' :: v := by
  match ts with
  | [] => exact ⟨_, rfl⟩
  | [t] => exact ⟨_, rfl⟩
  | t :: u :: ts => exact ⟨_, rfl⟩

/-- A key and its array on one line. -/
theorem readPair_writeArray
    (hkey : ∀ x, readKey nesting (w ++ x) = some ([name], '=' :: ' ' :: x)) (ts : List Text)
    (r : Text) :
    readPair (readValue nesting) (w ++ (writeArray ts ++ r)) = some (([name], arrayOf ts), r) := by
  have hs : spaces (' ' :: (writeArray ts ++ r)) = writeArray ts ++ r := by
    obtain ⟨v, hv⟩ := writeArray_eq_cons ts
    rw [hv]
    rfl
  simp only [readPair, hkey, after?, if_true, hs]
  rw [nesting, readValue_writeArray]
  rfl

/-- What has been read behind the header of the table, with some of its entries. -/
def inFiles (entries : Entries) : Toml.Progress :=
  ⟨filesOf entries, [Text.ofString "files"]⟩

theorem readContent_header (r : Text) :
    readContent ⟨[], []⟩ (Text.ofString "[files]" ++ r) = some (inFiles [], r) := rfl

theorem readContent_extensions (ts : List Text) (r : Text) :
    readContent (inFiles []) (Text.ofString "extensions = " ++ (writeArray ts ++ r)) =
      some (inFiles [(Text.ofString "extensions", arrayOf ts)], r) := by
  have hkey : ∀ x, readKey nesting (Text.ofString "extensions = " ++ x) =
      some ([Text.ofString "extensions"], '=' :: ' ' :: x) := fun _ => rfl
  have hline : readContent (inFiles []) (Text.ofString "extensions = " ++ (writeArray ts ++ r)) =
      readLinePair (inFiles []) (Text.ofString "extensions = " ++ (writeArray ts ++ r)) := rfl
  rw [hline, readLinePair, readPair_writeArray hkey]
  rfl

theorem readContent_exclude (ts us : List Text) (r : Text) :
    readContent (inFiles [(Text.ofString "extensions", arrayOf ts)])
        (Text.ofString "exclude = " ++ (writeArray us ++ r)) =
      some (inFiles [(Text.ofString "extensions", arrayOf ts),
        (Text.ofString "exclude", arrayOf us)], r) := by
  have hkey : ∀ x, readKey nesting (Text.ofString "exclude = " ++ x) =
      some ([Text.ofString "exclude"], '=' :: ' ' :: x) := fun _ => rfl
  have hline : ∀ p, readContent p (Text.ofString "exclude = " ++ (writeArray us ++ r)) =
      readLinePair p (Text.ofString "exclude = " ++ (writeArray us ++ r)) := fun _ => rfl
  rw [hline, readLinePair, readPair_writeArray hkey]
  rfl

/-! ## Texts -/

theorem written_eq (s : Settings) : s.written =
    Text.ofString "[files]" ++ '\n' :: (Text.ofString "extensions = " ++ (writeArray s.extensions ++
      '\n' :: (Text.ofString "exclude = " ++ (writeArray s.exclude ++ ['\n'])))) := by
  simp [written, Text.ofString]

theorem read_written (s : Settings) : Toml.read s.written = some (document s) := by
  have hread : Toml.read s.written = readLines (s.written.length + 1) ⟨[], []⟩ s.written := by
    rw [written_eq]
    rfl
  obtain ⟨n, hn⟩ : ∃ n, s.written.length + 1 = n + 1 + 1 + 1 + 1 := by
    refine ⟨s.written.length - 3, ?_⟩
    rw [written_eq]
    simp only [List.length_append, List.length_cons]
    omega
  rw [hread, hn, written_eq, readLines_line rfl (readContent_header _),
    readLines_line rfl (readContent_extensions _ _), readLines_line rfl (readContent_exclude _ _ _)]
  rfl

-- Each literal becomes its list of characters first: reading the text of several literals at once is
-- much slower.
set_option maxRecDepth 10000 in
theorem read_template : Toml.read template = some (document default) := by
  simp only [template, Text.ofString, String.toList_append]
  repeat rw [String.toList_ofList]
  cbv

end Settings
end IncludeOrder
