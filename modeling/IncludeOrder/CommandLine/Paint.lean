import IncludeOrder.Text.Utf8

/-!
# IncludeOrder.CommandLine.Paint

Coloured text. A colour is switched on before the text and off behind it; where the text itself
switches off, the colour is switched on again.

* `Paint.isOn`    — whether colours are to be used.
* `Paint.painted` — text in a colour.
-/

namespace IncludeOrder
namespace Paint

inductive Color where
  | red
  | boldRed
  | green
  | yellow
  | cyan
  | dimmed
deriving DecidableEq, Repr

def Color.code : Color → Text
  | red => ['3', '1']
  | boldRed => ['1', ';', '3', '1']
  | green => ['3', '2']
  | yellow => ['3', '3']
  | cyan => ['3', '6']
  | dimmed => ['2']

/-- The sequence of control characters with a code. -/
def sequence (code : Text) : Text :=
  ['\x1b', '['] ++ code ++ ['m']

def off : Text :=
  sequence ['0']

/-- Switches on again behind each `off` in a text. -/
def reopened (opening : Text) : Text → Text
  | [] => []
  | '\x1b' :: '[' :: '0' :: 'm' :: r => off ++ opening ++ reopened opening r
  | c :: r => c :: reopened opening r

def painted (on : Bool) (c : Color) (t : Text) : Text :=
  if on then sequence c.code ++ reopened (sequence c.code) t ++ off else t

/-- What a setting of the environment says, if it is some text: anything but `0` is a yes. -/
def says? (value : Option Bytes) : Option Bool :=
  match value with
  | none => none
  | some b =>
    match Utf8.decode? b with
    | none => none
    | some t => some (t ≠ ['0'])

/-- Colours can be forced; else they can be forbidden; else a terminal has them. -/
def isOn (terminal : Bool) (force forbid allow : Option Bytes) : Bool :=
  if says? force = some true then true
  else if (says? forbid).isSome then false
  else terminal && (says? allow).getD true

end Paint
end IncludeOrder
