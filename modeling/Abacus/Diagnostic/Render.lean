/-
  Abacus/Diagnostic/Render.lean
  =============================
  **Diagnostics shown against their source.**  A message, the line it is about behind a
  gutter with the line's number, and carets under the stretch it is about:

      Error: Unclosed delimiter `(`, expected `)` before end of input
         1 | 1 + (2
           |     ^^

  The carets stop at the end of the line, and there is always at least one.  The text is
  put together from fragments with or without a style.  Five control characters that
  would move the printing position are left out of every fragment; the columns are counted
  with them.
-/
import Abacus.Diagnostic
import Abacus.Diagnostic.Locate
import Abacus.Eval.Error

namespace Abacus

/-! ### Styled text -/

/-- How a stretch of text is to be shown. -/
inductive Style where
  | alarm
  | faint
deriving DecidableEq, Repr

/-- The colours of a style. -/
def Style.label : Style → String
  | .alarm => "bold red"
  | .faint => "bright_black"

/-- A stretch of a text and its style. -/
structure Span where
  start : Nat
  stop : Nat
  style : Style
deriving DecidableEq, Repr

/-- A text, the style of all of it if it has one, and the styles of its parts. -/
structure Styled where
  plain : List Char
  style : Option Style
  spans : List Span
deriving DecidableEq, Repr

/-- The text without its styles. -/
def Styled.text (s : Styled) : String :=
  String.ofList s.plain

/-- A part of a text before it is put together. -/
structure Fragment where
  chars : List Char
  style : Option Style
deriving DecidableEq, Repr

/-- Whether a control character would move the printing position. -/
def movesPrinting (c : Char) : Bool :=
  c = '\x07' || c = '\x08' || c = '\x0b' || c = '\x0c' || c = '\x0d'

/-- The characters of a text that are shown. -/
def visible (cs : List Char) : List Char :=
  cs.filter fun c => !movesPrinting c

/-- The spans of fragments that start at `offset`. -/
def spansFrom (offset : Nat) : List Fragment → List Span
  | [] => []
  | f :: rest =>
    let next := offset + (visible f.chars).length
    match f.style with
    | some style => ⟨offset, next, style⟩ :: spansFrom next rest
    | none => spansFrom next rest

/-- Puts fragments together. -/
def Styled.ofFragments (fragments : List Fragment) : Styled :=
  ⟨fragments.flatMap fun f => visible f.chars, none, spansFrom 0 fragments⟩

/-! ### Syntax errors -/

/-- The part of a source that a diagnostic is about: a line and its number, and where the
    carets stand below it. -/
structure Excerpt where
  number : Nat
  line : List Char
  indent : Nat
  width : Nat
deriving DecidableEq, Repr

/-- The excerpt for a diagnostic. -/
def Excerpt.of (source : List Char) (d : Diagnostic) : Excerpt :=
  let place := Position.locate source d.start
  let line := (Position.lines source)[place.line - 1]?.getD []
  let lineEnd := d.start + line.length - place.column + 1
  ⟨place.line, line, place.column - 1, (max 1 (min d.stop lineEnd - d.start)).toNat⟩

/-- The gutter with a line number, which takes at least four places. -/
def gutter (number : Nat) : List Char :=
  let digits := Nat.toDigits 10 number
  List.replicate (4 - digits.length) ' ' ++ digits ++ [' ', '|', ' ']

/-- A gutter of the same size without the number. -/
def blankGutter (number : Nat) : List Char :=
  List.replicate ((gutter number).length - 2) ' ' ++ ['|', ' ']

/-- The parts of a shown diagnostic. -/
def Diagnostic.fragments (source : List Char) (d : Diagnostic) : List Fragment :=
  let x := Excerpt.of source d
  [⟨"Error: ".toList ++ d.message.toList, some .alarm⟩, ⟨['\n'], none⟩,
    ⟨gutter x.number, some .faint⟩, ⟨x.line, none⟩, ⟨['\n'], none⟩,
    ⟨blankGutter x.number, some .faint⟩, ⟨List.replicate x.indent ' ', none⟩,
    ⟨List.replicate x.width '^', some .alarm⟩]

/-- A diagnostic shown against its source. -/
def Diagnostic.render (source : String) (d : Diagnostic) : Styled :=
  .ofFragments (d.fragments source.toList)

/-! ### Evaluation errors -/

/-- An evaluation error, shown on one line. -/
def EvalError.render (e : EvalError) : Styled :=
  ⟨visible ("Evaluation error: " ++ e.message).toList, some .alarm, []⟩

end Abacus
