/-
  Abacus/Problem.lean
  ===================
  **What can be wrong with a source.**  A problem is a cause: a character or a run of
  characters that is no token, or a token that cannot stand where it does.  Its wording
  and the stretch of source it is about follow from the cause.
-/
import Abacus.Diagnostic
import Abacus.Fault
import Abacus.Token

namespace Abacus

/-- A reason to reject a source. -/
inductive Problem where
  /-- A run that starts like a number and is none. -/
  | malformedNumber (run : String) (start : Nat)
  /-- A character that starts no token. -/
  | strayCharacter (c : Char) (start : Nat)
  /-- A token other than the one a rule needs next. -/
  | expected (what : String) (found : Token)
  /-- A reserved word where a name or an expression has to stand. -/
  | reserved (found : Token)
  /-- The input ends before a bracket is closed. -/
  | unclosed (opening stop : Token)
  /-- Something else stands where a bracket has to be closed. -/
  | notClosing (opening found : Token)
  /-- No expression can start with this token. -/
  | noExpression (found : Token)
  /-- The input goes on after the program. -/
  | leftover (found : Token)
  /-- More levels are open than the reader allows. -/
  | tooDeep (found : Token)
deriving DecidableEq, Repr

namespace Problem

/-- The wording of a problem. -/
def message : Problem → String
  | malformedNumber run _ => "Malformed numeric literal `" ++ run ++ "`"
  | strayCharacter c _ => "Unexpected character " ++ Text.quoted (String.ofList [c])
  | expected what found => "Expected " ++ what ++ ", found " ++ found.describe
  | reserved found => "Keyword `" ++ found.text ++ "` cannot be used as an identifier"
  | unclosed _ _ => "Unclosed delimiter `(`, expected `)` before end of input"
  | notClosing opening found =>
    "Expected `)` to close `(` at " ++ toString opening.start ++ ", found " ++ found.describe
  | noExpression found =>
    match found.kind with
    | .eof => "Unexpected end of input, expected expression"
    | _ => "Unexpected token " ++ found.describe ++ ", expected expression"
  | leftover found => "Unexpected token " ++ found.describe ++ ", expected end of input"
  | tooDeep _ => "Expression nested too deeply"

/-- Where the stretch of source that a problem is about starts. -/
def start : Problem → Nat
  | malformedNumber _ start | strayCharacter _ start => start
  | unclosed opening _ => opening.start
  | expected _ found | reserved found | notClosing _ found | noExpression found | leftover found
  | tooDeep found => found.start

/-- Where the stretch of source that a problem is about ends. -/
def stop : Problem → Nat
  | malformedNumber run start => start + run.length
  | strayCharacter _ start => start + 1
  | unclosed _ stop => stop.start
  | expected _ found | reserved found | notClosing _ found | noExpression found | leftover found
  | tooDeep found => found.stop

/-- The diagnostic of a problem. -/
def diagnostic (p : Problem) : Diagnostic :=
  ⟨p.message, p.start, p.stop⟩

end Problem

/-- Why a source was not read: everything that is wrong with it, or a fault. -/
inductive Rejection where
  | problems (list : List Problem)
  | fault (f : Fault)
deriving DecidableEq, Repr

/-- The diagnostics of a rejection. -/
def Rejection.diagnostics : Rejection → List Diagnostic
  | .problems list => list.map Problem.diagnostic
  | .fault _ => []

end Abacus
