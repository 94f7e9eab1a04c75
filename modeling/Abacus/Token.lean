/-
  Abacus/Token.lean
  =================
  **Tokens.**  A token is a kind, the text it was read from and the place where that text
  starts.  Places count characters from zero, and a token ends where its text does.  The
  last token of a source is the empty one of kind `eof`.
-/
import Abacus.Text.Quoted

namespace Abacus

/-- The kinds of tokens. -/
inductive Kind where
  | int
  | ident
  | letWord
  | fnWord
  | plus
  | minus
  | star
  | slash
  | lparen
  | rparen
  | comma
  | equals
  | semicolon
  | eof
deriving DecidableEq, Repr

/-- The name of a kind. -/
def Kind.label : Kind → String
  | .int => "int"
  | .ident => "ident"
  | .letWord => "let"
  | .fnWord => "fn"
  | .plus => "plus"
  | .minus => "minus"
  | .star => "star"
  | .slash => "slash"
  | .lparen => "lparen"
  | .rparen => "rparen"
  | .comma => "comma"
  | .equals => "equals"
  | .semicolon => "semicolon"
  | .eof => "eof"

/-- All kinds, in the order of their declaration. -/
def Kind.all : List Kind :=
  [.int, .ident, .letWord, .fnWord, .plus, .minus, .star, .slash, .lparen, .rparen, .comma, .equals,
    .semicolon, .eof]

/-- The kind with a given name. -/
def Kind.ofLabel? (label : String) : Option Kind :=
  Kind.all.find? fun kind => kind.label = label

/-- Whether a kind is one of the two reserved words. -/
def Kind.isReserved : Kind → Bool
  | .letWord | .fnWord => true
  | _ => false

/-- A piece of source text with its kind and its place. -/
structure Token where
  kind : Kind
  text : String
  start : Nat
deriving DecidableEq, Repr

namespace Token

/-- The place just past a token. -/
def stop (t : Token) : Nat :=
  t.start + t.text.length

/-- A token as error messages name it. -/
def describe (t : Token) : String :=
  match t.kind with
  | .eof => "end of input"
  | _ => "`" ++ t.text ++ "`"

/-- A token with its kind, text and place. -/
def inspect (t : Token) : String :=
  "Token(" ++ t.kind.label ++ ", " ++ Text.quoted t.text ++ ", pos=" ++ toString t.start ++ ")"

end Token
end Abacus
