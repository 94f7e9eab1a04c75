/-
  Abacus/Parse/Grammar.lean
  =========================
  **The rules of the language**, from loose to tight:

      declaration → "let" name "=" addition ";" declaration
                  | "fn" name name* "=" addition ";" declaration
                  | addition
      addition    → multiply (("+" | "-") multiply)*
      multiply    → unary (("*" | "/") unary)*
      unary       → "-"* primary
      primary     → integer | call | name | "(" addition ")"
      call        → name "(" (addition ("," addition)* ","?)? ")"

  Operators of one level associate to the left.  Declarations stand at the top only.

  The rules that need an expression inside brackets take the rule for it as an argument,
  `inner`.  The knot is tied by `expression`, which has `room` for so many open levels:
  each bracket, each call and each declaration opens one.

  The rules are the same whatever their steps are taken in, the plain `Except Stop` or
  something that keeps more of a run than its answer.
-/
import Abacus.Expr
import Abacus.Number.Binary64
import Abacus.Parse.Rule

namespace Abacus.Parse

/-! ### Numerals -/

/-- The number that a row of ASCII digits denotes, read after the digits worth `read`. -/
def digitsValue? (read : Nat) : List Char → Option Nat
  | [] => some read
  | c :: rest => if c.isDigit then digitsValue? (read * 10 + (c.toNat - 48)) rest else none

/-- The number that a numeral denotes. -/
def numeralValue? (text : String) : Option Nat :=
  match text.toList with
  | [] => none
  | digits => digitsValue? 0 digits

/-! ### Operators -/

/-- The operators of addition. -/
def additive? : Kind → Option Operator
  | .plus => some .add
  | .minus => some .sub
  | _ => none

/-- The operators of multiplication. -/
def multiplicative? : Kind → Option Operator
  | .star => some .mul
  | .slash => some .div
  | _ => none

/-! ### Expressions -/

open Steps

variable {m : Type → Type} [Monad m] [Steps m]

/-- Arguments up to the closing bracket, which stays ahead.  A comma may follow the last
    one. -/
def arguments (inner : RuleIn m Expr) : (rounds : Nat) → RuleIn m (List Expr)
  | 0, _ => Except.error (Stop.fault .stalled)
  | rounds + 1, ahead => do
    enter
    let tok ← current ahead
    if tok.kind = .rparen then return ([], ahead)
    let (arg, ahead) ← inner ahead
    let tok ← current ahead
    if tok.kind = .comma then
      let (_, ahead) ← advance ahead
      let (args, ahead) ← arguments inner rounds ahead
      return (arg :: args, ahead)
    else return ([arg], ahead)

/-- A name and its arguments in brackets. -/
def call (inner : RuleIn m Expr) : RuleIn m Expr := fun ahead => do
  enter
  let (name, ahead) ← expect .ident "function name" ahead
  let (opening, ahead) ← expect .lparen "`(`" ahead
  let (args, ahead) ← arguments inner (rounds m ahead) ahead
  let (_, ahead) ← expectClose opening ahead
  return (.call name.text args, ahead)

/-- An expression in brackets; the brackets leave no trace in the tree. -/
def bracketed (inner : RuleIn m Expr) : RuleIn m Expr := fun ahead => do
  enter
  let (opening, ahead) ← advance ahead
  let (e, ahead) ← inner ahead
  let (_, ahead) ← expectClose opening ahead
  return (e, ahead)

/-- An integer.  Only what the scanner takes for one is covered, a row of ASCII digits; any other
    text is a fault, also where it denotes a number in some other notation. -/
def literal : RuleIn m Expr := fun ahead => do
  enter
  let (tok, ahead) ← advance ahead
  match numeralValue? tok.text with
  | some n => return (.num (Binary64.ofNat n), ahead)
  | none => Except.error (Stop.fault .noNumeral)

/-- A name that is called if a bracket follows, else a variable. -/
def named (inner : RuleIn m Expr) : RuleIn m Expr := fun ahead => do
  enter
  let following ← peek 1 ahead
  if following.kind = .lparen then call inner ahead
  else
    let (name, ahead) ← advance ahead
    return (.var name.text, ahead)

/-- An integer, a call, a name or an expression in brackets. -/
def primary (inner : RuleIn m Expr) : RuleIn m Expr := fun ahead => do
  enter
  let tok ← current ahead
  match tok.kind with
  | .lparen => bracketed inner ahead
  | .int => literal ahead
  | .ident => named inner ahead
  | .letWord | .fnWord => Except.error (Stop.problem (.reserved tok) ahead)
  | _ => Except.error (Stop.problem (.noExpression tok) ahead)

/-- The minus signs before a primary, and the primary. -/
def negations (inner : RuleIn m Expr) : (rounds : Nat) → RuleIn m Expr
  | 0, _ => Except.error (Stop.fault .stalled)
  | rounds + 1, ahead => do
    enter
    let tok ← current ahead
    if tok.kind = .minus then
      let (_, ahead) ← advance ahead
      let (e, ahead) ← negations inner rounds ahead
      return (.neg e, ahead)
    else primary inner ahead

/-- Any number of minus signs before a primary. -/
def unary (inner : RuleIn m Expr) : RuleIn m Expr := fun ahead =>
  negations inner (rounds m ahead) ahead

/-- The rest of a chain of operators, joined to what stands left of it. -/
def chain (operator? : Kind → Option Operator) (operand : RuleIn m Expr) :
    (rounds : Nat) → Expr → RuleIn m Expr
  | 0, _, _ => Except.error (Stop.fault .stalled)
  | rounds + 1, left, ahead => do
    enter
    let tok ← current ahead
    match operator? tok.kind with
    | none => return (left, ahead)
    | some op =>
      let (_, ahead) ← advance ahead
      let (right, ahead) ← operand ahead
      chain operator? operand rounds (.bin op left right) ahead

/-- Operands joined by operators of one level. -/
def chained (operator? : Kind → Option Operator) (operand : RuleIn m Expr) : RuleIn m Expr :=
    fun ahead => do
  enter
  let (left, ahead) ← operand ahead
  chain operator? operand (rounds m ahead) left ahead

/-- Unary expressions joined by multiplication and division. -/
def multiply (inner : RuleIn m Expr) : RuleIn m Expr :=
  chained multiplicative? (unary inner)

/-- Products joined by addition and subtraction. -/
def addition (inner : RuleIn m Expr) : RuleIn m Expr :=
  chained additive? (multiply inner)

/-- Nothing, because no more levels may be opened. -/
def noRoom : RuleIn m Expr := fun ahead => do
  enter
  let tok ← current ahead
  Except.error (Stop.problem (.tooDeep tok) ahead)

/-- An expression with room for so many open levels. -/
def expression : (room : Nat) → RuleIn m Expr
  | 0 => noRoom
  | room + 1 => addition (expression room)

/-! ### Declarations -/

/-- Parameter names, as long as words follow. -/
def parameters : (rounds : Nat) → RuleIn m (List String)
  | 0, _ => Except.error (Stop.fault .stalled)
  | rounds + 1, ahead => do
    enter
    let tok ← current ahead
    if tok.kind = .ident ∨ tok.kind.isReserved then
      let (name, ahead) ← expectName "parameter name" ahead
      let (names, ahead) ← parameters rounds ahead
      return (name.text :: names, ahead)
    else return ([], ahead)

/-- What follows the names of a declaration: an expression, and the declaration after it. -/
def binding (inner next : RuleIn m Expr) (what : String) (build : Expr → Expr → Expr) :
    RuleIn m Expr := fun ahead => do
  let (_, ahead) ← expect .equals what ahead
  let (value, ahead) ← inner ahead
  let (_, ahead) ← expect .semicolon "`;`" ahead
  let (rest, ahead) ← next ahead
  return (build value rest, ahead)

/-- A variable declaration, and the declaration after it. -/
def letDeclaration (inner next : RuleIn m Expr) : RuleIn m Expr := fun ahead => do
  enter
  let (_, ahead) ← advance ahead
  let (name, ahead) ← expectName "variable name after `let`" ahead
  binding inner next "`=`" (.letIn name.text) ahead

/-- A function declaration, and the declaration after it. -/
def fnDeclaration (inner next : RuleIn m Expr) : RuleIn m Expr := fun ahead => do
  enter
  let (_, ahead) ← advance ahead
  let (name, ahead) ← expectName "function name after `fn`" ahead
  let (params, ahead) ← parameters (rounds m ahead) ahead
  binding inner next "parameter name or `=`" (.fnIn name.text params) ahead

/-- Declarations and a final expression, with room for so many open levels. -/
def declaration : (room : Nat) → RuleIn m Expr
  | 0, ahead => noRoom ahead
  | room + 1, ahead => do
    enter
    let tok ← current ahead
    match tok.kind with
    | .letWord => letDeclaration (expression room) (declaration room) ahead
    | .fnWord => fnDeclaration (expression room) (declaration room) ahead
    | _ => expression (room + 1) ahead

end Abacus.Parse
