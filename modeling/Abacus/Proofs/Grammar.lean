/-
  Abacus/Proofs/Grammar.lean
  ==========================
  **The grammar as a relation.**  `Derives s tokens e` says that the symbol `s` of the
  grammar derives `tokens` and that `e` is the tree of the derivation.  Each constructor
  is one alternative of the grammar in `Parse/Grammar`; a repetition `(…)*` is a list of
  links, and an operator chain is folded to the left.  Nothing here runs, and no bound on
  nesting is built in: the reader is compared with this relation in the files that follow.

  Where a token stands makes no difference to the grammar: `Derives.relocate`.

  The second half counts levels.  Every open bracket and every declaration is a level, and
  `NestsBelow` says that no prefix of the tokens has more levels open than a reader with
  that much room can follow.
-/
import Abacus.Parse.Grammar

namespace Abacus

/-- A token without its place. -/
structure Lexeme where
  kind : Kind
  text : String

/-- What a token is, wherever it stands. -/
def Token.lexeme (t : Token) : Lexeme :=
  ⟨t.kind, t.text⟩

namespace Parse

/-! ### Symbols, links and derivations -/

inductive Symbol where
  | declaration
  | addition
  | multiply
  | unary
  | primary
  | call
deriving DecidableEq, Repr

/-- A mark and the expression after it: an operator with its right operand, or a comma
    with the argument that follows. -/
structure Link where
  mark : Token
  tokens : List Token
  tree : Expr

def Link.written (l : Link) : List Token :=
  l.mark :: l.tokens

/-- The tree of a chain that starts with `left`: every link joins what stands left of it
    with its own operand.  There is none if a mark is no operator of the level. -/
def foldChain? (operator? : Kind → Option Operator) (left : Expr) : List Link → Option Expr
  | [] => some left
  | l :: rest =>
    match operator? l.mark.kind with
    | some op => foldChain? operator? (.bin op left l.tree) rest
    | none => none

/-- The tokens that a symbol derives, with the tree of the derivation. -/
inductive Derives : Symbol → List Token → Expr → Prop where
  /-- `declaration → "let" name "=" addition ";" declaration` -/
  | letIn {word name equals semicolon : Token} {valueTokens nextTokens : List Token}
      {value next : Expr} (hword : word.kind = .letWord) (hname : name.kind = .ident)
      (hequals : equals.kind = .equals) (hvalue : Derives .addition valueTokens value)
      (hsemicolon : semicolon.kind = .semicolon) (hnext : Derives .declaration nextTokens next) :
      Derives .declaration (word :: name :: equals :: (valueTokens ++ semicolon :: nextTokens))
        (.letIn name.text value next)
  /-- `declaration → "fn" name name* "=" addition ";" declaration` -/
  | fnIn {word name equals semicolon : Token} {params bodyTokens nextTokens : List Token}
      {body next : Expr} (hword : word.kind = .fnWord) (hname : name.kind = .ident)
      (hparams : ∀ param ∈ params, param.kind = .ident) (hequals : equals.kind = .equals)
      (hbody : Derives .addition bodyTokens body) (hsemicolon : semicolon.kind = .semicolon)
      (hnext : Derives .declaration nextTokens next) :
      Derives .declaration
        (word :: name :: (params ++ equals :: (bodyTokens ++ semicolon :: nextTokens)))
        (.fnIn name.text (params.map Token.text) body next)
  /-- `declaration → addition` -/
  | plain {tokens : List Token} {e : Expr} (h : Derives .addition tokens e) :
      Derives .declaration tokens e
  /-- `addition → multiply (("+" | "-") multiply)*` -/
  | addition {tokens : List Token} {links : List Link} {first e : Expr}
      (hfirst : Derives .multiply tokens first)
      (hlinks : ∀ l ∈ links, Derives .multiply l.tokens l.tree)
      (hfold : foldChain? additive? first links = some e) :
      Derives .addition (tokens ++ links.flatMap Link.written) e
  /-- `multiply → unary (("*" | "/") unary)*` -/
  | multiply {tokens : List Token} {links : List Link} {first e : Expr}
      (hfirst : Derives .unary tokens first)
      (hlinks : ∀ l ∈ links, Derives .unary l.tokens l.tree)
      (hfold : foldChain? multiplicative? first links = some e) :
      Derives .multiply (tokens ++ links.flatMap Link.written) e
  /-- `unary → "-" unary`, one sign of `"-"* primary` -/
  | negative {minus : Token} {tokens : List Token} {e : Expr} (hminus : minus.kind = .minus)
      (h : Derives .unary tokens e) : Derives .unary (minus :: tokens) (.neg e)
  /-- `unary → primary` -/
  | unsigned {tokens : List Token} {e : Expr} (h : Derives .primary tokens e) :
      Derives .unary tokens e
  /-- `primary → integer` -/
  | integer {tok : Token} {n : Nat} (htok : tok.kind = .int)
      (hvalue : numeralValue? tok.text = some n) : Derives .primary [tok] (.num (Binary64.ofNat n))
  /-- `primary → name` -/
  | var {name : Token} (hname : name.kind = .ident) : Derives .primary [name] (.var name.text)
  /-- `primary → "(" addition ")"` -/
  | bracketed {opening closing : Token} {tokens : List Token} {e : Expr}
      (hopening : opening.kind = .lparen) (h : Derives .addition tokens e)
      (hclosing : closing.kind = .rparen) :
      Derives .primary (opening :: (tokens ++ [closing])) e
  /-- `primary → call` -/
  | called {tokens : List Token} {e : Expr} (h : Derives .call tokens e) :
      Derives .primary tokens e
  /-- `call → name "(" ")"` -/
  | emptyCall {name opening closing : Token} (hname : name.kind = .ident)
      (hopening : opening.kind = .lparen) (hclosing : closing.kind = .rparen) :
      Derives .call [name, opening, closing] (.call name.text [])
  /-- `call → name "(" addition ("," addition)* ","? ")"` -/
  | call {name opening closing : Token} {tokens : List Token} {links : List Link}
      {comma : Option Token} {first : Expr} (hname : name.kind = .ident)
      (hopening : opening.kind = .lparen) (hfirst : Derives .addition tokens first)
      (hlinks : ∀ l ∈ links, Derives .addition l.tokens l.tree)
      (hmarks : ∀ l ∈ links, l.mark.kind = .comma) (hcomma : ∀ tok ∈ comma, tok.kind = .comma)
      (hclosing : closing.kind = .rparen) :
      Derives .call
        (name :: opening :: (tokens ++ (links.flatMap Link.written ++ (comma.toList ++ [closing]))))
        (.call name.text (first :: links.map Link.tree))

/-- Tokens that some derivation of the symbol starts with. -/
def Viable (s : Symbol) (tokens : List Token) : Prop :=
  ∃ suffix e, Derives s (tokens ++ suffix) e

/-! ### Levels -/

/-- How many brackets are open after a token of a kind, if `n` were open before it. -/
def bracketsAfter (n : Nat) : Kind → Nat
  | .lparen => n + 1
  | .rparen => n - 1
  | _ => n

/-- How many brackets are open after some tokens, if `n` were open before them. -/
def openBrackets (n : Nat) (tokens : List Token) : Nat :=
  tokens.foldl (fun n tok => bracketsAfter n tok.kind) n

/-- How many declarations are begun in some tokens. -/
def declarationCount (tokens : List Token) : Nat :=
  tokens.countP fun tok => tok.kind.isReserved

/-- How many levels are open after some tokens: the brackets not yet closed, and the
    declarations, which stay open to the end. -/
def openLevels (tokens : List Token) : Nat :=
  openBrackets 0 tokens + declarationCount tokens

/-- Tokens of which no front part opens as many levels as the limit. -/
def NestsBelow (limit : Nat) (tokens : List Token) : Prop :=
  ∀ n ≤ tokens.length, openLevels (tokens.take n) < limit

instance (limit : Nat) (tokens : List Token) : Decidable (NestsBelow limit tokens) :=
  inferInstanceAs (Decidable (∀ n ≤ tokens.length, openLevels (tokens.take n) < limit))

theorem openBrackets_cons (n : Nat) (tok : Token) (tokens : List Token) :
    openBrackets n (tok :: tokens) = openBrackets (bracketsAfter n tok.kind) tokens :=
  rfl

theorem openBrackets_append (n : Nat) (front back : List Token) :
    openBrackets n (front ++ back) = openBrackets (openBrackets n front) back :=
  List.foldl_append

theorem declarationCount_append (front back : List Token) :
    declarationCount (front ++ back) = declarationCount front + declarationCount back :=
  List.countP_append

theorem NestsBelow.openLevels_lt {limit : Nat} {front back : List Token}
    (h : NestsBelow limit (front ++ back)) : openLevels front < limit := by
  have hfront := h front.length (by simp)
  rwa [List.take_left] at hfront

/-- Tokens that close every bracket they open, and begin no declaration. -/
def Balanced (tokens : List Token) : Prop :=
  (∀ n, openBrackets n tokens = n) ∧ declarationCount tokens = 0

theorem Balanced.nil : Balanced [] :=
  ⟨fun _ => rfl, rfl⟩

theorem Balanced.append {front back : List Token} (hfront : Balanced front)
    (hback : Balanced back) : Balanced (front ++ back) := by
  refine ⟨fun n => ?_, ?_⟩
  · rw [openBrackets_append, hfront.1, hback.1]
  · rw [declarationCount_append, hfront.2, hback.2]

theorem Balanced.of_kind {tok : Token} {kind : Kind} (htok : tok.kind = kind)
    (hleft : kind ≠ .lparen) (hright : kind ≠ .rparen) (hword : kind.isReserved = false) :
    Balanced [tok] := by
  subst htok
  refine ⟨fun n => ?_, ?_⟩
  · rw [openBrackets_cons]
    cases hkind : tok.kind <;> simp_all [bracketsAfter, openBrackets]
  · simp [declarationCount, hword]

theorem Balanced.names {names : List Token} (h : ∀ name ∈ names, name.kind = .ident) :
    Balanced names := by
  induction names with
  | nil => exact Balanced.nil
  | cons name names ih =>
    have hname : Balanced [name] := .of_kind (h name (by simp)) (by decide) (by decide) (by decide)
    exact hname.append (ih fun name' hname' => h name' (by simp [hname']))

theorem Balanced.bracket {opening closing : Token} {tokens : List Token}
    (hopening : opening.kind = .lparen) (hclosing : closing.kind = .rparen)
    (h : Balanced tokens) : Balanced (opening :: (tokens ++ [closing])) := by
  refine ⟨fun n => ?_, ?_⟩
  · rw [openBrackets_cons, openBrackets_append, hopening, h.1]
    simp [openBrackets, bracketsAfter, hclosing]
  · have hlast : declarationCount [closing] = 0 := by
      simp [declarationCount, hclosing, Kind.isReserved]
    rw [declarationCount, List.countP_cons_of_neg (by simp [hopening, Kind.isReserved])]
    rw [← declarationCount, declarationCount_append, h.2, hlast]

theorem Balanced.links {links : List Link} (hmarks : ∀ l ∈ links, Balanced [l.mark])
    (h : ∀ l ∈ links, Balanced l.tokens) : Balanced (links.flatMap Link.written) := by
  induction links with
  | nil => exact Balanced.nil
  | cons l links ih =>
    have hfirst : Balanced l.written := (hmarks l (by simp)).append (h l (by simp))
    have hrest := ih (fun l' hl' => hmarks l' (by simp [hl'])) fun l' hl' => h l' (by simp [hl'])
    rw [List.flatMap_cons]
    exact hfirst.append hrest

/-! ### What derived tokens look like -/

/-- The marks of a chain that has a tree are operators of its level. -/
theorem isSome_of_foldChain? {operator? : Kind → Option Operator} {links : List Link} :
    ∀ {left e : Expr}, foldChain? operator? left links = some e →
      ∀ l ∈ links, (operator? l.mark.kind).isSome := by
  induction links with
  | nil => intro left e _ l hl; cases hl
  | cons l links ih =>
    intro left e hfold l' hl'
    simp only [foldChain?] at hfold
    rcases hop : operator? l.mark.kind with _ | op
    · rw [hop] at hfold; simp at hfold
    · rw [hop] at hfold
      rcases List.mem_cons.mp hl' with rfl | hmem
      · rw [hop]; rfl
      · exact ih hfold l' hmem

theorem kind_of_additive? {kind : Kind} (h : (additive? kind).isSome) :
    kind = .plus ∨ kind = .minus := by
  cases kind <;> simp_all [additive?]

theorem kind_of_multiplicative? {kind : Kind} (h : (multiplicative? kind).isSome) :
    kind = .star ∨ kind = .slash := by
  cases kind <;> simp_all [multiplicative?]

theorem Derives.balanced {s : Symbol} {tokens : List Token} {e : Expr} (h : Derives s tokens e)
    (hs : s ≠ .declaration) : Balanced tokens := by
  induction h with
  | letIn | fnIn | plain => exact absurd rfl hs
  | addition _ _ hfold ihfirst ihlinks =>
    refine (ihfirst (by decide)).append (Balanced.links (fun l hl => ?_) fun l hl =>
      ihlinks l hl (by decide))
    rcases kind_of_additive? (isSome_of_foldChain? hfold l hl) with hkind | hkind <;>
      exact .of_kind hkind (by decide) (by decide) (by decide)
  | multiply _ _ hfold ihfirst ihlinks =>
    refine (ihfirst (by decide)).append (Balanced.links (fun l hl => ?_) fun l hl =>
      ihlinks l hl (by decide))
    rcases kind_of_multiplicative? (isSome_of_foldChain? hfold l hl) with hkind | hkind <;>
      exact .of_kind hkind (by decide) (by decide) (by decide)
  | negative hminus _ ih =>
    exact Balanced.append (.of_kind hminus (by decide) (by decide) (by decide)) (ih (by decide))
  | unsigned _ ih | called _ ih => exact ih (by decide)
  | integer htok => exact .of_kind htok (by decide) (by decide) (by decide)
  | var hname => exact .of_kind hname (by decide) (by decide) (by decide)
  | bracketed hopening _ hclosing ih => exact (ih (by decide)).bracket hopening hclosing
  | emptyCall hname hopening hclosing =>
    exact Balanced.append (.of_kind hname (by decide) (by decide) (by decide))
      (Balanced.nil.bracket hopening hclosing)
  | @call name opening closing tokens links comma first hname hopening _ _ hmarks hcomma hclosing
      ihfirst ihlinks =>
    have hlinks : Balanced (links.flatMap Link.written) :=
      Balanced.links (fun l hl => .of_kind (hmarks l hl) (by decide) (by decide) (by decide))
        fun l hl => ihlinks l hl (by decide)
    have htrailing : Balanced comma.toList := by
      cases comma with
      | none => exact Balanced.nil
      | some tok => exact .of_kind (hcomma tok rfl) (by decide) (by decide) (by decide)
    have hinside :=
      ((ihfirst (by decide)).append (hlinks.append htrailing)).bracket hopening hclosing
    rw [List.append_assoc, List.append_assoc] at hinside
    exact Balanced.append (.of_kind hname (by decide) (by decide) (by decide)) hinside

/-- The kinds that an expression starts with. -/
def startsExpression : Kind → Bool
  | .int | .ident | .lparen | .minus => true
  | _ => false

theorem Derives.starts {s : Symbol} {tokens : List Token} {e : Expr} (h : Derives s tokens e)
    (hs : s ≠ .declaration) :
    ∃ tok rest, tokens = tok :: rest ∧ startsExpression tok.kind = true := by
  induction h with
  | letIn | fnIn | plain => exact absurd rfl hs
  | addition _ _ _ ih | multiply _ _ _ ih =>
    obtain ⟨tok, rest, rfl, hkind⟩ := ih (by decide)
    exact ⟨tok, _, rfl, hkind⟩
  | negative hminus => exact ⟨_, _, rfl, by rw [hminus]; rfl⟩
  | unsigned _ ih | called _ ih => exact ih (by decide)
  | integer htok => exact ⟨_, _, rfl, by rw [htok]; rfl⟩
  | var hname | emptyCall hname | call hname => exact ⟨_, _, rfl, by rw [hname]; rfl⟩
  | bracketed hopening => exact ⟨_, _, rfl, by rw [hopening]; rfl⟩

/-- A token that derivations are made of: not the end, and a numeral if it is an integer. -/
def IsTerminal (tok : Token) : Prop :=
  tok.kind ≠ .eof ∧ (tok.kind = .int → (numeralValue? tok.text).isSome)

theorem IsTerminal.of_kind {tok : Token} {kind : Kind} (h : tok.kind = kind)
    (heof : kind ≠ .eof) (hint : kind ≠ .int) : IsTerminal tok :=
  ⟨h ▸ heof, fun htok => absurd (h ▸ htok) hint⟩

theorem Derives.isTerminal {s : Symbol} {tokens : List Token} {e : Expr} (h : Derives s tokens e) :
    ∀ tok ∈ tokens, IsTerminal tok := by
  induction h with
  | letIn hword hname hequals _ hsemicolon _ ihvalue ihnext =>
    intro tok htok
    simp only [List.mem_cons, List.mem_append] at htok
    rcases htok with rfl | rfl | rfl | htok | rfl | htok
    · exact .of_kind hword (by decide) (by decide)
    · exact .of_kind hname (by decide) (by decide)
    · exact .of_kind hequals (by decide) (by decide)
    · exact ihvalue tok htok
    · exact .of_kind hsemicolon (by decide) (by decide)
    · exact ihnext tok htok
  | fnIn hword hname hparams hequals _ hsemicolon _ ihbody ihnext =>
    intro tok htok
    simp only [List.mem_cons, List.mem_append] at htok
    rcases htok with rfl | rfl | htok | rfl | htok | rfl | htok
    · exact .of_kind hword (by decide) (by decide)
    · exact .of_kind hname (by decide) (by decide)
    · exact .of_kind (hparams tok htok) (by decide) (by decide)
    · exact .of_kind hequals (by decide) (by decide)
    · exact ihbody tok htok
    · exact .of_kind hsemicolon (by decide) (by decide)
    · exact ihnext tok htok
  | plain _ ih | unsigned _ ih | called _ ih => exact ih
  | addition _ _ hfold ihfirst ihlinks =>
    intro tok htok
    simp only [List.mem_append, List.mem_flatMap, Link.written, List.mem_cons] at htok
    rcases htok with htok | ⟨l, hl, rfl | htok⟩
    · exact ihfirst tok htok
    · rcases kind_of_additive? (isSome_of_foldChain? hfold l hl) with hkind | hkind <;>
        exact .of_kind hkind (by decide) (by decide)
    · exact ihlinks l hl tok htok
  | multiply _ _ hfold ihfirst ihlinks =>
    intro tok htok
    simp only [List.mem_append, List.mem_flatMap, Link.written, List.mem_cons] at htok
    rcases htok with htok | ⟨l, hl, rfl | htok⟩
    · exact ihfirst tok htok
    · rcases kind_of_multiplicative? (isSome_of_foldChain? hfold l hl) with hkind | hkind <;>
        exact .of_kind hkind (by decide) (by decide)
    · exact ihlinks l hl tok htok
  | negative hminus _ ih =>
    intro tok htok
    rcases List.mem_cons.mp htok with rfl | htok
    · exact .of_kind hminus (by decide) (by decide)
    · exact ih tok htok
  | integer htok hvalue =>
    intro tok hmem
    obtain rfl := List.mem_singleton.mp hmem
    exact ⟨by rw [htok]; decide, fun _ => by rw [hvalue]; rfl⟩
  | var hname =>
    intro tok hmem
    obtain rfl := List.mem_singleton.mp hmem
    exact .of_kind hname (by decide) (by decide)
  | bracketed hopening _ hclosing ih =>
    intro tok htok
    simp only [List.mem_cons, List.mem_append, List.not_mem_nil, or_false] at htok
    rcases htok with rfl | htok | rfl
    · exact .of_kind hopening (by decide) (by decide)
    · exact ih tok htok
    · exact .of_kind hclosing (by decide) (by decide)
  | emptyCall hname hopening hclosing =>
    intro tok htok
    simp only [List.mem_cons, List.not_mem_nil, or_false] at htok
    rcases htok with rfl | rfl | rfl
    · exact .of_kind hname (by decide) (by decide)
    · exact .of_kind hopening (by decide) (by decide)
    · exact .of_kind hclosing (by decide) (by decide)
  | call hname hopening _ _ hmarks hcomma hclosing ihfirst ihlinks =>
    intro tok htok
    simp only [List.mem_cons, List.mem_append, List.mem_flatMap, Link.written, Option.mem_toList,
      List.not_mem_nil, or_false] at htok
    rcases htok with rfl | rfl | htok | ⟨l, hl, rfl | htok⟩ | htok | rfl
    · exact .of_kind hname (by decide) (by decide)
    · exact .of_kind hopening (by decide) (by decide)
    · exact ihfirst tok htok
    · exact .of_kind (hmarks l hl) (by decide) (by decide)
    · exact ihlinks l hl tok htok
    · exact .of_kind (hcomma tok htok) (by decide) (by decide)
    · exact .of_kind hclosing (by decide) (by decide)

/-! ### Places -/

/-- Tokens that differ in their places only. -/
def SameLexemes (tokens tokens' : List Token) : Prop :=
  tokens'.map Token.lexeme = tokens.map Token.lexeme

section SameLexemes

variable {tokens' : List Token}

theorem SameLexemes.exists_cons {tok : Token} {tokens : List Token}
    (h : SameLexemes (tok :: tokens) tokens') :
    ∃ tok' rest', tokens' = tok' :: rest' ∧ tok'.kind = tok.kind ∧ tok'.text = tok.text ∧
      SameLexemes tokens rest' := by
  obtain ⟨tok', rest', rfl, htok, hrest⟩ := List.map_eq_cons_iff.mp h
  obtain ⟨hkind, htext⟩ := Lexeme.mk.inj htok
  exact ⟨tok', rest', rfl, hkind, htext, hrest⟩

theorem SameLexemes.exists_append {front back : List Token}
    (h : SameLexemes (front ++ back) tokens') :
    ∃ front' back', tokens' = front' ++ back' ∧ SameLexemes front front' ∧
      SameLexemes back back' := by
  simp only [SameLexemes, List.map_append] at h
  obtain ⟨front', back', rfl, hfront, hback⟩ := List.map_eq_append_iff.mp h
  exact ⟨front', back', rfl, hfront, hback⟩

theorem SameLexemes.eq_nil (h : SameLexemes [] tokens') : tokens' = [] :=
  List.map_eq_nil_iff.mp h

theorem SameLexemes.map_text {tokens : List Token} (h : SameLexemes tokens tokens') :
    tokens'.map Token.text = tokens.map Token.text := by
  have htexts := congrArg (List.map Lexeme.text) h
  rwa [List.map_map, List.map_map] at htexts

theorem SameLexemes.forall_kind {tokens : List Token} {kind : Kind}
    (h : SameLexemes tokens tokens') (hkind : ∀ tok ∈ tokens, tok.kind = kind) :
    ∀ tok' ∈ tokens', tok'.kind = kind := by
  intro tok' htok'
  have hmem : tok'.lexeme ∈ tokens.map Token.lexeme := h ▸ List.mem_map_of_mem htok'
  obtain ⟨tok, htok, hlexeme⟩ := List.mem_map.mp hmem
  obtain ⟨hsame, -⟩ := Lexeme.mk.inj hlexeme
  rw [← hsame]
  exact hkind tok htok

theorem SameLexemes.exists_option {tok? : Option Token} (h : SameLexemes tok?.toList tokens') :
    ∃ tok?' : Option Token, tokens' = tok?'.toList := by
  cases tok? with
  | none => exact ⟨none, h.eq_nil⟩
  | some tok =>
    obtain ⟨tok', rest', rfl, -, -, hrest⟩ := h.exists_cons
    exact ⟨some tok', by rw [hrest.eq_nil]; rfl⟩

theorem SameLexemes.exists_links {links : List Link} :
    ∀ {tokens'}, SameLexemes (links.flatMap Link.written) tokens' →
      ∃ links' : List Link, tokens' = links'.flatMap Link.written ∧
        links'.map (fun l => (l.mark.kind, l.tree)) = links.map (fun l => (l.mark.kind, l.tree)) ∧
        ∀ l' ∈ links', ∃ l ∈ links, l'.mark.kind = l.mark.kind ∧ l'.tree = l.tree ∧
          SameLexemes l.tokens l'.tokens := by
  induction links with
  | nil =>
    intro tokens' h
    exact ⟨[], h.eq_nil, rfl, by simp⟩
  | cons l links ih =>
    intro tokens' h
    obtain ⟨mark', rest', rfl, hkind, -, hrest⟩ := h.exists_cons
    obtain ⟨own', others', rfl, hown, hothers⟩ := hrest.exists_append
    obtain ⟨links', rfl, hmap, hlinks⟩ := ih hothers
    refine ⟨⟨mark', own', l.tree⟩ :: links', rfl, ?_, ?_⟩
    · rw [List.map_cons, List.map_cons, hmap, hkind]
    · intro l' hl'
      rcases List.mem_cons.mp hl' with rfl | hmem
      · exact ⟨l, by simp, hkind, rfl, hown⟩
      · obtain ⟨l₀, hl₀, hsame⟩ := hlinks l' hmem
        exact ⟨l₀, by simp [hl₀], hsame⟩

end SameLexemes

theorem foldChain?_congr {operator? : Kind → Option Operator} {links : List Link} :
    ∀ {links' : List Link} {left : Expr},
      links'.map (fun l => (l.mark.kind, l.tree)) = links.map (fun l => (l.mark.kind, l.tree)) →
      foldChain? operator? left links' = foldChain? operator? left links := by
  induction links with
  | nil =>
    intro links' left h
    rw [List.map_eq_nil_iff.mp h]
  | cons l links ih =>
    intro links' left h
    obtain ⟨l', rest', rfl, hl, hrest⟩ := List.map_eq_cons_iff.mp h
    obtain ⟨hkind, htree⟩ := Prod.mk.inj hl
    simp only [foldChain?, hkind, htree]
    split
    · exact ih hrest
    · rfl

/-- **The grammar does not see places.** -/
theorem Derives.relocate {s : Symbol} {tokens : List Token} {e : Expr} (h : Derives s tokens e) :
    ∀ {tokens'}, SameLexemes tokens tokens' → Derives s tokens' e := by
  induction h with
  | letIn hword hname hequals _ hsemicolon _ ihvalue ihnext =>
    intro tokens' hsame
    obtain ⟨word', rest, rfl, hword', -, hsame⟩ := hsame.exists_cons
    obtain ⟨name', rest, rfl, hname', htext, hsame⟩ := hsame.exists_cons
    obtain ⟨equals', rest, rfl, hequals', -, hsame⟩ := hsame.exists_cons
    obtain ⟨value', rest, rfl, hvalue, hsame⟩ := hsame.exists_append
    obtain ⟨semicolon', next', rfl, hsemicolon', -, hnext⟩ := hsame.exists_cons
    rw [← htext]
    exact .letIn (hword' ▸ hword) (hname' ▸ hname) (hequals' ▸ hequals) (ihvalue hvalue)
      (hsemicolon' ▸ hsemicolon) (ihnext hnext)
  | fnIn hword hname hparams hequals _ hsemicolon _ ihbody ihnext =>
    intro tokens' hsame
    obtain ⟨word', rest, rfl, hword', -, hsame⟩ := hsame.exists_cons
    obtain ⟨name', rest, rfl, hname', htext, hsame⟩ := hsame.exists_cons
    obtain ⟨params', rest, rfl, hparams', hsame⟩ := hsame.exists_append
    obtain ⟨equals', rest, rfl, hequals', -, hsame⟩ := hsame.exists_cons
    obtain ⟨body', rest, rfl, hbody, hsame⟩ := hsame.exists_append
    obtain ⟨semicolon', next', rfl, hsemicolon', -, hnext⟩ := hsame.exists_cons
    rw [← htext, ← hparams'.map_text]
    exact .fnIn (hword' ▸ hword) (hname' ▸ hname) (hparams'.forall_kind hparams)
      (hequals' ▸ hequals) (ihbody hbody) (hsemicolon' ▸ hsemicolon) (ihnext hnext)
  | plain _ ih => exact fun hsame => .plain (ih hsame)
  | addition _ _ hfold ihfirst ihlinks =>
    intro tokens' hsame
    obtain ⟨first', rest, rfl, hfirst, hrest⟩ := hsame.exists_append
    obtain ⟨links', rfl, hmap, hlinks⟩ := hrest.exists_links
    refine .addition (ihfirst hfirst) (fun l' hl' => ?_) (foldChain?_congr hmap ▸ hfold)
    obtain ⟨l, hl, -, htree, hsame⟩ := hlinks l' hl'
    rw [htree]
    exact ihlinks l hl hsame
  | multiply _ _ hfold ihfirst ihlinks =>
    intro tokens' hsame
    obtain ⟨first', rest, rfl, hfirst, hrest⟩ := hsame.exists_append
    obtain ⟨links', rfl, hmap, hlinks⟩ := hrest.exists_links
    refine .multiply (ihfirst hfirst) (fun l' hl' => ?_) (foldChain?_congr hmap ▸ hfold)
    obtain ⟨l, hl, -, htree, hsame⟩ := hlinks l' hl'
    rw [htree]
    exact ihlinks l hl hsame
  | negative hminus _ ih =>
    intro tokens' hsame
    obtain ⟨minus', rest, rfl, hminus', -, hrest⟩ := hsame.exists_cons
    exact .negative (hminus' ▸ hminus) (ih hrest)
  | unsigned _ ih => exact fun hsame => .unsigned (ih hsame)
  | integer htok hvalue =>
    intro tokens' hsame
    obtain ⟨tok', rest, rfl, htok', htext, hrest⟩ := hsame.exists_cons
    rw [hrest.eq_nil]
    exact .integer (htok' ▸ htok) (htext ▸ hvalue)
  | var hname =>
    intro tokens' hsame
    obtain ⟨name', rest, rfl, hname', htext, hrest⟩ := hsame.exists_cons
    rw [hrest.eq_nil, ← htext]
    exact .var (hname' ▸ hname)
  | bracketed hopening _ hclosing ih =>
    intro tokens' hsame
    obtain ⟨opening', rest, rfl, hopening', -, hsame⟩ := hsame.exists_cons
    obtain ⟨inside', rest, rfl, hinside, hsame⟩ := hsame.exists_append
    obtain ⟨closing', rest, rfl, hclosing', -, hrest⟩ := hsame.exists_cons
    rw [hrest.eq_nil]
    exact .bracketed (hopening' ▸ hopening) (ih hinside) (hclosing' ▸ hclosing)
  | called _ ih => exact fun hsame => .called (ih hsame)
  | emptyCall hname hopening hclosing =>
    intro tokens' hsame
    obtain ⟨name', rest, rfl, hname', htext, hsame⟩ := hsame.exists_cons
    obtain ⟨opening', rest, rfl, hopening', -, hsame⟩ := hsame.exists_cons
    obtain ⟨closing', rest, rfl, hclosing', -, hrest⟩ := hsame.exists_cons
    rw [hrest.eq_nil, ← htext]
    exact .emptyCall (hname' ▸ hname) (hopening' ▸ hopening) (hclosing' ▸ hclosing)
  | @call name opening closing tokens links comma first hname hopening _ _ hmarks hcomma hclosing
      ihfirst ihlinks =>
    intro tokens' hsame
    obtain ⟨name', rest, rfl, hname', htext, hsame⟩ := hsame.exists_cons
    obtain ⟨opening', rest, rfl, hopening', -, hsame⟩ := hsame.exists_cons
    obtain ⟨first', rest, rfl, hfirst, hsame⟩ := hsame.exists_append
    obtain ⟨others', rest, rfl, hothers, hafter⟩ := hsame.exists_append
    obtain ⟨links', rfl, hmap, hlinks⟩ := hothers.exists_links
    obtain ⟨trailing', rest, rfl, htrailing, hlast⟩ := hafter.exists_append
    obtain ⟨closing', rest, rfl, hclosing', -, hrest⟩ := hlast.exists_cons
    have hcomma' := htrailing.forall_kind fun tok htok => hcomma tok (Option.mem_toList.mp htok)
    obtain ⟨comma', rfl⟩ := htrailing.exists_option
    have htrees : links'.map Link.tree = links.map Link.tree := by
      have htrees := congrArg (List.map Prod.snd) hmap
      rwa [List.map_map, List.map_map] at htrees
    rw [hrest.eq_nil, ← htext, ← htrees]
    refine .call (hname' ▸ hname) (hopening' ▸ hopening) (ihfirst hfirst) (fun l' hl' => ?_)
      (fun l' hl' => ?_) (fun tok htok => hcomma' tok (Option.mem_toList.mpr htok))
      (hclosing' ▸ hclosing)
    · obtain ⟨l, hl, -, htree, hsame⟩ := hlinks l' hl'
      rw [htree]
      exact ihlinks l hl hsame
    · obtain ⟨l, hl, hmark, -⟩ := hlinks l' hl'
      rw [hmark]
      exact hmarks l hl

end Parse
end Abacus
