/-
  Abacus/Proofs/RoundTrip.lean
  ============================
  **Reading undoes printing.**  The text of a tree that the grammar can produce is read as
  that tree.  The one thing that does not come back is an infinite literal, which is printed
  as the word `inf` and read as a variable of that name.

  The printer, the scanner and the reader meet in `Writes`: a text spells tokens that a symbol
  derives with a tree.  One induction over trees shows that printed texts do; the token
  boundaries are settled by what may follow, since nothing that the printer puts after a word
  or a number goes on with it.
-/
import Abacus.Expr.Print
import Abacus.Proofs.Completeness
import Abacus.Proofs.Number
import Abacus.Proofs.Scan

namespace Abacus

open Binary64 (shape)
open Scan (Spells Stops IsLexeme isWordStart isWordPart wordKind punctuation?)

/-! ### Trees that the grammar can produce -/

/-- A word that is not reserved. -/
def isName (name : String) : Bool :=
  match name.toList with
  | [] => false
  | c :: rest => isWordStart c && rest.all isWordPart && name != "let" && name != "fn"

/-- A whole number without a sign, or infinity. -/
def isLiteral (x : Float) : Bool :=
  match shape x with
  | .finite false word => Number.isWhole word
  | .infinite false => true
  | _ => false

namespace Expr

/-- A tree without declarations. -/
inductive IsPlain : Expr → Prop where
  | num {x : Float} (hx : isLiteral x = true) : IsPlain (.num x)
  | var {name : String} (hname : isName name = true) : IsPlain (.var name)
  | neg {e : Expr} (h : IsPlain e) : IsPlain (.neg e)
  | bin {op : Operator} {left right : Expr} (hleft : IsPlain left) (hright : IsPlain right) :
      IsPlain (.bin op left right)
  | call {function : String} {args : List Expr} (hfunction : isName function = true)
      (hargs : ∀ arg ∈ args, IsPlain arg) : IsPlain (.call function args)

/-- A tree with declarations at the top only. -/
inductive IsProgram : Expr → Prop where
  | letIn {name : String} {value next : Expr} (hname : isName name = true) (hvalue : IsPlain value)
      (hnext : IsProgram next) : IsProgram (.letIn name value next)
  | fnIn {name : String} {params : List String} {body next : Expr} (hname : isName name = true)
      (hparams : ∀ param ∈ params, isName param = true) (hbody : IsPlain body)
      (hnext : IsProgram next) : IsProgram (.fnIn name params body next)
  | plain {e : Expr} (h : IsPlain e) : IsProgram e

mutual

/-- The tree with every infinite literal replaced by the word it is printed as. -/
def nameInfinity : Expr → Expr
  | .num x =>
    match shape x with
    | .infinite _ => .var "inf"
    | _ => .num x
  | .var name => .var name
  | .neg operand => .neg operand.nameInfinity
  | .bin op left right => .bin op left.nameInfinity right.nameInfinity
  | .call function args => .call function (nameInfinityAll args)
  | .letIn name value next => .letIn name value.nameInfinity next.nameInfinity
  | .fnIn name params body next => .fnIn name params body.nameInfinity next.nameInfinity

def nameInfinityAll : List Expr → List Expr
  | [] => []
  | e :: rest => e.nameInfinity :: nameInfinityAll rest

end

mutual

def literals : Expr → List Float
  | .num x => [x]
  | .var _ => []
  | .neg operand => operand.literals
  | .bin _ left right => left.literals ++ right.literals
  | .call _ args => literalsAll args
  | .letIn _ value next => value.literals ++ next.literals
  | .fnIn _ _ body next => body.literals ++ next.literals

def literalsAll : List Expr → List Float
  | [] => []
  | e :: rest => e.literals ++ literalsAll rest

end

theorem nameInfinityAll_eq_map (es : List Expr) : nameInfinityAll es = es.map nameInfinity := by
  induction es with
  | nil => rfl
  | cons e es ih => rw [nameInfinityAll, ih, List.map_cons]

end Expr

/-! ### Texts and derivations -/

/-- Characters that spell these tokens before anything that stops a word. -/
def Spelled (chars : List Char) (tokens : List Token) : Prop :=
  ∀ (cs : List Char) (lexemes : List Lexeme), Spells cs lexemes → Stops cs →
    Spells (chars ++ cs) (tokens.map Token.lexeme ++ lexemes)

theorem Spelled.nil : Spelled [] [] := by
  intro cs lexemes h _
  exact h

theorem Spelled.append {front back : List Char} {tokens tokens' : List Token}
    (hfront : Spelled front tokens) (hback : Spelled back tokens') (hstops : Stops back) :
    Spelled (front ++ back) (tokens ++ tokens') := by
  intro cs lexemes h hcs
  rw [List.append_assoc, List.map_append, List.append_assoc]
  exact hfront _ _ (hback _ _ h hcs) (hstops.append hcs)

theorem Spelled.blank {back : List Char} {tokens : List Token} (hback : Spelled back tokens) :
    Spelled (' ' :: back) tokens := by
  intro cs lexemes h hcs
  exact .blank (by decide) (hback _ _ h hcs)

def markToken (kind : Kind) (c : Char) : Token :=
  ⟨kind, String.ofList [c], 0⟩

theorem markToken_kind (kind : Kind) (c : Char) : (markToken kind c).kind = kind :=
  rfl

theorem Spelled.mark (kind : Kind) (c : Char) {back : List Char} {tokens : List Token}
    (hc : punctuation? c = some kind) (hback : Spelled back tokens) :
    Spelled (c :: back) (markToken kind c :: tokens) := by
  intro cs lexemes h hcs
  have hclosed : Scan.isOpenEnded kind = false := by
    unfold punctuation? at hc
    split at hc <;> cases hc <;> rfl
  exact .lexeme (.mark hc) (fun hopen => by rw [hclosed] at hopen; cases hopen) (hback _ _ h hcs)

theorem Spelled.lexeme {kind : Kind} {text : String} (h : IsLexeme kind text.toList) :
    Spelled text.toList [⟨kind, text, 0⟩] := by
  intro cs lexemes hcs hstops
  have hspells := Spells.lexeme h (fun _ => hstops) hcs
  rwa [String.ofList_toList] at hspells

theorem isLexeme_of_isName {name : String} (h : isName name = true) :
    IsLexeme .ident name.toList := by
  unfold isName at h
  split at h
  · cases h
  · rename_i c rest hchars
    simp only [Bool.and_eq_true, bne_iff_ne, ne_eq, List.all_eq_true] at h
    obtain ⟨⟨⟨hc, hrest⟩, hlet⟩, hfn⟩ := h
    have hname : String.ofList (c :: rest) = name := by
      rw [← hchars, String.ofList_toList]
    have hkind : wordKind (String.ofList (c :: rest)) = .ident := by
      rw [hname, wordKind, if_neg hlet, if_neg hfn]
    rw [hchars, ← hkind]
    exact .word hc hrest

def nameToken (name : String) : Token :=
  ⟨.ident, name, 0⟩

theorem nameToken_kind (name : String) : (nameToken name).kind = .ident :=
  rfl

theorem Spelled.name {name : String} (h : isName name = true) :
    Spelled name.toList [nameToken name] :=
  .lexeme (isLexeme_of_isName h)

/-- A text that spells what a symbol derives with a tree. -/
def Writes (s : Parse.Symbol) (text : String) (e : Expr) : Prop :=
  ∃ tokens, Parse.Derives s tokens e ∧ Spelled text.toList tokens

theorem Writes.primary {text : String} {e : Expr} (h : Writes .primary text e) :
    Writes .unary text e := by
  obtain ⟨tokens, hderives, hspelled⟩ := h
  exact ⟨tokens, .unsigned hderives, hspelled⟩

theorem Writes.var {name : String} (h : isName name = true) : Writes .primary name (.var name) :=
  ⟨[nameToken name], .var (nameToken_kind name), .name h⟩

theorem isLexeme_toDigits (n : Nat) : IsLexeme .int (Nat.toDigits 10 n) := by
  have hdigits : ∀ c ∈ Nat.toDigits 10 n, c.isDigit = true := fun c hc =>
    Nat.isDigit_of_mem_toDigits (by decide) (by decide) hc
  by_cases hn : n = 0
  · rw [hn, Nat.toDigits_zero]
    exact .zero
  · obtain ⟨c, rest, heq, hc⟩ := Parse.toDigits_eq_cons hn
    rw [heq] at hdigits ⊢
    exact .numeral (hdigits c (by simp)) hc fun d hd => hdigits d (by simp [hd])

theorem Writes.integer (n : Nat) :
    Writes .primary (String.ofList (Nat.toDigits 10 n)) (.num (Binary64.ofNat n)) := by
  refine ⟨[⟨.int, String.ofList (Nat.toDigits 10 n), 0⟩], ?_, ?_⟩
  · exact .integer rfl (Parse.numeralValue?_toDigits n)
  · exact .lexeme (by rw [String.toList_ofList]; exact isLexeme_toDigits n)

/-- A literal is written as an integer, or as a word if it is infinite. -/
theorem Writes.num {x : Float} (h : isLiteral x = true) :
    Writes .primary (Number.literal x) (Expr.num x).nameInfinity := by
  unfold isLiteral at h
  split at h
  · rename_i w hshape
    have htext : Number.literal x = String.ofList (Nat.toDigits 10 (Number.whole w)) := by
      simp [Number.literal, Number.literalChars, hshape, h, Number.sign]
    have htree : (Expr.num x).nameInfinity = .num (Binary64.ofNat (Number.whole w)) := by
      rw [Binary64.ofNat_whole hshape h]
      simp only [Expr.nameInfinity, hshape]
    rw [htext, htree]
    exact .integer _
  · rename_i hshape
    have htext : Number.literal x = "inf" := by
      simp only [Number.literal, Number.literalChars, Number.tracedChars, hshape]
      decide
    have htree : (Expr.num x).nameInfinity = .var "inf" := by
      simp only [Expr.nameInfinity, hshape]
    rw [htext, htree]
    exact .var (by decide)
  · cases h

theorem Writes.neg {text : String} {e : Expr} (h : Writes .unary text e) :
    Writes .unary ("-" ++ text) (.neg e) := by
  obtain ⟨tokens, hderives, hspelled⟩ := h
  refine ⟨markToken .minus '-' :: tokens, .negative (markToken_kind _ _) hderives, ?_⟩
  rw [String.toList_append]
  exact .mark .minus '-' rfl hspelled

/-- Both levels of operators, since brackets stand around every operation. -/
theorem derives_operation (mark : Token) {op : Operator} {left right : Expr}
    {leftTokens rightTokens : List Token}
    (hmark : Parse.additive? mark.kind = some op ∨ Parse.multiplicative? mark.kind = some op)
    (hleft : Parse.Derives .unary leftTokens left)
    (hright : Parse.Derives .unary rightTokens right) :
    Parse.Derives .addition (leftTokens ++ mark :: rightTokens) (.bin op left right) := by
  let link : Parse.Link := ⟨mark, rightTokens, right⟩
  rcases hmark with hmark | hmark
  · have hfold : Parse.foldChain? Parse.additive? left [link] = some (.bin op left right) := by
      simp only [Parse.foldChain?, link, hmark]
    have h := Parse.Derives.addition hleft.toMultiply (by simpa [link] using hright.toMultiply)
      hfold
    simpa [Parse.Link.written, link] using h
  · have hfold :
        Parse.foldChain? Parse.multiplicative? left [link] = some (.bin op left right) := by
      simp only [Parse.foldChain?, link, hmark]
    have h := Parse.Derives.multiply hleft (by simpa [link] using hright) hfold
    simpa [Parse.Link.written, link] using h.toAddition

theorem exists_mark_of_operator (op : Operator) :
    ∃ c kind, op.symbol.toList = [c] ∧ punctuation? c = some kind ∧
      (Parse.additive? kind = some op ∨ Parse.multiplicative? kind = some op) := by
  cases op with
  | add => exact ⟨'+', .plus, rfl, rfl, .inl rfl⟩
  | sub => exact ⟨'-', .minus, rfl, rfl, .inl rfl⟩
  | mul => exact ⟨'*', .star, rfl, rfl, .inr rfl⟩
  | div => exact ⟨'/', .slash, rfl, rfl, .inr rfl⟩

theorem stops_cons {c : Char} {cs : List Char} (h : Scan.isNumberPart c = false) :
    Stops (c :: cs) := by
  intro d hd
  cases hd
  exact h

theorem Writes.bin {op : Operator} {leftText rightText : String} {left right : Expr}
    (hleft : Writes .unary leftText left) (hright : Writes .unary rightText right) :
    Writes .primary ("(" ++ leftText ++ " " ++ op.symbol ++ " " ++ rightText ++ ")")
      (.bin op left right) := by
  obtain ⟨leftTokens, hleft, hspelledLeft⟩ := hleft
  obtain ⟨rightTokens, hright, hspelledRight⟩ := hright
  obtain ⟨c, kind, hsymbol, hc, hkind⟩ := exists_mark_of_operator op
  refine ⟨_, .bracketed (markToken_kind .lparen '(')
    (derives_operation (markToken kind c) hkind hleft hright) (markToken_kind .rparen ')'), ?_⟩
  have hclosed := hspelledRight.append (.mark .rparen ')' rfl .nil) (stops_cons (by decide))
  have hspelled := Spelled.mark .lparen '(' rfl
    (hspelledLeft.append (.blank (.mark kind c hc (.blank hclosed))) (stops_cons (by decide)))
  simpa [hsymbol] using hspelled

theorem exists_links_of_writes {rest : List Expr} :
    ∀ {e : Expr}, (∀ arg ∈ e :: rest, Writes .unary arg.text arg.nameInfinity) →
      ∃ (tokens : List Token) (links : List Parse.Link),
        Parse.Derives .addition tokens e.nameInfinity ∧
        (∀ l ∈ links, Parse.Derives .addition l.tokens l.tree ∧ l.mark.kind = .comma) ∧
        links.map Parse.Link.tree = rest.map Expr.nameInfinity ∧
        Spelled (Expr.textAll (e :: rest)).toList (tokens ++ links.flatMap Parse.Link.written) := by
  induction rest with
  | nil =>
    intro e h
    obtain ⟨tokens, hderives, hspelled⟩ := h e (by simp)
    refine ⟨tokens, [], hderives.toMultiply.toAddition, by simp, rfl, ?_⟩
    simpa [Expr.textAll] using hspelled
  | cons e' rest ih =>
    intro e h
    obtain ⟨tokens, hderives, hspelled⟩ := h e (by simp)
    obtain ⟨tokens', links, hderives', hlinks, htrees, hspelled'⟩ :=
      ih fun arg harg => h arg (List.mem_cons_of_mem _ harg)
    let link : Parse.Link := ⟨markToken .comma ',', tokens', e'.nameInfinity⟩
    refine ⟨tokens, link :: links, hderives.toMultiply.toAddition, ?_, ?_, ?_⟩
    · intro l hl
      rcases List.mem_cons.mp hl with rfl | hmem
      · exact ⟨hderives', markToken_kind _ _⟩
      · exact hlinks l hmem
    · rw [List.map_cons, List.map_cons, htrees]
    · have hall :=
        hspelled.append (.mark .comma ',' rfl (.blank hspelled')) (stops_cons (by decide))
      simpa [Expr.textAll, Parse.Link.written, link] using hall

theorem Writes.call {function : String} {args : List Expr} (hfunction : isName function = true)
    (hargs : ∀ arg ∈ args, Writes .unary arg.text arg.nameInfinity) :
    Writes .primary (function ++ "(" ++ Expr.textAll args ++ ")")
      (.call function (args.map Expr.nameInfinity)) := by
  have hname := Spelled.name hfunction
  cases args with
  | nil =>
    refine ⟨_, .called (.emptyCall (nameToken_kind function) (markToken_kind .lparen '(')
      (markToken_kind .rparen ')')), ?_⟩
    have hspelled := hname.append (.mark .lparen '(' rfl (.mark .rparen ')' rfl .nil))
      (stops_cons (by decide))
    simpa [Expr.textAll] using hspelled
  | cons e rest =>
    obtain ⟨tokens, links, hderives, hlinks, htrees, hspelled⟩ := exists_links_of_writes hargs
    have hclosed := hspelled.append (.mark .rparen ')' rfl .nil) (stops_cons (by decide))
    have hall := hname.append (.mark .lparen '(' rfl hclosed) (stops_cons (by decide))
    have hcomma : ∀ tok ∈ (none : Option Token), tok.kind = .comma := by simp
    rw [List.map_cons, ← htrees]
    refine ⟨_, .called (.call (nameToken_kind function) (markToken_kind .lparen '(') hderives
      (fun l hl => (hlinks l hl).1) (fun l hl => (hlinks l hl).2) hcomma
      (markToken_kind .rparen ')')), ?_⟩
    simpa using hall

/-- What follows the names of a declaration. -/
theorem Spelled.binding {value next : List Char} {valueTokens nextTokens : List Token}
    (hvalue : Spelled value valueTokens) (hnext : Spelled next nextTokens) :
    Spelled (' ' :: '=' :: ' ' :: (value ++ ';' :: ' ' :: next))
      (markToken .equals '=' :: (valueTokens ++ markToken .semicolon ';' :: nextTokens)) := by
  have hrest := hvalue.append (.mark .semicolon ';' rfl (.blank hnext)) (stops_cons (by decide))
  exact .blank (.mark .equals '=' rfl (.blank hrest))

theorem Spelled.names {params : List String} :
    ∀ {name : String}, (∀ param ∈ name :: params, isName param = true) →
      Spelled (" ".intercalate (name :: params)).toList ((name :: params).map nameToken) := by
  induction params with
  | nil =>
    intro name h
    simpa using Spelled.name (h name (by simp))
  | cons param params ih =>
    intro name h
    have hrest := ih fun param' hparam' => h param' (List.mem_cons_of_mem _ hparam')
    have hall := (Spelled.name (h name (by simp))).append (.blank hrest) (stops_cons (by decide))
    rw [String.intercalate_cons_cons]
    simpa using hall

theorem isLexeme_let : IsLexeme .letWord "let".toList := by
  show IsLexeme (wordKind (String.ofList ['l', 'e', 't'])) ['l', 'e', 't']
  exact .word (by decide) (List.all_eq_true.mp (by decide))

theorem isLexeme_fn : IsLexeme .fnWord "fn".toList := by
  show IsLexeme (wordKind (String.ofList ['f', 'n'])) ['f', 'n']
  exact .word (by decide) (List.all_eq_true.mp (by decide))

theorem Writes.letIn {name valueText nextText : String} {value next : Expr}
    (hname : isName name = true) (hvalue : Writes .unary valueText value)
    (hnext : Writes .declaration nextText next) :
    Writes .declaration ("let " ++ name ++ " = " ++ valueText ++ "; " ++ nextText)
      (.letIn name value next) := by
  obtain ⟨valueTokens, hvalue, hspelledValue⟩ := hvalue
  obtain ⟨nextTokens, hnext, hspelledNext⟩ := hnext
  have hrest := (Spelled.name hname).append (hspelledValue.binding hspelledNext)
    (stops_cons (by decide))
  have hall := (Spelled.lexeme isLexeme_let).append (.blank hrest) (stops_cons (by decide))
  refine ⟨⟨.letWord, "let", 0⟩ :: nameToken name :: markToken .equals '=' ::
    (valueTokens ++ markToken .semicolon ';' :: nextTokens), ?_, ?_⟩
  · exact .letIn rfl rfl rfl hvalue.toMultiply.toAddition rfl hnext
  · simpa using hall

theorem Writes.fnIn {name bodyText nextText : String} {params : List String} {body next : Expr}
    (hnames : ∀ param ∈ name :: params, isName param = true) (hbody : Writes .unary bodyText body)
    (hnext : Writes .declaration nextText next) :
    Writes .declaration
      ("fn " ++ " ".intercalate (name :: params) ++ " = " ++ bodyText ++ "; " ++ nextText)
      (.fnIn name params body next) := by
  obtain ⟨bodyTokens, hbody, hspelledBody⟩ := hbody
  obtain ⟨nextTokens, hnext, hspelledNext⟩ := hnext
  have hrest := (Spelled.names hnames).append (hspelledBody.binding hspelledNext)
    (stops_cons (by decide))
  have hall := (Spelled.lexeme isLexeme_fn).append (.blank hrest) (stops_cons (by decide))
  have hparams : ∀ tok ∈ params.map nameToken, tok.kind = .ident := by
    intro tok htok
    obtain ⟨param, -, rfl⟩ := List.mem_map.mp htok
    rfl
  have hword : (Token.mk .fnWord "fn" 0).kind = .fnWord := rfl
  have hderives := Parse.Derives.fnIn hword (nameToken_kind name) hparams
    (markToken_kind .equals '=') hbody.toMultiply.toAddition (markToken_kind .semicolon ';') hnext
  have htexts : (params.map nameToken).map Token.text = params := by
    rw [List.map_map]
    exact List.map_id params
  rw [htexts] at hderives
  exact ⟨_, hderives, by simpa using hall⟩

/-! ### Printed trees -/

/-- **The text of an expression spells what the grammar reads as that expression.** -/
theorem Expr.IsPlain.writes {e : Expr} (h : e.IsPlain) : Writes .unary e.text e.nameInfinity := by
  induction h with
  | num hx => exact .primary (.num hx)
  | var hname => exact .primary (.var hname)
  | neg _ ih => exact .neg ih
  | bin _ _ ihleft ihright => exact .primary (.bin ihleft ihright)
  | call hfunction _ ih =>
    rw [Expr.nameInfinity, Expr.nameInfinityAll_eq_map]
    exact .primary (.call hfunction ih)

theorem Expr.IsProgram.writes {e : Expr} (h : e.IsProgram) :
    Writes .declaration e.text e.nameInfinity := by
  induction h with
  | letIn hname hvalue _ ih => exact .letIn hname hvalue.writes ih
  | fnIn hname hparams hbody _ ih =>
    exact .fnIn (by simpa using ⟨hname, hparams⟩) hbody.writes ih
  | plain h =>
    obtain ⟨tokens, hderives, hspelled⟩ := h.writes
    exact ⟨tokens, .plain hderives.toMultiply.toAddition, hspelled⟩

/-- A source that spells what the grammar derives is read as the tree of the derivation. -/
theorem parse_of_spells {source : String} {tokens : List Token} {e : Expr}
    (hspells : Spells source.toList (tokens.map Token.lexeme))
    (hderives : Parse.Derives .declaration tokens e)
    (hnests : Parse.SourceNestsBelow Parse.maxNesting source) : Parse.parse source = .ok e := by
  obtain ⟨body, hpieces, hlexemes⟩ := hspells.exists_pieces 0
  have htokens := Scan.tokenize_of_pieces hpieces
  have hbody : Parse.Derives .declaration body e := hderives.relocate hlexemes
  have htree := Parse.readTokens_of_derives (Parse.ended_of_tokenize htokens)
    (hnests _ htokens) (by rwa [List.dropLast_concat])
  simp only [Parse.parse, Parse.read, htokens, htree]

section FiniteLiterals

/-- A literal that is read as itself. -/
def IsFinite (x : Float) : Prop :=
  ∃ negative word, shape x = .finite negative word

mutual

theorem Expr.nameInfinity_eq_self : ∀ e : Expr, (∀ x ∈ e.literals, IsFinite x) → e.nameInfinity = e
  | .num x, h => by
    obtain ⟨negative, word, hshape⟩ := h x (by simp [Expr.literals])
    simp only [Expr.nameInfinity, hshape]
  | .var _, _ => rfl
  | .neg operand, h => by
    rw [Expr.nameInfinity, Expr.nameInfinity_eq_self operand h]
  | .bin _ left right, h => by
    simp only [Expr.literals, List.mem_append] at h
    rw [Expr.nameInfinity, Expr.nameInfinity_eq_self left fun x hx => h x (.inl hx),
      Expr.nameInfinity_eq_self right fun x hx => h x (.inr hx)]
  | .call _ args, h => by
    rw [Expr.nameInfinity, Expr.nameInfinityAll_eq_self args h]
  | .letIn _ value next, h => by
    simp only [Expr.literals, List.mem_append] at h
    rw [Expr.nameInfinity, Expr.nameInfinity_eq_self value fun x hx => h x (.inl hx),
      Expr.nameInfinity_eq_self next fun x hx => h x (.inr hx)]
  | .fnIn _ _ body next, h => by
    simp only [Expr.literals, List.mem_append] at h
    rw [Expr.nameInfinity, Expr.nameInfinity_eq_self body fun x hx => h x (.inl hx),
      Expr.nameInfinity_eq_self next fun x hx => h x (.inr hx)]

theorem Expr.nameInfinityAll_eq_self :
    ∀ es : List Expr, (∀ x ∈ Expr.literalsAll es, IsFinite x) → Expr.nameInfinityAll es = es
  | [], _ => rfl
  | e :: rest, h => by
    simp only [Expr.literalsAll, List.mem_append] at h
    rw [Expr.nameInfinityAll, Expr.nameInfinity_eq_self e fun x hx => h x (.inl hx),
      Expr.nameInfinityAll_eq_self rest fun x hx => h x (.inr hx)]

end

end FiniteLiterals

/-- **Reading undoes printing.**  The text of a tree that the grammar can produce is read as
    that tree, infinite literals by their name; so a tree whose literals are all finite comes
    back as it is. -/
theorem parse_text {e : Expr} (hform : e.IsProgram)
    (hnests : Parse.SourceNestsBelow Parse.maxNesting e.text) :
    Parse.parse e.text = .ok e.nameInfinity ∧
      ((∀ x ∈ e.literals, IsFinite x) → Parse.parse e.text = .ok e) := by
  obtain ⟨tokens, hderives, hspelled⟩ := hform.writes
  have hspells : Spells e.text.toList (tokens.map Token.lexeme) := by
    simpa using hspelled [] [] .nil (by simp [Stops])
  have hparse := parse_of_spells hspells hderives hnests
  refine ⟨hparse, fun hfinite => ?_⟩
  rwa [e.nameInfinity_eq_self hfinite] at hparse

/-- `let x = 9007199254740994; fn f a b = (--a - inf); f(x, (0 / x))`, with `inf` a literal. -/
def printedSample : Expr :=
  .letIn "x" (.num (Binary64.ofNat 9007199254740994))
    (.fnIn "f" ["a", "b"] (.bin .sub (.neg (.neg (.var "a"))) (.num Binary64.infinity))
      (.call "f" [.var "x", .bin .div (.num (Binary64.ofNat 0)) (.var "x")]))

theorem isProgram_printedSample : printedSample.IsProgram := by
  refine .letIn (by decide) (.num (by decide +kernel)) ?_
  refine .fnIn (by decide) (by decide) ?_ (.plain ?_)
  · exact .bin (.neg (.neg (.var (by decide)))) (.num (by decide +kernel))
  · refine .call (by decide) fun arg harg => ?_
    simp only [List.mem_cons, List.not_mem_nil, or_false] at harg
    rcases harg with rfl | rfl
    · exact .var (by decide)
    · exact .bin (.num (by decide +kernel)) (.var (by decide))

theorem parse_printedSample :
    printedSample.IsProgram ∧ Parse.SourceNestsBelow Parse.maxNesting printedSample.text ∧
      Parse.parse printedSample.text = .ok printedSample.nameInfinity ∧
      printedSample.nameInfinity ≠ printedSample := by
  have hnests : Parse.SourceNestsBelow Parse.maxNesting printedSample.text :=
    Parse.sourceNestsBelow_of_length (by decide +kernel)
  have hparse := (parse_text isProgram_printedSample hnests).1
  exact ⟨isProgram_printedSample, hnests, hparse, by decide +kernel⟩

end Abacus
