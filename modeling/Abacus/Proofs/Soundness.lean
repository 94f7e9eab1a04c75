/-
  Abacus/Proofs/Soundness.lean
  ============================
  **What the reader accepts is derived, and where it stops the input could go on.**  Every
  rule is described by the tokens it used up.  If it gives a tree, its symbol derives these
  tokens with that tree.  If it meets a problem, some derivation of its symbol starts with
  these tokens, the problem is about the current token, and a lack of room comes only after
  as many levels as there was room for.

  `Meets` says this of one outcome.  The rules are sequences of steps, so `Meets.bind`
  carries most of the work: each rule is settled by naming what its steps use up.  All of
  it holds for tokens that end in their only end token, which `Ended` describes.
-/
import Abacus.Parse
import Abacus.Proofs.Grammar

namespace Abacus.Parse

/-! ### Tokens up to the end -/

/-- Tokens that end in their only end token. -/
inductive Ended : List Token → Prop where
  | eof {tok : Token} (h : tok.kind = .eof) : Ended [tok]
  | cons {tok : Token} {rest : List Token} (h : tok.kind ≠ .eof) (hrest : Ended rest) :
      Ended (tok :: rest)

theorem Ended.ne_nil {tokens : List Token} (h : Ended tokens) : tokens ≠ [] := by
  cases h <;> simp

theorem Ended.exists_cons {tokens : List Token} (h : Ended tokens) :
    ∃ tok rest, tokens = tok :: rest := by
  cases h with
  | eof => exact ⟨_, _, rfl⟩
  | cons => exact ⟨_, _, rfl⟩

theorem Ended.tail {tok : Token} {rest : List Token} (h : Ended (tok :: rest))
    (htok : tok.kind ≠ .eof) : Ended rest := by
  cases h with
  | eof heof => exact absurd heof htok
  | cons _ hrest => exact hrest

theorem Ended.eq_nil {tok : Token} {rest : List Token} (h : Ended (tok :: rest))
    (htok : tok.kind = .eof) : rest = [] := by
  cases h with
  | eof => rfl
  | cons hne _ => exact absurd htok hne

theorem Ended.append {body : List Token} {stop : Token} (hbody : ∀ tok ∈ body, tok.kind ≠ .eof)
    (hstop : stop.kind = .eof) : Ended (body ++ [stop]) := by
  induction body with
  | nil => exact Ended.eof hstop
  | cons tok body ih =>
    exact Ended.cons (hbody tok (by simp)) (ih fun tok' htok' => hbody tok' (by simp [htok']))

theorem Ended.suffix {used : List Token} {tok : Token} {tail : List Token}
    (h : Ended (used ++ tok :: tail)) : Ended (tok :: tail) := by
  induction used with
  | nil => exact h
  | cons first used ih =>
    have hfirst : first.kind ≠ .eof := by
      intro heof
      have hnil := Ended.eq_nil h heof
      simp at hnil
    exact ih (Ended.tail h hfirst)

/-! ### Problems and their tokens -/

/-- Whether the reader gave up for lack of room. -/
def isTooDeep : Problem → Bool
  | .tooDeep _ => true
  | _ => false

/-- A problem that a token gave rise to; input that ends inside brackets, by the end
    token. -/
def IsAbout (tok : Token) : Problem → Prop
  | .malformedNumber .. | .strayCharacter .. => False
  | .unclosed _ stop => stop = tok ∧ tok.kind = .eof
  | .expected _ found | .reserved found | .notClosing _ found | .noExpression found
  | .leftover found | .tooDeep found => found = tok

/-! ### Outcomes -/

/-- What a rule made of the tokens `ahead`, in terms of those it used up: `good` holds of
    them and the value, or `stuck` holds of them and the problem, which is about the
    current token.  Only an integer that is no numeral leads to a fault. -/
def Meets {α : Type} (ahead : List Token) (good : List Token → α → Prop)
    (stuck : List Token → Problem → Prop) : Except Stop (α × List Token) → Prop
  | .ok (value, rest) => ∃ used, ahead = used ++ rest ∧ Ended rest ∧ good used value
  | .error (.problem p rest) =>
    ∃ used tok tail, rest = tok :: tail ∧ ahead = used ++ rest ∧ Ended rest ∧ IsAbout tok p ∧
      stuck used p
  | .error (.fault _) => ∃ tok ∈ ahead, ¬ (tok.kind = .int → (numeralValue? tok.text).isSome)

section Meets

variable {α β : Type} {ahead : List Token}

theorem Meets.pure {good : List Token → α → Prop} {stuck : List Token → Problem → Prop}
    {value : α} (hahead : Ended ahead) (h : good [] value) :
    Meets ahead good stuck (.ok (value, ahead)) :=
  ⟨[], rfl, hahead, h⟩

theorem Meets.refuse {good : List Token → α → Prop} {stuck : List Token → Problem → Prop}
    {tok : Token} {rest : List Token} {p : Problem} (hahead : Ended (tok :: rest))
    (hp : IsAbout tok p) (h : stuck [] p) :
    Meets (tok :: rest) good stuck (.error (.problem p (tok :: rest))) :=
  ⟨[], tok, rest, rfl, rfl, hahead, hp, h⟩

theorem Meets.cons {good : List Token → α → Prop} {stuck : List Token → Problem → Prop}
    {x : Except Stop (α × List Token)} (tok : Token)
    (h : Meets ahead (fun used value => good (tok :: used) value)
      (fun used p => stuck (tok :: used) p) x) :
    Meets (tok :: ahead) good stuck x := by
  match x, h with
  | .ok (value, rest), ⟨used, hused, hrest, hgood⟩ =>
    exact ⟨tok :: used, by rw [hused]; rfl, hrest, hgood⟩
  | .error (.problem p rest), ⟨used, tok', tail, htail, hused, hrest, hp, hstuck⟩ =>
    exact ⟨tok :: used, tok', tail, htail, by rw [hused]; rfl, hrest, hp, hstuck⟩
  | .error (.fault f), ⟨tok', hmem, htok'⟩ => exact ⟨tok', List.mem_cons_of_mem _ hmem, htok'⟩

/-- **Steps one after the other.**  What the second step uses up is added to what the
    first one did. -/
theorem Meets.bind {x : Except Stop (α × List Token)}
    {f : α × List Token → Except Stop (β × List Token)} {good₁ : List Token → α → Prop}
    {stuck₁ : List Token → Problem → Prop} {good : List Token → β → Prop}
    {stuck : List Token → Problem → Prop} (hx : Meets ahead good₁ stuck₁ x)
    (hstuck : ∀ used p, stuck₁ used p → stuck used p)
    (hf : ∀ used value rest, Ended rest → good₁ used value →
      used.length + rest.length = ahead.length →
      Meets rest (fun used' value' => good (used ++ used') value')
        (fun used' p => stuck (used ++ used') p) (f (value, rest))) :
    Meets ahead good stuck (x >>= f) := by
  match x, hx with
  | .error (.problem p rest), ⟨used, tok, tail, htail, hused, hrest, hp, h⟩ =>
    exact ⟨used, tok, tail, htail, hused, hrest, hp, hstuck used p h⟩
  | .error (.fault _), hfault => exact hfault
  | .ok (value, rest), ⟨used, hused, hrest, hgood⟩ =>
    have hnext := hf used value rest hrest hgood (by rw [hused]; simp)
    show Meets ahead good stuck (f (value, rest))
    match f (value, rest), hnext with
    | .ok (value', rest'), ⟨used', hused', hrest', hgood'⟩ =>
      exact ⟨used ++ used', by rw [hused, hused', List.append_assoc], hrest', hgood'⟩
    | .error (.problem p rest'), ⟨used', tok, tail, htail, hused', hrest', hp, hstuck'⟩ =>
      exact ⟨used ++ used', tok, tail, htail, by rw [hused, hused', List.append_assoc], hrest', hp,
        hstuck'⟩
    | .error (.fault f), ⟨tok, hmem, htok⟩ =>
      exact ⟨tok, by rw [hused]; exact List.mem_append_right _ hmem, htok⟩

end Meets

/-! ### Steps -/

@[simp]
theorem advance_cons {tok : Token} {rest : List Token} (h : rest ≠ []) :
    advance (tok :: rest) = .ok (tok, rest) := by
  cases rest with
  | nil => exact absurd rfl h
  | cons => rfl

@[simp]
theorem peek_one (tok next : Token) (rest : List Token) : peek 1 (tok :: next :: rest) = .ok next :=
  rfl

theorem expect_cons {kind : Kind} {what : String} {tok : Token} {rest : List Token}
    (htok : tok.kind = kind) (hrest : rest ≠ []) :
    expect kind what (tok :: rest) = .ok (tok, rest) := by
  simp only [expect, current, if_pos htok, advance_cons hrest]

theorem expectName_cons {what : String} {name : Token} {rest : List Token}
    (hname : name.kind = .ident) (hrest : rest ≠ []) :
    expectName what (name :: rest) = .ok (name, rest) := by
  have hword : ¬ name.kind.isReserved = true := by
    rw [hname]
    decide
  simp only [expectName, current, if_neg hword, expect_cons hname hrest]

theorem expectClose_cons {opening closing : Token} {rest : List Token}
    (hclosing : closing.kind = .rparen) (hrest : rest ≠ []) :
    expectClose opening (closing :: rest) = .ok (closing, rest) := by
  simp only [expectClose, current, hclosing, advance_cons hrest]

/-- A step that refuses the current token, and not for lack of room. -/
def Refused (used : List Token) (p : Problem) : Prop :=
  used = [] ∧ isTooDeep p = false

theorem expect_meets (kind : Kind) (what : String) {ahead : List Token} (hkind : kind ≠ .eof)
    (hahead : Ended ahead) :
    Meets ahead (fun used tok => used = [tok] ∧ tok.kind = kind) Refused
      (expect kind what ahead) := by
  obtain ⟨tok, rest, rfl⟩ := hahead.exists_cons
  by_cases htok : tok.kind = kind
  · have hrest := hahead.tail (by rw [htok]; exact hkind)
    rw [expect_cons htok hrest.ne_nil]
    exact ⟨[tok], rfl, hrest, rfl, htok⟩
  · simp only [expect, current, if_neg htok]
    exact Meets.refuse hahead rfl ⟨rfl, rfl⟩

theorem expectName_meets (what : String) {ahead : List Token} (hahead : Ended ahead) :
    Meets ahead (fun used tok => used = [tok] ∧ tok.kind = .ident) Refused
      (expectName what ahead) := by
  have hname := expect_meets .ident what (by decide) hahead
  obtain ⟨tok, rest, rfl⟩ := hahead.exists_cons
  simp only [expectName, current]
  by_cases htok : tok.kind.isReserved = true
  · rw [if_pos htok]
    exact Meets.refuse hahead rfl ⟨rfl, rfl⟩
  · rw [if_neg htok]
    exact hname

theorem expectClose_meets (opening : Token) {ahead : List Token} (hahead : Ended ahead) :
    Meets ahead (fun used tok => used = [tok] ∧ tok.kind = .rparen) Refused
      (expectClose opening ahead) := by
  obtain ⟨tok, rest, rfl⟩ := hahead.exists_cons
  simp only [expectClose, current]
  split
  · rename_i htok
    have hrest := hahead.tail (by rw [htok]; decide)
    rw [advance_cons hrest.ne_nil]
    exact ⟨[tok], rfl, hrest, rfl, htok⟩
  · rename_i htok
    exact Meets.refuse hahead ⟨rfl, htok⟩ ⟨rfl, rfl⟩
  · exact Meets.refuse hahead rfl ⟨rfl, rfl⟩

/-! ### Lack of room -/

/-- Tokens that open as many levels as there is room for. -/
def Deep (room : Nat) (used : List Token) : Prop :=
  ∀ n, n + room ≤ openBrackets n used + declarationCount used

theorem Deep.after {room : Nat} {front back : List Token} (h : Deep room back)
    (hfront : Balanced front) : Deep room (front ++ back) := by
  intro n
  rw [openBrackets_append, hfront.1, declarationCount_append, hfront.2, Nat.zero_add]
  exact h n

theorem Deep.bracket {room : Nat} {opening : Token} {used : List Token} (h : Deep room used)
    (hopening : opening.kind = .lparen) : Deep (room + 1) (opening :: used) := by
  intro n
  have hused := h (n + 1)
  have hcount : declarationCount (opening :: used) = declarationCount used :=
    List.countP_cons_of_neg (by simp [hopening, Kind.isReserved])
  rw [openBrackets_cons, hopening, hcount]
  simp only [bracketsAfter]
  omega

theorem Deep.declaration {room : Nat} {word : Token} {used : List Token} (h : Deep room used)
    (hword : word.kind.isReserved = true) : Deep (room + 1) (word :: used) := by
  intro n
  have hused := h n
  have hcount : declarationCount (word :: used) = declarationCount used + 1 :=
    List.countP_cons_of_pos (by simp [hword])
  have hkind : bracketsAfter n word.kind = n := by
    cases hk : word.kind <;> simp_all [Kind.isReserved, bracketsAfter]
  rw [openBrackets_cons, hkind, hcount]
  omega

/-- A rule that stopped at a problem: what it used up can be completed, and if it stopped
    for lack of room, as many levels are open as there was room for. -/
structure Stuck (viable : List Token → Prop) (room : Nat) (used : List Token) (p : Problem) :
    Prop where
  viable : viable used
  deep : isTooDeep p = true → Deep room used

theorem Stuck.refused {viable : List Token → Prop} {room : Nat} {used : List Token} {p : Problem}
    (hp : isTooDeep p = false) (h : viable used) : Stuck viable room used p :=
  ⟨h, fun hdeep => by rw [hp] at hdeep; cases hdeep⟩

theorem Stuck.after {viable viable' : List Token → Prop} {room : Nat} {front used : List Token}
    {p : Problem} (h : Stuck viable room used p) (hfront : Balanced front)
    (hviable : viable used → viable' (front ++ used)) : Stuck viable' room (front ++ used) p :=
  ⟨hviable h.viable, fun hp => (h.deep hp).after hfront⟩

/-- A rule that reads what the symbol `s` derives, with room for so many levels. -/
def Reads (s : Symbol) (room : Nat) (rule : Rule Expr) : Prop :=
  ∀ ahead, Ended ahead → Meets ahead (Derives s) (Stuck (Viable s) room) (rule ahead)

/-! ### Completions -/

/-- The numeral zero, which completes an expression. -/
def zeroToken : Token := ⟨.int, "0", 0⟩

/-- The bracket that completes an open one. -/
def closeToken : Token := ⟨.rparen, ")", 0⟩

theorem closeToken_kind : closeToken.kind = .rparen :=
  rfl

/-- The mark that completes a declaration before its last expression. -/
def semicolonToken : Token := ⟨.semicolon, ";", 0⟩

theorem semicolonToken_kind : semicolonToken.kind = .semicolon :=
  rfl

theorem derives_zero : Derives .primary [zeroToken] (.num (Binary64.ofNat 0)) :=
  .integer rfl (by decide)

theorem Derives.toMultiply {tokens : List Token} {e : Expr} (h : Derives .unary tokens e) :
    Derives .multiply tokens e := by
  have hnone : ∀ l ∈ ([] : List Link), Derives .unary l.tokens l.tree := by simp
  have hchain := Derives.multiply h hnone rfl
  rwa [List.flatMap_nil, List.append_nil] at hchain

theorem Derives.toAddition {tokens : List Token} {e : Expr} (h : Derives .multiply tokens e) :
    Derives .addition tokens e := by
  have hnone : ∀ l ∈ ([] : List Link), Derives .multiply l.tokens l.tree := by simp
  have hchain := Derives.addition h hnone rfl
  rwa [List.flatMap_nil, List.append_nil] at hchain

theorem viable_primary_nil : Viable .primary [] :=
  ⟨_, _, derives_zero⟩

theorem viable_addition_nil : Viable .addition [] :=
  ⟨_, _, derives_zero.unsigned.toMultiply.toAddition⟩

/-! ### Primaries -/

section Expressions

variable {inner : Rule Expr} {room : Nat}

theorem bracketed_meets (hinner : Reads .addition room inner) {opening : Token}
    {rest : List Token} (hahead : Ended (opening :: rest)) (hopening : opening.kind = .lparen) :
    Meets (opening :: rest) (Derives .primary) (Stuck (Viable .primary) (room + 1))
      (bracketed inner (opening :: rest)) := by
  have hrest := hahead.tail (by rw [hopening]; decide)
  simp only [bracketed, enter_bind, liftM_eq, advance_cons hrest.ne_nil, ok_bind]
  refine Meets.cons opening (Meets.bind (hinner rest hrest) ?_ ?_)
  · rintro used p ⟨⟨suffix, e, hderives⟩, hdeep⟩
    refine ⟨⟨suffix ++ [closeToken], e, ?_⟩, fun hp => (hdeep hp).bracket hopening⟩
    simpa using Derives.bracketed hopening hderives closeToken_kind
  · intro used e rest' hrest' hderives _
    refine Meets.bind (expectClose_meets opening hrest') ?_ ?_
    · rintro _ p ⟨rfl, hp⟩
      refine Stuck.refused hp ⟨[closeToken], e, ?_⟩
      simpa using Derives.bracketed hopening hderives closeToken_kind
    · rintro _ closing rest'' hrest'' ⟨rfl, hclosing⟩ _
      exact Meets.pure hrest'' (by simpa using Derives.bracketed hopening hderives hclosing)

theorem literal_meets {tok : Token} {rest : List Token} (hahead : Ended (tok :: rest))
    (htok : tok.kind = .int) :
    Meets (tok :: rest) (Derives .primary) (Stuck (Viable .primary) (room + 1))
      (literal (tok :: rest)) := by
  have hrest := hahead.tail (by rw [htok]; decide)
  simp only [literal, enter_bind, liftM_eq, advance_cons hrest.ne_nil, ok_bind]
  rcases hvalue : numeralValue? tok.text with _ | n
  · exact ⟨tok, by simp, by simp [htok, hvalue]⟩
  · exact Meets.cons tok (Meets.pure hrest (Derives.integer htok hvalue))

/-- What may stand between the brackets of a call, in the order it is read. -/
inductive Arguments : List Token → List Expr → Prop where
  | none : Arguments [] []
  | last {tokens : List Token} {e : Expr} (h : Derives .addition tokens e) : Arguments tokens [e]
  | more {tokens rest : List Token} {comma : Token} {e : Expr} {args : List Expr}
      (h : Derives .addition tokens e) (hcomma : comma.kind = .comma)
      (hrest : Arguments rest args) : Arguments (tokens ++ comma :: rest) (e :: args)

/-- Arguments are a first one, links that start with commas, and perhaps one more comma. -/
theorem Arguments.exists_links {tokens : List Token} {args : List Expr}
    (h : Arguments tokens args) :
    (tokens = [] ∧ args = []) ∨
      ∃ (firstTokens : List Token) (first : Expr) (links : List Link) (comma : Option Token),
        tokens = firstTokens ++ (links.flatMap Link.written ++ comma.toList) ∧
        args = first :: links.map Link.tree ∧ Derives .addition firstTokens first ∧
        (∀ l ∈ links, Derives .addition l.tokens l.tree) ∧ (∀ l ∈ links, l.mark.kind = .comma) ∧
        ∀ tok ∈ comma, tok.kind = .comma := by
  induction h with
  | none => exact .inl ⟨rfl, rfl⟩
  | @last tokens e h =>
    exact .inr ⟨tokens, e, [], Option.none, by simp, rfl, h, by simp, by simp, by simp⟩
  | @more tokens rest comma e args h hcomma _ ih =>
    rcases ih with ⟨rfl, rfl⟩ | ⟨tokens', e', links, last, rfl, rfl, h', hlinks, hmarks, hlast⟩
    · refine .inr ⟨tokens, e, [], some comma, by simp, rfl, h, by simp, by simp, ?_⟩
      simpa using hcomma
    · refine .inr ⟨tokens, e, ⟨comma, tokens', e'⟩ :: links, last, by simp [Link.written], by simp,
        h, ?_, ?_, hlast⟩
      · simpa using ⟨h', hlinks⟩
      · simpa using ⟨hcomma, hmarks⟩

theorem Arguments.toCall {tokens : List Token} {args : List Expr} (h : Arguments tokens args)
    {name opening closing : Token} (hname : name.kind = .ident) (hopening : opening.kind = .lparen)
    (hclosing : closing.kind = .rparen) :
    Derives .call (name :: opening :: (tokens ++ [closing])) (.call name.text args) := by
  rcases h.exists_links with
    ⟨rfl, rfl⟩ | ⟨firstTokens, first, links, comma, rfl, rfl, hfirst, hlinks, hmarks, hcomma⟩
  · exact .emptyCall hname hopening hclosing
  · simpa using Derives.call hname hopening hfirst hlinks hmarks hcomma hclosing

/-- Tokens that some arguments start with. -/
def ViableArguments (tokens : List Token) : Prop :=
  ∃ suffix args, Arguments (tokens ++ suffix) args

theorem arguments_meets (hinner : Reads .addition room inner) :
    ∀ {rounds : Nat} {ahead : List Token}, Ended ahead → ahead.length ≤ rounds →
      Meets ahead Arguments (Stuck ViableArguments room) (arguments inner rounds ahead) := by
  intro rounds
  induction rounds with
  | zero =>
    intro ahead hahead hrounds
    exact absurd (List.length_eq_zero_iff.mp (Nat.le_zero.mp hrounds)) hahead.ne_nil
  | succ rounds ih =>
    intro ahead hahead hrounds
    obtain ⟨tok, rest, rfl⟩ := hahead.exists_cons
    simp only [arguments, enter_bind, liftM_eq, current, ok_bind]
    by_cases htok : tok.kind = .rparen
    · rw [if_pos htok]
      exact Meets.pure hahead Arguments.none
    · rw [if_neg htok]
      refine Meets.bind (hinner _ hahead) ?_ ?_
      · rintro used p ⟨⟨suffix, e, h⟩, hdeep⟩
        exact ⟨⟨suffix, [e], .last h⟩, hdeep⟩
      · intro used e rest' hrest' h hlength
        obtain ⟨tok', rest', rfl⟩ := hrest'.exists_cons
        simp only [ok_bind]
        by_cases hcomma : tok'.kind = .comma
        · have hrest'' := hrest'.tail (by rw [hcomma]; decide)
          have hfront : Balanced (used ++ [tok']) := (h.balanced (by decide)).append
            (.of_kind hcomma (by decide) (by decide) (by decide))
          simp only [if_pos hcomma, advance_cons hrest''.ne_nil, ok_bind]
          simp only [List.length_cons] at hrounds hlength
          refine Meets.cons tok' (Meets.bind (ih hrest'' (by omega)) ?_ ?_)
          · intro used' p hstuck
            rw [List.append_cons]
            refine hstuck.after hfront ?_
            rintro ⟨suffix, args, hargs⟩
            exact ⟨suffix, e :: args, by simpa using Arguments.more h hcomma hargs⟩
          · intro used' args rest'' hrest'' hargs _
            exact Meets.pure hrest'' (by simpa using Arguments.more h hcomma hargs)
        · rw [if_neg hcomma]
          exact Meets.pure hrest' (by simpa using Arguments.last h)

theorem call_meets (hinner : Reads .addition room inner) {ahead : List Token}
    (hahead : Ended ahead) :
    Meets ahead (Derives .call) (Stuck (Viable .call) (room + 1)) (call inner ahead) := by
  have hempty : Derives .call [⟨.ident, "f", 0⟩, ⟨.lparen, "(", 0⟩, closeToken] (.call "f" []) :=
    .emptyCall rfl rfl rfl
  simp only [call, enter_bind, liftM_eq, rounds_eq]
  refine Meets.bind (expect_meets .ident "function name" (by decide) hahead) ?_ ?_
  · rintro _ p ⟨rfl, hp⟩
    exact Stuck.refused hp ⟨_, _, hempty⟩
  rintro _ name ahead hahead ⟨rfl, hname⟩ _
  refine Meets.bind (expect_meets .lparen "`(`" (by decide) hahead) ?_ ?_
  · rintro _ p ⟨rfl, hp⟩
    exact Stuck.refused hp ⟨[⟨.lparen, "(", 0⟩, closeToken], _, .emptyCall hname rfl rfl⟩
  rintro _ opening ahead hahead ⟨rfl, hopening⟩ _
  refine Meets.bind (arguments_meets hinner hahead (Nat.le_refl _)) ?_ ?_
  · rintro used p ⟨⟨suffix, args, hargs⟩, hdeep⟩
    refine ⟨⟨suffix ++ [closeToken], .call name.text args, ?_⟩, fun hp => ?_⟩
    · simpa using hargs.toCall hname hopening closeToken_kind
    · have hname' : Balanced [name] := .of_kind hname (by decide) (by decide) (by decide)
      exact ((hdeep hp).bracket hopening).after hname'
  intro used args ahead hahead hargs _
  refine Meets.bind (expectClose_meets opening hahead) ?_ ?_
  · rintro _ p ⟨rfl, hp⟩
    refine Stuck.refused hp ⟨[closeToken], .call name.text args, ?_⟩
    simpa using hargs.toCall hname hopening closeToken_kind
  · rintro _ closing ahead hahead ⟨rfl, hclosing⟩ _
    exact Meets.pure hahead (by simpa using hargs.toCall hname hopening hclosing)

theorem Meets.imp {α : Type} {ahead : List Token} {good good' : List Token → α → Prop}
    {stuck stuck' : List Token → Problem → Prop} {x : Except Stop (α × List Token)}
    (h : Meets ahead good stuck x) (hgood : ∀ used value, good used value → good' used value)
    (hstuck : ∀ used p, stuck used p → stuck' used p) : Meets ahead good' stuck' x := by
  match x, h with
  | .ok (value, rest), ⟨used, hused, hrest, h⟩ => exact ⟨used, hused, hrest, hgood used value h⟩
  | .error (.problem p rest), ⟨used, tok, tail, htail, hused, hrest, hp, h⟩ =>
    exact ⟨used, tok, tail, htail, hused, hrest, hp, hstuck used p h⟩
  | .error (.fault _), h => exact h

theorem named_meets (hinner : Reads .addition room inner) {name : Token} {rest : List Token}
    (hahead : Ended (name :: rest)) (hname : name.kind = .ident) :
    Meets (name :: rest) (Derives .primary) (Stuck (Viable .primary) (room + 1))
      (named inner (name :: rest)) := by
  have hrest := hahead.tail (by rw [hname]; decide)
  obtain ⟨tok, tail, rfl⟩ := hrest.exists_cons
  simp only [named, enter_bind, liftM_eq, peek_one, ok_bind]
  by_cases htok : tok.kind = .lparen
  · rw [if_pos htok]
    refine (call_meets hinner hahead).imp (fun _ _ h => .called h) ?_
    rintro used p ⟨⟨suffix, e, h⟩, hdeep⟩
    exact ⟨⟨suffix, e, .called h⟩, hdeep⟩
  · simp only [if_neg htok, advance_cons hrest.ne_nil, ok_bind]
    exact Meets.cons name (Meets.pure hrest (Derives.var hname))

theorem primary_reads (hinner : Reads .addition room inner) :
    Reads .primary (room + 1) (primary inner) := by
  intro ahead hahead
  obtain ⟨tok, rest, rfl⟩ := hahead.exists_cons
  simp only [primary, enter_bind, liftM_eq, current, ok_bind]
  split
  · exact bracketed_meets hinner hahead ‹_›
  · exact literal_meets hahead ‹_›
  · exact named_meets hinner hahead ‹_›
  all_goals exact Meets.refuse hahead rfl (Stuck.refused rfl viable_primary_nil)

theorem unary_of_minus {tok : Token} {rest : List Token} (htok : tok.kind = .minus)
    (hrest : rest ≠ []) :
    unary inner (tok :: rest) = unary inner rest >>= fun p => .ok (.neg p.1, p.2) := by
  simp only [unary, rounds_eq, List.length_cons, negations, enter_bind, liftM_eq, current, ok_bind,
    if_pos htok, advance_cons hrest]
  rfl

theorem unary_of_ne_minus {tok : Token} {rest : List Token} (htok : tok.kind ≠ .minus) :
    unary inner (tok :: rest) = primary inner (tok :: rest) := by
  simp only [unary, rounds_eq, List.length_cons, negations, enter_bind, liftM_eq, current, ok_bind,
    if_neg htok]

theorem unary_reads (hinner : Reads .addition room inner) :
    Reads .unary (room + 1) (unary inner) := by
  intro ahead hahead
  induction ahead with
  | nil => exact absurd rfl hahead.ne_nil
  | cons tok rest ih =>
    by_cases htok : tok.kind = .minus
    · have hrest := hahead.tail (by rw [htok]; decide)
      have htok' : Balanced [tok] := .of_kind htok (by decide) (by decide) (by decide)
      rw [unary_of_minus htok hrest.ne_nil]
      refine Meets.cons tok (Meets.bind (ih hrest) ?_ ?_)
      · intro used p hstuck
        refine hstuck.after htok' ?_
        rintro ⟨suffix, e, h⟩
        exact ⟨suffix, .neg e, .negative htok h⟩
      · intro used e rest' hrest' h _
        exact Meets.pure hrest' (by simpa using Derives.negative htok h)
    · rw [unary_of_ne_minus htok]
      refine (primary_reads hinner _ hahead).imp (fun _ _ h => .unsigned h) ?_
      rintro used p ⟨⟨suffix, e, h⟩, hdeep⟩
      exact ⟨⟨suffix, e, .unsigned h⟩, hdeep⟩

/-! ### Chains -/

/-- What may follow the first operand of a chain. -/
def Chains (operator? : Kind → Option Operator) (operand : Symbol) (left : Expr)
    (tokens : List Token) (e : Expr) : Prop :=
  ∃ links : List Link, tokens = links.flatMap Link.written ∧
    (∀ l ∈ links, Derives operand l.tokens l.tree) ∧ foldChain? operator? left links = some e

theorem Chains.nil {operator? : Kind → Option Operator} {operand : Symbol} {left : Expr} :
    Chains operator? operand left [] left :=
  ⟨[], rfl, by simp, rfl⟩

theorem Chains.cons {operator? : Kind → Option Operator} {operand : Symbol} {left right e : Expr}
    {mark : Token} {op : Operator} {tokens rest : List Token}
    (hmark : operator? mark.kind = some op) (hright : Derives operand tokens right)
    (h : Chains operator? operand (.bin op left right) rest e) :
    Chains operator? operand left (mark :: (tokens ++ rest)) e := by
  obtain ⟨links, rfl, hlinks, hfold⟩ := h
  refine ⟨⟨mark, tokens, right⟩ :: links, by simp [Link.written], ?_, ?_⟩
  · simpa using ⟨hright, hlinks⟩
  · simp only [foldChain?, hmark, hfold]

/-- Tokens that some continuation of a chain starts with. -/
def ViableChain (operator? : Kind → Option Operator) (operand : Symbol) (left : Expr)
    (tokens : List Token) : Prop :=
  ∃ suffix e, Chains operator? operand left (tokens ++ suffix) e

theorem chain_meets {operator? : Kind → Option Operator} {symbol : Symbol} {operand : Rule Expr}
    (hsymbol : symbol ≠ .declaration) (hoperand : Reads symbol room operand)
    (hoperator : ∀ tok : Token, (operator? tok.kind).isSome → tok.kind ≠ .eof ∧ Balanced [tok]) :
    ∀ {rounds : Nat} {left : Expr} {ahead : List Token}, Ended ahead → ahead.length ≤ rounds →
      Meets ahead (Chains operator? symbol left) (Stuck (ViableChain operator? symbol left) room)
        (chain operator? operand rounds left ahead) := by
  intro rounds
  induction rounds with
  | zero =>
    intro left ahead hahead hrounds
    exact absurd (List.length_eq_zero_iff.mp (Nat.le_zero.mp hrounds)) hahead.ne_nil
  | succ rounds ih =>
    intro left ahead hahead hrounds
    obtain ⟨mark, rest, rfl⟩ := hahead.exists_cons
    simp only [chain, enter_bind, liftM_eq, current, ok_bind]
    rcases hop : operator? mark.kind with _ | op
    · exact Meets.pure hahead Chains.nil
    · obtain ⟨heof, hmark⟩ := hoperator mark (by rw [hop]; rfl)
      have hrest := hahead.tail heof
      simp only [advance_cons hrest.ne_nil, ok_bind]
      simp only [List.length_cons] at hrounds
      refine Meets.cons mark (Meets.bind (hoperand rest hrest) ?_ ?_)
      · intro used p hstuck
        refine hstuck.after hmark ?_
        rintro ⟨suffix, right, h⟩
        exact ⟨suffix, .bin op left right, by simpa using Chains.cons hop h Chains.nil⟩
      · intro used right rest' hrest' hright hlength
        have hfront : Balanced (mark :: used) := hmark.append (hright.balanced hsymbol)
        refine (ih hrest' (by omega)).imp (fun used' e h => ?_) fun used' p hstuck => ?_
        · exact Chains.cons hop hright h
        · refine hstuck.after hfront ?_
          rintro ⟨suffix, e, h⟩
          exact ⟨suffix, e, by simpa using Chains.cons hop hright h⟩

/-- Both levels of operators are read in one way. -/
theorem chained_reads {operator? : Kind → Option Operator} {symbol symbol' : Symbol}
    {operand : Rule Expr} (hsymbol : symbol ≠ .declaration) (hoperand : Reads symbol room operand)
    (hoperator : ∀ tok : Token, (operator? tok.kind).isSome → tok.kind ≠ .eof ∧ Balanced [tok])
    (hchained : ∀ {tokens : List Token} {links : List Link} {first e : Expr},
      Derives symbol tokens first → (∀ l ∈ links, Derives symbol l.tokens l.tree) →
      foldChain? operator? first links = some e →
      Derives symbol' (tokens ++ links.flatMap Link.written) e) :
    Reads symbol' room (chained operator? operand) := by
  intro ahead hahead
  simp only [chained, enter_bind, rounds_eq]
  refine Meets.bind (hoperand ahead hahead) ?_ ?_
  · rintro used p ⟨⟨suffix, e, h⟩, hdeep⟩
    refine ⟨⟨suffix, e, ?_⟩, hdeep⟩
    simpa using hchained h (by simp : ∀ l ∈ ([] : List Link), Derives symbol l.tokens l.tree) rfl
  · intro used first rest hrest hfirst _
    refine (chain_meets hsymbol hoperand hoperator hrest (Nat.le_refl _)).imp ?_ ?_
    · rintro _ e ⟨links, rfl, hlinks, hfold⟩
      exact hchained hfirst hlinks hfold
    · intro used' p hstuck
      refine hstuck.after (hfirst.balanced hsymbol) ?_
      rintro ⟨suffix, e, links, hused, hlinks, hfold⟩
      exact ⟨suffix, e, by simpa [hused] using hchained hfirst hlinks hfold⟩

theorem multiply_reads (hinner : Reads .addition room inner) :
    Reads .multiply (room + 1) (multiply inner) := by
  refine chained_reads (by decide) (unary_reads hinner) (fun tok htok => ?_) Derives.multiply
  rcases kind_of_multiplicative? htok with hkind | hkind <;>
    exact ⟨by simp [hkind], .of_kind hkind (by decide) (by decide) (by decide)⟩

theorem addition_reads (hinner : Reads .addition room inner) :
    Reads .addition (room + 1) (addition inner) := by
  refine chained_reads (by decide) (multiply_reads hinner) (fun tok htok => ?_) Derives.addition
  rcases kind_of_additive? htok with hkind | hkind <;>
    exact ⟨by simp [hkind], .of_kind hkind (by decide) (by decide) (by decide)⟩

end Expressions

theorem noRoom_meets {ahead : List Token} {good : List Token → Expr → Prop}
    {viable : List Token → Prop} (hahead : Ended ahead) (h : viable []) :
    Meets ahead good (Stuck viable 0) (noRoom ahead) := by
  obtain ⟨tok, rest, rfl⟩ := hahead.exists_cons
  exact Meets.refuse hahead rfl ⟨h, fun _ n => Nat.le_refl n⟩

theorem expression_reads (room : Nat) : Reads .addition room (expression room) := by
  induction room with
  | zero =>
    intro ahead hahead
    exact noRoom_meets hahead viable_addition_nil
  | succ room ih => exact addition_reads ih

/-! ### Declarations -/

theorem derives_zero_declaration : Derives .declaration [zeroToken] (.num (Binary64.ofNat 0)) :=
  .plain derives_zero.unsigned.toMultiply.toAddition

theorem parameters_meets {rounds : Nat} {ahead : List Token} (hahead : Ended ahead)
    (hrounds : ahead.length ≤ rounds) :
    Meets ahead (fun used names => (∀ tok ∈ used, tok.kind = .ident) ∧ names = used.map Token.text)
      (fun used p => (∀ tok ∈ used, tok.kind = .ident) ∧ isTooDeep p = false)
      (parameters rounds ahead) := by
  induction rounds generalizing ahead with
  | zero => exact absurd (List.length_eq_zero_iff.mp (Nat.le_zero.mp hrounds)) hahead.ne_nil
  | succ rounds ih =>
    have hname := expectName_meets "parameter name" hahead
    obtain ⟨tok, rest, rfl⟩ := hahead.exists_cons
    simp only [parameters, enter_bind, liftM_eq, current, ok_bind]
    by_cases htok : tok.kind = .ident ∨ tok.kind.isReserved = true
    · rw [if_pos htok]
      refine Meets.bind hname ?_ ?_
      · rintro _ p ⟨rfl, hp⟩
        exact ⟨by simp, hp⟩
      · rintro _ name rest' hrest' ⟨rfl, hname⟩ hlength
        have hrest : rest'.length ≤ rounds := by
          simp only [List.length_cons, List.length_nil] at hlength hrounds
          omega
        refine Meets.bind (ih hrest' hrest) ?_ ?_
        · rintro used p ⟨hused, hp⟩
          exact ⟨by simpa using ⟨hname, hused⟩, hp⟩
        · rintro used names rest'' hrest'' ⟨hused, rfl⟩ _
          exact Meets.pure hrest'' ⟨by simpa using ⟨hname, hused⟩, by simp⟩
    · rw [if_neg htok]
      exact Meets.pure hahead ⟨by simp, rfl⟩

/-- What a declaration goes on with after its names. -/
inductive Binding : List Token → Expr → Expr → Prop where
  | intro {equals semicolon : Token} {valueTokens nextTokens : List Token} {value next : Expr}
      (hequals : equals.kind = .equals) (hvalue : Derives .addition valueTokens value)
      (hsemicolon : semicolon.kind = .semicolon) (hnext : Derives .declaration nextTokens next) :
      Binding (equals :: (valueTokens ++ semicolon :: nextTokens)) value next

/-- Tokens that such a part of a declaration starts with. -/
def ViableBinding (tokens : List Token) : Prop :=
  ∃ suffix value next, Binding (tokens ++ suffix) value next

theorem viableBinding_nil : ViableBinding [] :=
  ⟨⟨.equals, "=", 0⟩ :: ([zeroToken] ++ [semicolonToken, zeroToken]), _, _,
    .intro rfl derives_zero.unsigned.toMultiply.toAddition semicolonToken_kind
      derives_zero_declaration⟩

theorem binding_meets {inner next : Rule Expr} {room : Nat} (hinner : Reads .addition room inner)
    (hnext : Reads .declaration room next) (what : String) (build : Expr → Expr → Expr)
    {ahead : List Token} (hahead : Ended ahead) :
    Meets ahead (fun used e => ∃ value rest, Binding used value rest ∧ e = build value rest)
      (Stuck ViableBinding room) (binding inner next what build ahead) := by
  simp only [binding, liftM_eq]
  refine Meets.bind (expect_meets .equals what (by decide) hahead) ?_ ?_
  · rintro _ p ⟨rfl, hp⟩
    exact Stuck.refused hp viableBinding_nil
  rintro _ equals ahead hahead ⟨rfl, hequals⟩ _
  have hfront : Balanced [equals] := .of_kind hequals (by decide) (by decide) (by decide)
  refine Meets.bind (hinner ahead hahead) ?_ ?_
  · intro used p hstuck
    refine hstuck.after hfront ?_
    rintro ⟨suffix, value, hvalue⟩
    refine ⟨suffix ++ [semicolonToken, zeroToken], value, .num (Binary64.ofNat 0), ?_⟩
    simpa using Binding.intro hequals hvalue semicolonToken_kind derives_zero_declaration
  intro used value ahead hahead hvalue _
  refine Meets.bind (expect_meets .semicolon "`;`" (by decide) hahead) ?_ ?_
  · rintro _ p ⟨rfl, hp⟩
    refine Stuck.refused hp ⟨[semicolonToken, zeroToken], value, .num (Binary64.ofNat 0), ?_⟩
    simpa using Binding.intro hequals hvalue semicolonToken_kind derives_zero_declaration
  rintro _ semicolon ahead hahead ⟨rfl, hsemicolon⟩ _
  have hfront : Balanced ([equals] ++ (used ++ [semicolon])) := hfront.append
    ((hvalue.balanced (by decide)).append (.of_kind hsemicolon (by decide) (by decide) (by decide)))
  refine Meets.bind (hnext ahead hahead) ?_ ?_
  · intro used' p hstuck
    have hafter : Stuck ViableBinding room (([equals] ++ (used ++ [semicolon])) ++ used') p := by
      refine hstuck.after hfront ?_
      rintro ⟨suffix, rest, hrest⟩
      exact ⟨suffix, value, rest, by simpa using Binding.intro hequals hvalue hsemicolon hrest⟩
    simpa using hafter
  · intro used' rest ahead hahead hrest _
    exact Meets.pure hahead
      ⟨value, rest, by simpa using Binding.intro hequals hvalue hsemicolon hrest, rfl⟩

theorem Binding.toLet {word name : Token} {tokens : List Token} {value next : Expr}
    (h : Binding tokens value next) (hword : word.kind = .letWord) (hname : name.kind = .ident) :
    Derives .declaration (word :: name :: tokens) (.letIn name.text value next) := by
  cases h with
  | intro hequals hvalue hsemicolon hnext =>
    exact .letIn hword hname hequals hvalue hsemicolon hnext

theorem Binding.toFn {word name : Token} {params tokens : List Token} {body next : Expr}
    (h : Binding tokens body next) (hword : word.kind = .fnWord) (hname : name.kind = .ident)
    (hparams : ∀ param ∈ params, param.kind = .ident) :
    Derives .declaration (word :: name :: (params ++ tokens))
      (.fnIn name.text (params.map Token.text) body next) := by
  cases h with
  | intro hequals hvalue hsemicolon hnext =>
    exact .fnIn hword hname hparams hequals hvalue hsemicolon hnext

theorem letDeclaration_meets {inner next : Rule Expr} {room : Nat}
    (hinner : Reads .addition room inner) (hnext : Reads .declaration room next) {word : Token}
    {rest : List Token} (hahead : Ended (word :: rest)) (hword : word.kind = .letWord) :
    Meets (word :: rest) (Derives .declaration) (Stuck (Viable .declaration) (room + 1))
      (letDeclaration inner next (word :: rest)) := by
  have hrest := hahead.tail (by rw [hword]; decide)
  obtain ⟨tokens, value, next', hbinding⟩ := viableBinding_nil
  simp only [letDeclaration, enter_bind, liftM_eq, advance_cons hrest.ne_nil, ok_bind]
  refine Meets.cons word (Meets.bind (expectName_meets _ hrest) ?_ ?_)
  · rintro _ p ⟨rfl, hp⟩
    exact Stuck.refused hp ⟨⟨.ident, "x", 0⟩ :: tokens, _, hbinding.toLet hword rfl⟩
  rintro _ name ahead hahead ⟨rfl, hname⟩ _
  refine (binding_meets hinner hnext _ (.letIn name.text) hahead).imp ?_ ?_
  · rintro used _ ⟨value, rest, h, rfl⟩
    exact h.toLet hword hname
  · rintro used p ⟨⟨suffix, value, rest, h⟩, hdeep⟩
    refine ⟨⟨suffix, _, h.toLet hword hname⟩, fun hp => ?_⟩
    exact ((hdeep hp).after (.of_kind hname (by decide) (by decide) (by decide))).declaration
      (by rw [hword]; rfl)

theorem fnDeclaration_meets {inner next : Rule Expr} {room : Nat}
    (hinner : Reads .addition room inner) (hnext : Reads .declaration room next) {word : Token}
    {rest : List Token} (hahead : Ended (word :: rest)) (hword : word.kind = .fnWord) :
    Meets (word :: rest) (Derives .declaration) (Stuck (Viable .declaration) (room + 1))
      (fnDeclaration inner next (word :: rest)) := by
  have hrest := hahead.tail (by rw [hword]; decide)
  obtain ⟨tokens, value, next', hbinding⟩ := viableBinding_nil
  simp only [fnDeclaration, enter_bind, liftM_eq, advance_cons hrest.ne_nil, ok_bind]
  refine Meets.cons word (Meets.bind (expectName_meets _ hrest) ?_ ?_)
  · rintro _ p ⟨rfl, hp⟩
    exact Stuck.refused hp ⟨⟨.ident, "f", 0⟩ :: ([] ++ tokens), _,
      hbinding.toFn hword rfl (by simp)⟩
  rintro _ name ahead hahead ⟨rfl, hname⟩ _
  refine Meets.bind (parameters_meets hahead (Nat.le_refl _)) ?_ ?_
  · rintro params p ⟨hparams, hp⟩
    exact Stuck.refused hp ⟨tokens, _, by simpa using hbinding.toFn hword hname hparams⟩
  rintro params _ ahead hahead ⟨hparams, rfl⟩ _
  have hfront : Balanced ([name] ++ params) := Balanced.names (by simpa using ⟨hname, hparams⟩)
  refine (binding_meets hinner hnext _ (.fnIn name.text (params.map Token.text)) hahead).imp ?_ ?_
  · rintro used _ ⟨body, rest, h, rfl⟩
    simpa using h.toFn hword hname hparams
  · rintro used p ⟨⟨suffix, body, rest, h⟩, hdeep⟩
    refine ⟨⟨suffix, _, by simpa using h.toFn hword hname hparams⟩, fun hp => ?_⟩
    have hlevels : Deep (room + 1) (word :: (([name] ++ params) ++ used)) :=
      ((hdeep hp).after hfront).declaration (by rw [hword]; rfl)
    simpa using hlevels

theorem declaration_reads (room : Nat) : Reads .declaration room (declaration room) := by
  induction room with
  | zero =>
    intro ahead hahead
    exact noRoom_meets hahead ⟨_, _, derives_zero_declaration⟩
  | succ room ih =>
    intro ahead hahead
    have hplain := expression_reads (room + 1) ahead hahead
    obtain ⟨tok, rest, rfl⟩ := hahead.exists_cons
    simp only [declaration, enter_bind, liftM_eq, current, ok_bind]
    split
    · exact letDeclaration_meets (expression_reads room) ih hahead ‹_›
    · exact fnDeclaration_meets (expression_reads room) ih hahead ‹_›
    · refine hplain.imp (fun _ _ h => .plain h) ?_
      rintro used p ⟨⟨suffix, e, h⟩, hdeep⟩
      exact ⟨⟨suffix, e, .plain h⟩, hdeep⟩

/-! ### Programs -/

/-- **Reading a program.**  Its tree comes from a derivation of what it used up, and where
    it stops the input could have gone on. -/
theorem program_reads (room : Nat) : Reads .declaration room (program room) := by
  intro ahead hahead
  refine Meets.bind (declaration_reads room ahead hahead) (fun _ _ h => h) ?_
  intro used e rest hrest hderives _
  obtain ⟨tok, tail, rfl⟩ := hrest.exists_cons
  simp only [current, ok_bind]
  by_cases htok : tok.kind = .eof
  · rw [if_pos htok]
    exact Meets.pure hrest (by simpa using hderives)
  · rw [if_neg htok]
    exact Meets.refuse hrest rfl (Stuck.refused rfl ⟨[], e, by simpa using hderives⟩)

theorem eof_of_program {room : Nat} {ahead rest : List Token} {e : Expr}
    (h : program room ahead = .ok (e, rest)) :
    ∃ tok tail, rest = tok :: tail ∧ tok.kind = .eof := by
  simp only [program] at h
  rcases hdecl : (declaration room ahead : Except Stop _) with stop | ⟨e', rest'⟩
  · rw [hdecl] at h; cases h
  · rw [hdecl, ok_bind] at h
    rcases rest' with _ | ⟨tok, tail⟩
    · cases h
    · simp only [current, ok_bind] at h
      by_cases htok : tok.kind = .eof
      · rw [if_pos htok] at h
        cases h
        exact ⟨tok, tail, rfl, htok⟩
      · rw [if_neg htok] at h; cases h

end Abacus.Parse
