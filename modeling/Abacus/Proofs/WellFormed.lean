/-
  Abacus/Proofs/WellFormed.lean
  =============================
  **Every tree that is read is well formed.**  Its names are words that are not reserved, its
  declarations stand at the top only, and its literals are whole numbers without a sign, or
  infinity.  The three come from different parts of the program: which words are names is
  settled by the scanner, where a declaration may stand by the grammar, and which numbers can
  come out of a numeral by rounding.

  The tree is that of a derivation, so one induction over derivations puts them together.  It
  asks of the tokens only that those of a name's kind are names.
-/
import Abacus.Proofs.RoundTrip

namespace Abacus

open Scan (IsLexeme isWordStart isWordPart wordKind)

/-! ### Names and literals -/

theorem isName_of_isLexeme {chars : List Char} (h : IsLexeme .ident chars) :
    isName (String.ofList chars) = true := by
  generalize hkind : Kind.ident = kind at h
  cases h with
  | @word c rest hc hrest =>
    have hlet : String.ofList (c :: rest) ≠ "let" := by
      intro heq
      rw [wordKind, if_pos heq] at hkind
      cases hkind
    have hfn : String.ofList (c :: rest) ≠ "fn" := by
      intro heq
      rw [wordKind, if_neg hlet, if_pos heq] at hkind
      cases hkind
    have hparts : rest.all isWordPart = true := List.all_eq_true.mpr hrest
    simp only [isName, String.toList_ofList, hc, hparts, Bool.and_eq_true, bne_iff_ne, ne_eq]
    exact ⟨⟨⟨trivial, trivial⟩, hlet⟩, hfn⟩
  | zero | numeral => cases hkind
  | mark hmark =>
    unfold Scan.punctuation? at hmark
    split at hmark <;> cases hmark <;> cases hkind

theorem isLiteral_ofWord {w : Nat} (hle : w ≤ Binary64.infinityWord)
    (hwhole : w ≠ Binary64.infinityWord → Number.isWhole w = true) :
    isLiteral (Binary64.ofWord false w) = true := by
  unfold isLiteral
  rw [Binary64.shape_ofWord false hle]
  by_cases h : w = Binary64.infinityWord
  · rw [if_pos h]
  · rw [if_neg h]
    exact hwhole h

/-- A numeral of any length is read as a literal: a whole number, or infinity. -/
theorem isLiteral_ofNat (n : Nat) : isLiteral (Binary64.ofNat n) = true :=
  isLiteral_ofWord (Binary64.nearest_le_infinityWord n 1) Binary64.isWhole_nearest

/-! ### Derived trees -/

namespace Parse

/-- Tokens of which those that are names by their kind are names by their text. -/
def NamesIn (tokens : List Token) : Prop :=
  ∀ tok ∈ tokens, tok.kind = .ident → isName tok.text = true

theorem namesIn_cons {tok : Token} {tokens : List Token} :
    NamesIn (tok :: tokens) ↔ (tok.kind = .ident → isName tok.text = true) ∧ NamesIn tokens :=
  List.forall_mem_cons

theorem namesIn_append {tokens tokens' : List Token} :
    NamesIn (tokens ++ tokens') ↔ NamesIn tokens ∧ NamesIn tokens' :=
  List.forall_mem_append

theorem NamesIn.of_link {links : List Link} (h : NamesIn (links.flatMap Link.written)) {l : Link}
    (hl : l ∈ links) : NamesIn l.tokens := by
  intro tok htok
  exact h tok (List.mem_flatMap.mpr ⟨l, hl, List.mem_cons_of_mem _ htok⟩)

theorem isPlain_of_foldChain? {operator? : Kind → Option Operator} {links : List Link} :
    ∀ {left e : Expr}, left.IsPlain → (∀ l ∈ links, l.tree.IsPlain) →
      foldChain? operator? left links = some e → e.IsPlain := by
  induction links with
  | nil =>
    intro left e hleft _ hfold
    cases hfold
    exact hleft
  | cons l links ih =>
    intro left e hleft hlinks hfold
    simp only [foldChain?] at hfold
    split at hfold
    · refine ih (.bin hleft (hlinks l List.mem_cons_self)) ?_ hfold
      intro l' hl'
      exact hlinks l' (List.mem_cons_of_mem l hl')
    · cases hfold

theorem Derives.isPlain {s : Symbol} {tokens : List Token} {e : Expr} (h : Derives s tokens e)
    (hs : s ≠ .declaration) (hnames : NamesIn tokens) : e.IsPlain := by
  induction h with
  | letIn | fnIn | plain => exact absurd rfl hs
  | addition _ _ hfold ihfirst ihlinks | multiply _ _ hfold ihfirst ihlinks =>
    obtain ⟨hfirst, hlinks⟩ := namesIn_append.mp hnames
    apply isPlain_of_foldChain? _ _ hfold
    · exact ihfirst (by decide) hfirst
    · intro l hl
      exact ihlinks l hl (by decide) (hlinks.of_link hl)
  | negative _ _ ih => exact .neg (ih (by decide) (namesIn_cons.mp hnames).2)
  | unsigned _ ih | called _ ih => exact ih (by decide) hnames
  | integer => exact .num (isLiteral_ofNat _)
  | var hname => exact .var ((namesIn_cons.mp hnames).1 hname)
  | bracketed _ _ _ ih =>
    simp only [namesIn_cons, namesIn_append] at hnames
    exact ih (by decide) hnames.2.1
  | emptyCall hname => exact .call ((namesIn_cons.mp hnames).1 hname) (by simp)
  | call hname _ _ _ _ _ _ ihfirst ihlinks =>
    simp only [namesIn_cons, namesIn_append] at hnames
    obtain ⟨hfunction, -, hfirst, hlinks, -⟩ := hnames
    apply Expr.IsPlain.call (hfunction hname)
    intro arg harg
    rcases List.mem_cons.mp harg with rfl | harg
    · exact ihfirst (by decide) hfirst
    · obtain ⟨l, hl, rfl⟩ := List.mem_map.mp harg
      exact ihlinks l hl (by decide) (hlinks.of_link hl)

theorem Derives.isProgram {tokens : List Token} {e : Expr} (h : Derives .declaration tokens e)
    (hnames : NamesIn tokens) : e.IsProgram := by
  generalize hs : Symbol.declaration = s at h
  -- values and bodies are sums, and only what comes next may declare again
  induction h with
  | letIn _ hname _ hvalue _ _ _ ihnext =>
    simp only [namesIn_cons, namesIn_append] at hnames
    obtain ⟨-, hletName, -, hvalueNames, -, hnextNames⟩ := hnames
    constructor
    · exact hletName hname
    · exact hvalue.isPlain (by decide) hvalueNames
    · exact ihnext hnextNames rfl
  | fnIn _ hname hparams _ hbody _ _ _ ihnext =>
    simp only [namesIn_cons, namesIn_append] at hnames
    obtain ⟨-, hfnName, hparamNames, -, hbodyNames, -, hnextNames⟩ := hnames
    constructor
    · exact hfnName hname
    · intro param hparam
      obtain ⟨tok, htok, rfl⟩ := List.mem_map.mp hparam
      exact hparamNames tok htok (hparams tok htok)
    · exact hbody.isPlain (by decide) hbodyNames
    · exact ihnext hnextNames rfl
  | plain h => exact .plain (h.isPlain (by decide) hnames)
  | _ => cases hs

/-! ### Trees of a source -/

theorem namesIn_of_tokenize {source : String} {tokens : List Token}
    (h : Scan.tokenize source = .ok tokens) : NamesIn tokens := by
  obtain ⟨body, rfl, hbody⟩ := Scan.exists_body_of_tokenize h
  intro tok htok hkind
  rcases List.mem_append.mp htok with hmem | hmem
  · obtain ⟨chars, htext, hlexeme⟩ := hbody tok hmem
    rw [hkind] at hlexeme
    rw [htext]
    exact isName_of_isLexeme hlexeme
  · obtain rfl := List.mem_singleton.mp hmem
    cases hkind

/-- **Every tree that is read is well formed**: its names are words that are not reserved, its
    declarations stand at the top, and its literals are whole, without a sign, or infinite. -/
theorem isProgram_of_parse {source : String} {e : Expr} (h : parse source = .ok e) :
    e.IsProgram := by
  rcases htokens : Scan.tokenize source with rejection | tokens
  · simp only [parse, read, htokens] at h
    cases h
  · rw [parse_eq_readTokens htokens] at h
    have hderives := derives_of_readTokens (ended_of_tokenize htokens) h
    apply hderives.isProgram
    intro tok htok
    exact namesIn_of_tokenize htokens tok (List.mem_of_mem_dropLast htok)

/-- `let letter = 12; fn fn1 _ = -_; fn1(letter)`, whose names start with the reserved words. -/
def nearlyReserved : Expr :=
  .letIn "letter" (.num (Binary64.ofNat 12))
    (.fnIn "fn1" ["_"] (.neg (.var "_")) (.call "fn1" [.var "letter"]))

theorem isProgram_nearlyReserved :
    parse "let letter = 12; fn fn1 _ = -_; fn1(letter)" = .ok nearlyReserved ∧
      nearlyReserved.IsProgram := by
  have htokens : Scan.tokenize "let letter = 12; fn fn1 _ = -_; fn1(letter)" =
      .ok [⟨.letWord, "let", 0⟩, ⟨.ident, "letter", 4⟩, ⟨.equals, "=", 11⟩, ⟨.int, "12", 13⟩,
        ⟨.semicolon, ";", 15⟩, ⟨.fnWord, "fn", 17⟩, ⟨.ident, "fn1", 20⟩, ⟨.ident, "_", 24⟩,
        ⟨.equals, "=", 26⟩, ⟨.minus, "-", 28⟩, ⟨.ident, "_", 29⟩, ⟨.semicolon, ";", 30⟩,
        ⟨.ident, "fn1", 32⟩, ⟨.lparen, "(", 35⟩, ⟨.ident, "letter", 36⟩, ⟨.rparen, ")", 42⟩,
        ⟨.eof, "", 43⟩] := by
    cbv
  have hparse : parse "let letter = 12; fn fn1 _ = -_; fn1(letter)" = .ok nearlyReserved := by
    simp only [parse, read, htokens]
    rfl
  exact ⟨hparse, isProgram_of_parse hparse⟩

end Parse
end Abacus
