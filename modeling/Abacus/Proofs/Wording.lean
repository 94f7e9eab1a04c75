/-
  Abacus/Proofs/Wording.lean
  ==========================
  **Messages about a source stay on one line.**  The wording of a problem is made of fixed phrases,
  of places, and of text from the source.  Text comes in as a token or as a run that starts like a
  number, neither of which holds a blank, or as a single character in quotes, which are made to
  show no line feed.

  What a rule says it needs is handed down to the step that may miss it: `Asks` says of one outcome
  that these phrases stay on one line, and every kind of step keeps it.
-/
import Abacus.Proofs.Spans

namespace Abacus

/-! ### Digits and quotes -/

/-- A text without a line feed. -/
def OneLine (s : String) : Prop :=
  '\n' ∉ s.toList

instance (s : String) : Decidable (OneLine s) :=
  inferInstanceAs (Decidable ('\n' ∉ s.toList))

theorem OneLine.append {s t : String} (hs : OneLine s) (ht : OneLine t) : OneLine (s ++ t) := by
  rw [OneLine, String.toList_append, List.mem_append, not_or]
  exact ⟨hs, ht⟩

theorem digitChar_ne_lineFeed (n : Nat) : n.digitChar ≠ '\n' := by
  by_cases hdigit : n < 16
  · interval_cases n <;> decide
  · have hstar : n.digitChar = '*' := by
      unfold Nat.digitChar
      repeat rw [if_neg (by omega)]
    rw [hstar]
    decide

theorem lineFeed_not_mem_toDigits {base : Nat} (hbase : 1 < base) (n : Nat) :
    '\n' ∉ Nat.toDigits base n := by
  induction n using Nat.strong_induction_on with
  | _ n ih =>
    by_cases hsmall : n < base
    · rw [Nat.toDigits_of_lt_base hsmall, List.mem_singleton]
      exact (digitChar_ne_lineFeed n).symm
    · have hle := Nat.le_of_not_lt hsmall
      rw [Nat.toDigits_of_base_le hbase hle, List.mem_append, List.mem_singleton, not_or]
      constructor
      · exact ih (n / base) (Nat.div_lt_self (by omega) hbase)
      · exact (digitChar_ne_lineFeed (n % base)).symm

theorem oneLine_toString (n : Nat) : OneLine (toString n) := by
  have hdigits : (toString n).toList = Nat.toDigits 10 n := String.toList_ofList
  rw [OneLine, hdigits]
  exact lineFeed_not_mem_toDigits (by decide) n

namespace Text

theorem lineFeed_not_mem_hexDigits (size n : Nat) : '\n' ∉ hexDigits size n := by
  rw [hexDigits, List.mem_append, not_or]
  constructor
  · intro h
    exact absurd (List.eq_of_mem_replicate h) (by decide)
  · exact lineFeed_not_mem_toDigits (by decide) n

theorem lineFeed_not_mem_quoteChar {quote : Char} (hquote : quote ≠ '\n') (c : Char) :
    '\n' ∉ quoteChar quote c := by
  unfold quoteChar
  split_ifs with hescaped hfeed
  · have hc : c ≠ '\n' := by
      rintro rfl
      rcases hescaped with heq | heq
      · exact hquote heq.symm
      · exact absurd heq (by decide)
    simpa using hc.symm
  · decide
  · decide
  · decide
  · simpa using Ne.symm hfeed
  · simpa using lineFeed_not_mem_hexDigits 2 c.toNat
  · simpa using lineFeed_not_mem_hexDigits 4 c.toNat
  · simpa using lineFeed_not_mem_hexDigits 8 c.toNat

theorem oneLine_quoted (s : String) : OneLine (quoted s) := by
  have hquote : quoteFor s.toList ≠ '\n' := by
    unfold quoteFor
    split <;> decide
  rw [OneLine, quoted, String.toList_ofList]
  simp only [List.cons_append, List.mem_cons, List.mem_append, List.mem_flatMap, List.not_mem_nil,
    or_false, not_or, not_exists, not_and]
  refine ⟨hquote.symm, ?_, hquote.symm⟩
  intro c _
  exact lineFeed_not_mem_quoteChar hquote c

end Text

/-! ### Text from the source -/

namespace Scan

theorem oneLine_of_not_isBlank {chars : List Char} (h : ∀ c ∈ chars, Text.isBlank c = false) :
    OneLine (String.ofList chars) := by
  rw [OneLine, String.toList_ofList]
  intro hmem
  exact absurd (h '\n' hmem) (by decide)

theorem oneLine_of_mem_tokenize {source : String} {tokens : List Token}
    (h : tokenize source = .ok tokens) {tok : Token} (htok : tok ∈ tokens) : OneLine tok.text := by
  obtain ⟨body, hpieces, rfl⟩ := exists_pieces_of_tokenize h
  rcases List.mem_append.mp htok with hbody | hlast
  · have hmem : Piece.token tok ∈ pieces 0 source.toList := by
      rw [hpieces]
      exact List.mem_map_of_mem hbody
    obtain ⟨before, chars, after, -, hpiece⟩ := (pieces_tiles 0 source.toList).exists_split _ hmem
    have hblank := hpiece.not_isBlank
    cases hpiece with
    | int | word | mark => exact oneLine_of_not_isBlank hblank
  · obtain rfl := List.mem_singleton.mp hlast
    exact List.not_mem_nil

theorem oneLine_of_mem_pieces {source : String} {p : Problem}
    (h : .problem p ∈ pieces 0 source.toList) : OneLine p.message := by
  obtain ⟨before, chars, after, -, hpiece⟩ := (pieces_tiles 0 source.toList).exists_split _ h
  have hblank := hpiece.not_isBlank
  cases hpiece with
  | malformed =>
    refine .append (.append (by decide) (oneLine_of_not_isBlank hblank)) (by decide)
  | stray => exact .append (by decide) (Text.oneLine_quoted _)

end Scan

/-! ### What rules ask for -/

namespace Parse

theorem oneLine_of_mem_phrases : ∀ what ∈ phrases, OneLine what := by
  decide

/-- A rule that stopped because it needs something else says so on one line; one that gave a value
    left tokens up to the end. -/
def Asks {α : Type} : Except Stop (α × List Token) → Prop
  | .ok (_, rest) => Ended rest
  | .error (.problem (.expected what _) _) => OneLine what
  | .error _ => True

namespace Asks

variable {α β : Type}

theorem refuse {p : Problem} (hp : Raised p) (ahead : List Token) :
    Asks (.error (.problem p ahead) : Except Stop (α × List Token)) := by
  cases hp with
  | expected hwhat => exact oneLine_of_mem_phrases _ hwhat
  | _ => trivial

theorem bind {x : Except Stop (α × List Token)}
    {f : α × List Token → Except Stop (β × List Token)} (hx : Asks x)
    (hf : ∀ value rest, Ended rest → Asks (f (value, rest))) : Asks (x >>= f) := by
  match x, hx with
  | .ok (value, rest), hrest => exact hf value rest hrest
  | .error (.problem p rest), h => cases p <;> exact h
  | .error (.fault _), _ => trivial

/-- What is wrong with a closing bracket is said without such a phrase. -/
theorem expectClose (opening : Token) {ahead : List Token} (hahead : Ended ahead) :
    Asks (expectClose opening ahead) := by
  obtain ⟨tok, rest, rfl⟩ := hahead.exists_cons
  simp only [Parse.expectClose, current]
  split
  case h_1 hclosing =>
    have hrest := hahead.tail (by simp [hclosing])
    rw [advance_cons hrest.ne_nil]
    exact hrest
  all_goals trivial

end Asks

theorem stepwise_asks : Stepwise fun _ _ => Asks where
  pure hahead := hahead
  fault _ := trivial
  refuse hp := .refuse hp _
  cons _ hx := hx
  bind := .bind
  bracket _ hx _ := hx.bind fun _ _ hrest =>
    (Asks.expectClose _ hrest).bind fun _ _ hrest => hrest

/-! ### Messages -/

theorem oneLine_describe {tok : Token} (h : OneLine tok.text) : OneLine tok.describe := by
  unfold Token.describe
  split
  · decide
  · exact .append (.append (by decide) h) (by decide)

theorem oneLine_of_stopped {source : String} {tokens : List Token}
    (htokens : Scan.tokenize source = .ok tokens) {room : Nat} {p : Problem} {rest : List Token}
    (h : program room tokens = .error (.problem p rest)) : OneLine p.message := by
  have hended := ended_of_tokenize htokens
  have hreads := program_reads room tokens hended
  have hasks := stepwise_asks.program room tokens hended
  rw [h] at hreads hasks
  obtain ⟨used, tok, tail, rfl, hsplit, -, habout, -⟩ := hreads
  have htext : OneLine tok.text := by
    apply Scan.oneLine_of_mem_tokenize htokens
    rw [hsplit]
    exact List.mem_append_right used List.mem_cons_self
  have hdescribe := oneLine_describe htext
  cases p with
  | malformedNumber | strayCharacter => exact absurd habout id
  | expected what found =>
    obtain rfl : found = tok := habout
    exact .append (.append (.append (by decide) hasks) (by decide)) hdescribe
  | reserved found =>
    obtain rfl : found = tok := habout
    exact .append (.append (by decide) htext) (by decide)
  | unclosed opening stop =>
    show OneLine "Unclosed delimiter `(`, expected `)` before end of input"
    decide
  | notClosing opening found =>
    obtain rfl : found = tok := habout
    have hplace := oneLine_toString opening.start
    exact .append (.append (.append (by decide) hplace) (by decide)) hdescribe
  | noExpression found =>
    obtain rfl : found = tok := habout
    obtain ⟨kind, text, start⟩ := found
    cases kind with
    | eof =>
      show OneLine "Unexpected end of input, expected expression"
      decide
    | _ => exact .append (.append (by decide) hdescribe) (by decide)
  | leftover found =>
    obtain rfl : found = tok := habout
    exact .append (.append (by decide) hdescribe) (by decide)
  | tooDeep found =>
    show OneLine "Expression nested too deeply"
    decide

end Parse
end Abacus
