/-
  Abacus/Proofs/Blocks.lean
  =========================
  **Blocks give back what they found.**  A block takes entries off by their number, not by what
  they are, so whether it leaves its stack as it found it depends on all that happens inside.  It
  does if the stack is never lower than when the actions of the block began, and just as high
  when they end; nothing more is asked of the blocks inside.

  `Goes` and `GoesOn` are the ways a script can go when errors are not only recorded: an error may
  come at any point between two actions, and the error of an action is either caught or ends the
  block around it, and then perhaps the next one.  The way `perform` takes is among them.

  What happens to the stacks on the way is a list of events.  All facts about stacks are proved
  about events, one step at a time, without another look at blocks: how high a stack is, that
  entries below a height stay, and that a name means its latest binding that is still live.
-/
import Abacus.Proofs.Restoration
import Abacus.Scope.Script

namespace Abacus

/-! ### One stack of two -/

namespace Scope

theorem stack_withStack (s : Scope) (side : Side) (stack : Stack side.Value) :
    (s.withStack side stack).stack side = stack := by
  cases side <;> rfl

theorem stack_withStack_of_ne (s : Scope) {side other : Side} (h : other ≠ side)
    (stack : Stack other.Value) : (s.withStack other stack).stack side = s.stack side := by
  cases side with
  | vars =>
    cases other with
    | vars => exact absurd rfl h
    | funs => rfl
  | funs =>
    cases other with
    | vars => rfl
    | funs => exact absurd rfl h

theorem withStack_stack (s : Scope) (side : Side) : s.withStack side (s.stack side) = s := by
  cases side <;> rfl

theorem withStack_withStack (s : Scope) (side : Side) (stack stack' : Stack side.Value) :
    (s.withStack side stack).withStack side stack' = s.withStack side stack' := by
  cases side <;> rfl

theorem stack_enter (s : Scope) (side : Side) (bindings : List (String × side.Value)) :
    (s.enter side bindings).stack side = (s.stack side).pushAll bindings :=
  s.stack_withStack side _

theorem stack_enter_of_ne (s : Scope) {side other : Side} (h : other ≠ side)
    (bindings : List (String × other.Value)) :
    (s.enter other bindings).stack side = s.stack side :=
  s.stack_withStack_of_ne h _

theorem enter_cons (s : Scope) (side : Side) (binding : String × side.Value)
    (bindings : List (String × side.Value)) :
    s.enter side (binding :: bindings) = (s.enter side [binding]).enter side bindings := by
  rw [enter, enter, stack_enter, enter, withStack_withStack, Stack.pushAll_cons]
  rfl

theorem leave_eq_ok {s s' : Scope} {side : Side} {count : Int} (h : s.leave side count = .ok s') :
    0 ≤ count ∧ count ≤ (s.stack side).size ∧
      s' = s.withStack side ⟨(s.stack side).entries.drop count.toNat⟩ := by
  unfold leave Stack.pop at h
  split at h
  · rename_i stack hpop
    split at hpop
    · cases hpop
    · rename_i hcount
      cases hpop
      cases h
      exact ⟨by omega, by omega, rfl⟩
  · cases h

end Scope

namespace Script

/-! ### Events -/

/-- What can happen to the stacks of a scope. -/
inductive Event where
  /-- A binding is added. -/
  | bind (side : Side) (name : String) (value : side.Value)
  /-- Entries are taken off. -/
  | drop (side : Side) (count : Int)
  /-- A name is looked up. -/
  | lookup (side : Side) (name : String) (answer : Option side.Value)

/-- How much higher an event makes the stack of a side. -/
def Event.rise (side : Side) : Event → Int
  | .bind other _ _ => if other = side then 1 else 0
  | .drop other count => if other = side then -count else 0
  | .lookup _ _ _ => 0

/-- How much higher events make the stack of a side. -/
def rise (side : Side) (events : List Event) : Int :=
  (events.map (Event.rise side)).sum

/-- What was added in place `i` is live: since then the stack has never been lower than it was with
    that binding on top. -/
def Live (side : Side) (history : List Event) (i : Nat) : Prop :=
  ∀ n ≤ history.length, i < n → rise side (history.take (i + 1)) ≤ rise side (history.take n)

/-- The latest live binding of a name. -/
def Latest (side : Side) (history : List Event) (name : String) (value : side.Value) : Prop :=
  ∃ i, history[i]? = some (.bind side name value) ∧ Live side history i ∧
    ∀ j > i, ∀ value', history[j]? = some (.bind side name value') → ¬ Live side history j

/-- The events of adding bindings. -/
def added (side : Side) (bindings : List (String × side.Value)) : List Event :=
  bindings.map fun binding => .bind side binding.1 binding.2

/-- The bindings of a scope as events, as if they had been added one after the other. -/
def past (s : Scope) : List Event :=
  added .vars s.vars.toList ++ added .funs s.funs.toList

@[simp]
theorem rise_nil (side : Side) : rise side [] = 0 := rfl

@[simp]
theorem rise_cons (side : Side) (event : Event) (events : List Event) :
    rise side (event :: events) = event.rise side + rise side events := rfl

@[simp]
theorem rise_append (side : Side) (front back : List Event) :
    rise side (front ++ back) = rise side front + rise side back := by
  simp [rise]

/-- Events lead from one scope to another. -/
inductive Passes : Scope → List Event → Scope → Prop where
  | nil (s : Scope) : Passes s [] s
  | bind {s t : Scope} {side : Side} {name : String} {value : side.Value} {rest : List Event}
      (h : Passes (s.enter side [(name, value)]) rest t) :
      Passes s (.bind side name value :: rest) t
  | drop {s s' t : Scope} {side : Side} {count : Int} {rest : List Event}
      (hleave : s.leave side count = .ok s') (h : Passes s' rest t) :
      Passes s (.drop side count :: rest) t
  | lookup {s t : Scope} {side : Side} {name : String} {rest : List Event} (h : Passes s rest t) :
      Passes s (.lookup side name ((s.stack side).lookup name) :: rest) t

namespace Passes

variable {s t u : Scope} {side : Side} {front back events history : List Event}

theorem append (hfront : Passes s front t) (hback : Passes t back u) :
    Passes s (front ++ back) u := by
  induction hfront with
  | nil => exact hback
  | bind _ ih => exact .bind (ih hback)
  | drop hleave _ ih => exact .drop hleave (ih hback)
  | lookup _ ih => exact .lookup (ih hback)

theorem exists_of_append (h : Passes s (front ++ back) u) :
    ∃ t, Passes s front t ∧ Passes t back u := by
  induction front generalizing s with
  | nil => exact ⟨s, .nil s, h⟩
  | cons event front ih =>
    cases h with
    | bind h =>
      obtain ⟨t, hfront, hback⟩ := ih h
      exact ⟨t, .bind hfront, hback⟩
    | drop hleave h =>
      obtain ⟨t, hfront, hback⟩ := ih h
      exact ⟨t, .drop hleave hfront, hback⟩
    | lookup h =>
      obtain ⟨t, hfront, hback⟩ := ih h
      exact ⟨t, .lookup hfront, hback⟩

theorem exists_of_cons {event : Event} {rest : List Event} (h : Passes s (event :: rest) u) :
    ∃ t, Passes s [event] t ∧ Passes t rest u := by
  rw [← List.singleton_append] at h
  exact exists_of_append h

theorem added (s : Scope) (side : Side) (bindings : List (String × side.Value)) :
    Passes s (added side bindings) (s.enter side bindings) := by
  induction bindings generalizing s with
  | nil =>
    have hsame : s.enter side [] = s := s.withStack_stack side
    rw [hsame]
    exact .nil s
  | cons binding bindings ih =>
    rw [Scope.enter_cons]
    exact .bind (ih _)

theorem past (s : Scope) : Passes .empty (past s) s := by
  have hvars := added .empty .vars s.vars.toList
  have hfuns := added (Scope.empty.enter .vars s.vars.toList) .funs s.funs.toList
  have hall : (Scope.empty.enter .vars s.vars.toList).enter .funs s.funs.toList = s := by
    obtain ⟨⟨vars⟩, ⟨funs⟩⟩ := s
    simp [Scope.enter, Scope.withStack, Scope.stack, Scope.empty, Stack.empty, Stack.pushAll,
      Stack.toList]
  rw [hall] at hfuns
  exact hvars.append hfuns

end Passes

/-! ### One event -/

/-- What an event does to the entries of a side. -/
inductive Effect (side : Side) : Event → (entries after : List (String × side.Value)) → Prop where
  | keeps {event : Event} {entries : List (String × side.Value)} (h : event.rise side = 0) :
      Effect side event entries entries
  | binds {name : String} {value : side.Value} {entries : List (String × side.Value)} :
      Effect side (.bind side name value) entries ((name, value) :: entries)
  | drops {count : Int} {entries : List (String × side.Value)} (hpos : 0 ≤ count)
      (hle : count ≤ entries.length) :
      Effect side (.drop side count) entries (entries.drop count.toNat)

theorem Passes.effect {s t : Scope} {event : Event} (h : Passes s [event] t) (side : Side) :
    Effect side event (s.stack side).entries (t.stack side).entries := by
  cases h with
  | @bind _ _ other name value _ h =>
    cases h
    by_cases hside : other = side
    · subst hside
      rw [Scope.stack_enter]
      exact .binds
    · rw [Scope.stack_enter_of_ne s hside]
      exact .keeps (if_neg hside)
  | @drop _ s' _ other count _ hleave h =>
    cases h
    obtain ⟨hpos, hle, rfl⟩ := Scope.leave_eq_ok hleave
    by_cases hside : other = side
    · subst hside
      rw [Scope.stack_withStack]
      exact .drops hpos hle
    · rw [Scope.stack_withStack_of_ne s hside]
      exact .keeps (if_neg hside)
  | lookup h =>
    cases h
    exact .keeps rfl

theorem rise_bind (side : Side) (name : String) (value : side.Value) :
    (Event.bind side name value).rise side = 1 := if_pos rfl

theorem rise_drop (side : Side) (count : Int) : (Event.drop side count).rise side = -count :=
  if_pos rfl

section Effect

variable {side : Side} {event : Event} {entries after : List (String × side.Value)}

theorem Effect.length_eq (h : Effect side event entries after) :
    (after.length : Int) = entries.length + event.rise side := by
  cases h with
  | keeps h =>
    rw [h]
    omega
  | binds =>
    rw [rise_bind, List.length_cons]
    omega
  | drops hpos hle =>
    rw [rise_drop, List.length_drop]
    omega

/-- Entries that an event does not reach stay where they are. -/
theorem Effect.exists_upper (h : Effect side event entries after)
    {upper lower : List (String × side.Value)} (hentries : entries = upper ++ lower)
    (habove : 0 ≤ upper.length + event.rise side) :
    ∃ upper', after = upper' ++ lower ∧ (upper'.length : Int) = upper.length + event.rise side := by
  have hlength := h.length_eq
  cases h with
  | keeps h => exact ⟨upper, hentries, by omega⟩
  | @binds name value =>
    refine ⟨(name, value) :: upper, by rw [hentries, List.cons_append], ?_⟩
    rw [rise_bind, List.length_cons]
    omega
  | @drops count _ hpos hle =>
    rw [rise_drop] at habove
    refine ⟨upper.drop count.toNat, ?_, ?_⟩
    · rw [hentries, List.drop_append_of_le_length (by omega)]
    · rw [rise_drop, List.length_drop]
      omega

end Effect

/-! ### Many events -/

namespace Passes

variable {s t u : Scope} {side : Side} {events history : List Event}

/-- **The height of a stack is what the events add up to.** -/
theorem size_eq (h : Passes s events t) (side : Side) :
    ((t.stack side).size : Int) = (s.stack side).size + rise side events := by
  induction events generalizing s with
  | nil =>
    cases h
    simp
  | cons event rest ih =>
    obtain ⟨m, hfirst, hrest⟩ := exists_of_cons h
    have heffect : ((m.stack side).size : Int) = (s.stack side).size + event.rise side :=
      (hfirst.effect side).length_eq
    rw [ih hrest, heffect, rise_cons]
    omega

/-- **Entries below a height stay** as long as the stack is never lower. -/
theorem exists_upper (h : Passes s events t) {upper lower : List (String × side.Value)}
    (hentries : (s.stack side).entries = upper ++ lower)
    (habove : ∀ n, 0 ≤ upper.length + rise side (events.take n)) :
    ∃ upper', (t.stack side).entries = upper' ++ lower := by
  induction events generalizing s upper with
  | nil =>
    cases h
    exact ⟨upper, hentries⟩
  | cons event rest ih =>
    obtain ⟨m, hfirst, hrest⟩ := exists_of_cons h
    have hone : 0 ≤ upper.length + event.rise side := by simpa using habove 1
    obtain ⟨upper', hentries', hlength⟩ := (hfirst.effect side).exists_upper hentries hone
    refine ih hrest hentries' fun n => ?_
    have hnext := habove (n + 1)
    rw [List.take_succ_cons, rise_cons] at hnext
    omega

end Passes

/-! ### Live bindings -/

section Live

variable {side : Side} {history : List Event} {event : Event} {i : Nat}

/-- An event ends the life of the bindings above the height that it leaves. -/
theorem live_concat (hi : i < history.length) :
    Live side (history ++ [event]) i ↔ Live side history i ∧
      rise side (history.take (i + 1)) ≤ rise side (history ++ [event]) := by
  have hfront : ∀ n ≤ history.length, (history ++ [event]).take n = history.take n :=
    fun n hn => List.take_append_of_le_length hn
  have hall : ∀ n > history.length, (history ++ [event]).take n = history ++ [event] :=
    fun n hn => List.take_of_length_le (by simpa using hn)
  constructor
  · intro h
    refine ⟨fun n hn hlt => ?_, ?_⟩
    · have hle := h n (by rw [List.length_append]; omega) hlt
      rwa [hfront n hn, hfront (i + 1) hi] at hle
    · have hle := h (history.length + 1) (by simp) (by omega)
      rwa [hfront (i + 1) hi, hall _ (Nat.lt_succ_self _)] at hle
  · rintro ⟨hlive, hle⟩ n hn hlt
    rw [hfront (i + 1) hi]
    by_cases hinside : n ≤ history.length
    · rw [hfront n hinside]
      exact hlive n hinside hlt
    · rwa [hall n (Nat.lt_of_not_le hinside)]

theorem live_last : Live side (history ++ [event]) history.length := by
  intro n hn hlt
  rw [List.length_append, List.length_singleton] at hn
  rw [show n = history.length + 1 by omega]

/-- The live binding in place `k` of the stack, counted from the oldest. -/
def LiveAt (side : Side) (history : List Event) (k : Nat) (name : String) (value : side.Value) :
    Prop :=
  ∃ i, history[i]? = some (.bind side name value) ∧ Live side history i ∧
    rise side (history.take (i + 1)) = k + 1

theorem liveAt_concat {k : Nat} {name : String} {value : side.Value} :
    LiveAt side (history ++ [event]) k name value ↔
      (LiveAt side history k name value ∧ (k + 1 : Int) ≤ rise side (history ++ [event])) ∨
      (event = .bind side name value ∧ rise side history = k) := by
  constructor
  · rintro ⟨i, hi, hlive, hheight⟩
    rcases Nat.lt_trichotomy i history.length with hlt | rfl | hgt
    · rw [List.getElem?_append_left hlt] at hi
      rw [List.take_append_of_le_length hlt] at hheight
      rw [live_concat hlt, hheight] at hlive
      exact .inl ⟨⟨i, hi, hlive.1, hheight⟩, hlive.2⟩
    · right
      rw [List.getElem?_concat_length, Option.some.injEq] at hi
      subst hi
      rw [List.take_of_length_le (by simp), rise_append, rise_cons, rise_bind, rise_nil] at hheight
      exact ⟨rfl, by omega⟩
    · rw [List.getElem?_eq_none (by rw [List.length_append, List.length_singleton]; omega)] at hi
      cases hi
  · rintro (⟨⟨i, hi, hlive, hheight⟩, hle⟩ | ⟨rfl, hheight⟩)
    · have hlt : i < history.length := (List.getElem?_eq_some_iff.mp hi).1
      refine ⟨i, ?_, ?_, ?_⟩
      · rwa [List.getElem?_append_left hlt]
      · rw [live_concat hlt, hheight]
        exact ⟨hlive, hle⟩
      · rwa [List.take_append_of_le_length hlt]
    · refine ⟨history.length, List.getElem?_concat_length, live_last, ?_⟩
      rw [List.take_of_length_le (by simp), rise_append, rise_cons, rise_bind, rise_nil]
      omega

end Live

/-- What stands in a place after an event stood there before or has just been added. -/
theorem Effect.getElem?_reverse {side : Side} {event : Event}
    {entries after : List (String × side.Value)} (h : Effect side event entries after) {k : Nat}
    {name : String} {value : side.Value} :
    after.reverse[k]? = some (name, value) ↔
      (entries.reverse[k]? = some (name, value) ∧ k < after.length) ∨
      (event = .bind side name value ∧ entries.length = k) := by
  have hinside : ∀ {list : List (String × side.Value)}, list.reverse[k]? = some (name, value) →
      k < list.length := by
    intro list hlist
    simpa using (List.getElem?_eq_some_iff.mp hlist).1
  cases h with
  | keeps h =>
    constructor
    · exact fun hold => .inl ⟨hold, hinside hold⟩
    · rintro (⟨hold, -⟩ | ⟨rfl, -⟩)
      · exact hold
      · rw [rise_bind] at h
        cases h
  | @binds name' value' =>
    rw [List.reverse_cons, List.length_cons]
    rcases Nat.lt_trichotomy k entries.length with hlt | rfl | hgt
    · rw [List.getElem?_append_left (by simpa using hlt)]
      constructor
      · exact fun hold => .inl ⟨hold, by omega⟩
      · rintro (⟨hold, -⟩ | ⟨-, heq⟩)
        · exact hold
        · omega
    · simp
    · rw [List.getElem?_eq_none (by simpa using hgt)]
      constructor
      · intro hnone
        cases hnone
      · rintro (⟨-, hlt⟩ | ⟨-, heq⟩)
        · omega
        · omega
  | @drops count _ hpos hle =>
    rw [List.reverse_drop, List.getElem?_take, List.length_drop]
    split
    · rename_i hlt
      simp [hlt]
    · rename_i hge
      simp [hge]

theorem stack_empty (side : Side) : Scope.empty.stack side = .empty := by
  cases side <;> rfl

theorem Passes.length_entries {history : List Event} {t : Scope} (h : Passes .empty history t)
    (side : Side) : ((t.stack side).entries.length : Int) = rise side history := by
  have hsize := h.size_eq side
  rwa [stack_empty, Stack.empty, Stack.size, Stack.size, List.length_nil, Int.natCast_zero,
    Int.zero_add] at hsize

/-- **The entries of a stack are the live bindings**, in the order they were added. -/
theorem Passes.getElem?_toList {history : List Event} {t : Scope} (h : Passes .empty history t)
    {side : Side} {k : Nat} {name : String} {value : side.Value} :
    (t.stack side).toList[k]? = some (name, value) ↔ LiveAt side history k name value := by
  induction history using List.reverseRecOn generalizing t with
  | nil =>
    cases h
    rw [stack_empty]
    constructor
    · intro hentry
      cases hentry
    · rintro ⟨i, hi, -⟩
      cases hi
  | append_singleton history event ih =>
    obtain ⟨m, hfront, hlast⟩ := h.exists_of_append
    rw [liveAt_concat, ← ih hfront, ← hfront.length_entries, ← h.length_entries, Stack.toList,
      (hlast.effect side).getElem?_reverse, Stack.toList]
    apply or_congr
    · exact and_congr_right fun _ => by omega
    · exact and_congr_right fun _ => by omega

end Script

/-- A name means the last of its entries, counted from the oldest. -/
theorem Stack.lookup_eq_some_iff {α : Type} {s : Stack α} {name : String} {value : α} :
    s.lookup name = some value ↔ ∃ k : Nat, s.toList[k]? = some (name, value) ∧
      ∀ k' > k, ∀ value', s.toList[k']? ≠ some (name, value') := by
  constructor
  · intro h
    obtain ⟨⟨name', value'⟩, hfind, rfl⟩ := Option.map_eq_some_iff.mp h
    obtain ⟨hname, newer, older, hentries, hnewer⟩ := List.find?_eq_some_iff_append.mp hfind
    obtain rfl : name' = name := by simpa using hname
    have hlist : s.toList = older.reverse ++ (name', value') :: newer.reverse := by
      simp [toList, hentries]
    refine ⟨older.reverse.length, ?_, ?_⟩
    · rw [hlist, List.getElem?_append_right (Nat.le_refl _), Nat.sub_self]
      rfl
    · intro k' hk' other hother
      rw [hlist, List.getElem?_append_right (Nat.le_of_lt hk'), List.getElem?_cons,
        if_neg (by omega)] at hother
      have hmem : (name', other) ∈ newer := by simpa using List.mem_of_getElem? hother
      simpa using hnewer _ hmem
  · rintro ⟨k, hk, hlater⟩
    have hlt : k < s.toList.length := (List.getElem?_eq_some_iff.mp hk).1
    have hentries : s.entries =
        (s.toList.drop (k + 1)).reverse ++ (name, value) :: (s.toList.take k).reverse := by
      have hsplit : s.toList = s.toList.take k ++ (name, value) :: s.toList.drop (k + 1) := by
        rw [← (List.getElem?_eq_some_iff.mp hk).2, ← List.drop_eq_getElem_cons hlt,
          List.take_append_drop]
      have hreverse := congrArg List.reverse hsplit
      rwa [toList, List.reverse_reverse, List.reverse_append, List.reverse_cons, List.append_assoc,
        List.singleton_append] at hreverse
    have hnone : (s.toList.drop (k + 1)).reverse.find? (fun entry => entry.1 = name) = none := by
      rw [List.find?_eq_none]
      rintro ⟨name', value'⟩ hmem hname
      obtain rfl : name' = name := by simpa using hname
      obtain ⟨j, hj⟩ := List.mem_iff_getElem?.mp (List.mem_reverse.mp hmem)
      rw [List.getElem?_drop] at hj
      exact hlater (k + 1 + j) (by omega) value' hj
    rw [lookup, hentries, List.find?_append, hnone]
    simp

namespace Script

section Latest

variable {history : List Event} {t : Scope} {side : Side} {name : String} {value : side.Value}

/-- A later binding stands higher than one that is still live. -/
theorem rise_lt_of_live {i j : Nat} (hlive : Live side history i) (hij : i < j)
    (hj : history[j]? = some (.bind side name value)) :
    rise side (history.take (i + 1)) < rise side (history.take (j + 1)) := by
  have hlt : j < history.length := (List.getElem?_eq_some_iff.mp hj).1
  have hle := hlive j hlt.le hij
  have hnext : rise side (history.take (j + 1)) = rise side (history.take j) + 1 := by
    rw [List.take_add_one, hj, Option.toList_some, rise_append, rise_cons, rise_bind, rise_nil]
    rfl
  omega

theorem Passes.exists_liveAt (h : Passes .empty history t) {i : Nat}
    (hi : history[i]? = some (.bind side name value)) (hlive : Live side history i) :
    ∃ k : Nat, rise side (history.take (i + 1)) = k + 1 ∧
      (t.stack side).toList[k]? = some (name, value) := by
  have hsplit : Passes .empty (history.take i ++ history.drop i) t := by
    rwa [List.take_append_drop]
  obtain ⟨m, hfront, -⟩ := hsplit.exists_of_append
  have hheight : rise side (history.take (i + 1)) = (m.stack side).entries.length + 1 := by
    rw [List.take_add_one, hi, Option.toList_some, rise_append, rise_cons, rise_bind, rise_nil,
      hfront.length_entries]
    rfl
  exact ⟨_, hheight, h.getElem?_toList.mpr ⟨i, hi, hlive, hheight⟩⟩

/-- **A name means its latest live binding.** -/
theorem Passes.lookup_eq_some_iff (h : Passes .empty history t) :
    (t.stack side).lookup name = some value ↔ Latest side history name value := by
  rw [Stack.lookup_eq_some_iff]
  constructor
  · rintro ⟨k, hk, hlater⟩
    obtain ⟨i, hi, hlive, hheight⟩ := h.getElem?_toList.mp hk
    refine ⟨i, hi, hlive, fun j hij value' hj hlive' => ?_⟩
    obtain ⟨k', hheight', hk'⟩ := h.exists_liveAt hj hlive'
    have hlt := rise_lt_of_live hlive hij hj
    exact hlater k' (by omega) value' hk'
  · rintro ⟨i, hi, hlive, hlater⟩
    obtain ⟨k, hheight, hk⟩ := h.exists_liveAt hi hlive
    refine ⟨k, hk, fun k' hkk' value' hk' => ?_⟩
    obtain ⟨j, hj, hlive', hheight'⟩ := h.getElem?_toList.mp hk'
    rcases Nat.lt_trichotomy i j with hij | rfl | hji
    · exact hlater j hij value' hj hlive'
    · omega
    · have hlt := rise_lt_of_live hlive' hji hi
      omega

end Latest

/-! ### Ways a script can go -/

/-- The events of an action that is no block, by its answer. -/
def Action.events : Action → Except Error Answer → List Event
  | .push side bindings, .ok _ => added side bindings
  | .pop side count, .ok _ => [.drop side count]
  | .lookup _ name, .ok (.found side answer) => [.lookup side name answer]
  | _, _ => []

/-- The error of an answer. -/
def error? : Except Error Answer → Option Error
  | .ok _ => none
  | .error e => some e

mutual

/-- A way an action can go: the events on the way, the error at its end, and the scope reached. -/
inductive Goes : Scope → Action → List Event → Option Error → Scope → Prop where
  | simple {s after : Scope} {action : Action} {answer : Except Error Answer}
      (h : action.perform s = .mk answer none after) :
      Goes s action (action.events answer) (error? answer) after
  | block {s reached after : Scope} {side : Side} {bindings : List (String × side.Value)}
      {actions : List Action} {breaksOff : Bool} {inside : List Event} {ending : Option Error}
      (hinside : GoesOn (s.enter side bindings) actions inside ending reached)
      (hleave : reached.leave side bindings.length = .ok after) :
      Goes s (.block side bindings actions breaksOff)
        (added side bindings ++ inside ++ [.drop side bindings.length])
        (ending.or (if breaksOff then some .brokenOff else none)) after
  | stuck {s reached : Scope} {side : Side} {bindings : List (String × side.Value)}
      {actions : List Action} {breaksOff : Bool} {inside : List Event} {ending : Option Error}
      {e : Stack.PopError}
      (hinside : GoesOn (s.enter side bindings) actions inside ending reached)
      (hleave : reached.leave side bindings.length = .error e) :
      Goes s (.block side bindings actions breaksOff) (added side bindings ++ inside)
        (some (.pop e)) reached

/-- A way actions can go one after the other. -/
inductive GoesOn : Scope → List Action → List Event → Option Error → Scope → Prop where
  | done (s : Scope) : GoesOn s [] [] none s
  /-- An error from elsewhere. -/
  | broken (s : Scope) (actions : List Action) (e : Error) : GoesOn s actions [] (some e) s
  /-- An action without error, or with one that is caught. -/
  | next {s after reached : Scope} {action : Action} {rest : List Action}
      {events more : List Event} {ending ending' : Option Error}
      (hfirst : Goes s action events ending after)
      (hrest : GoesOn after rest more ending' reached) :
      GoesOn s (action :: rest) (events ++ more) ending' reached
  /-- An action with an error that is not caught. -/
  | raises {s after : Scope} {action : Action} {rest : List Action} {events : List Event}
      {e : Error} (hfirst : Goes s action events (some e) after) :
      GoesOn s (action :: rest) events (some e) after

end

theorem runSource_scope (source : String) (depth : Option Int) (s : Scope) :
    (runSource source depth s).2 = s := by
  unfold runSource
  split
  · rfl
  · split
    · rfl
    · rename_i hrun
      have hscope := Eval.evaluateIn_scope hrun
      split
      · exact hscope
      · exact hscope

/-- The events of an action that is no block. -/
theorem passes_events {s after : Scope} {action : Action} {answer : Except Error Answer}
    (h : action.perform s = .mk answer none after) : Passes s (action.events answer) after := by
  cases action with
  | push side bindings =>
    cases h
    exact .added s side bindings
  | pop side count =>
    rw [Action.perform] at h
    split at h
    · rename_i s' hleave
      cases h
      exact .drop hleave (.nil _)
    · cases h
      exact .nil _
  | lookup side name =>
    cases h
    exact .lookup (.nil _)
  | names side =>
    cases h
    exact .nil _
  | run source depth =>
    have hafter : (runSource source depth s).2 = after := (Step.mk.inj h).2.2
    rw [← hafter, runSource_scope]
    exact .nil s
  | block side bindings actions breaksOff =>
    -- the step of a block has the steps of its actions in it
    rw [Action.perform] at h
    simp only at h
    split at h
    · cases h
    · cases h
  | unreadable r =>
    cases h
    exact .nil _

mutual

theorem Goes.passes {s after : Scope} {action : Action} {events : List Event}
    {ending : Option Error} : Goes s action events ending after → Passes s events after
  | .simple h => passes_events h
  | .block hinside hleave =>
    ((Passes.added _ _ _).append hinside.passes).append (.drop hleave (.nil _))
  | .stuck hinside _ => (Passes.added _ _ _).append hinside.passes

theorem GoesOn.passes {s reached : Scope} {actions : List Action} {events : List Event}
    {ending : Option Error} : GoesOn s actions events ending reached → Passes s events reached
  | .done s => .nil s
  | .broken s _ _ => .nil s
  | .next hfirst hrest => hfirst.passes.append hrest.passes
  | .raises hfirst => hfirst.passes

end

theorem perform_pop_ok {s after : Scope} {side : Side} {count : Int}
    (h : s.leave side count = .ok after) :
    (Action.pop side count).perform s = .mk (.ok .done) none after := by
  simp only [Action.perform, h]

theorem perform_pop_error {s : Scope} {side : Side} {count : Int} {e : Stack.PopError}
    (h : s.leave side count = .error e) :
    (Action.pop side count).perform s = .mk (.error (.pop e)) none s := by
  simp only [Action.perform, h]

mutual

/-- What `perform` does with an action is a way it can go. -/
theorem perform_goes (s : Scope) : ∀ action : Action, ∃ events answer inner after,
    action.perform s = .mk answer inner after ∧ Goes s action events (error? answer) after
  | .push side bindings => ⟨_, _, _, _, rfl, .simple rfl⟩
  | .pop side count => by
    cases hleave : s.leave side count with
    | ok after => exact ⟨_, _, _, _, perform_pop_ok hleave, .simple (perform_pop_ok hleave)⟩
    | error e => exact ⟨_, _, _, _, perform_pop_error hleave, .simple (perform_pop_error hleave)⟩
  | .lookup side name => ⟨_, _, _, _, rfl, .simple rfl⟩
  | .names side => ⟨_, _, _, _, rfl, .simple rfl⟩
  | .run source depth => ⟨_, _, _, _, rfl, .simple rfl⟩
  | .block side bindings actions breaksOff => by
    obtain ⟨inside, hinside⟩ := performAll_goesOn (s.enter side bindings) actions
    rw [Action.perform]
    cases hleave : (performAll (s.enter side bindings) actions).2.leave side bindings.length with
    | error e =>
      simp only [hleave]
      exact ⟨_, _, _, _, rfl, .stuck hinside hleave⟩
    | ok after =>
      simp only [hleave]
      refine ⟨added side bindings ++ inside ++ [.drop side bindings.length], _, _, _, rfl, ?_⟩
      cases breaksOff with
      | false => exact .block hinside hleave
      | true => exact .block hinside hleave
  | .unreadable r => ⟨_, _, _, _, rfl, .simple rfl⟩

/-- What `performAll` does is a way actions can go, the one that catches every error. -/
theorem performAll_goesOn (s : Scope) : ∀ actions : List Action,
    ∃ events, GoesOn s actions events none (performAll s actions).2
  | [] => ⟨[], .done s⟩
  | action :: rest => by
    obtain ⟨events, answer, inner, after, hperform, hfirst⟩ := perform_goes s action
    obtain ⟨more, hrest⟩ := performAll_goesOn after rest
    refine ⟨events ++ more, ?_⟩
    rw [performAll]
    simp only [hperform]
    exact .next hfirst hrest

end

/-! ### Blocks -/

section Block

variable {s reached : Scope} {side : Side} {bindings : List (String × side.Value)}
  {actions : List Action} {inside : List Event} {ending : Option Error}

/-- Events that never go below the height they start from and end at it leave a stack as it was. -/
theorem Passes.stack_eq (h : Passes s inside reached)
    (habove : ∀ n, 0 ≤ rise side (inside.take n)) (hlevel : rise side inside = 0) :
    reached.stack side = s.stack side := by
  obtain ⟨upper, hupper⟩ : ∃ upper, (reached.stack side).entries = upper ++ (s.stack side).entries :=
    h.exists_upper (List.nil_append _).symm (by simpa using habove)
  have hsize : (reached.stack side).entries.length = (s.stack side).entries.length := by
    have hsize := h.size_eq side
    rw [hlevel, Int.add_zero] at hsize
    exact Int.ofNat.inj hsize
  -- nothing is left on top of what was there
  have hnil : upper = [] := by
    rw [hupper, List.length_append] at hsize
    exact List.length_eq_zero_iff.mp (by omega)
  rw [hnil, List.nil_append] at hupper
  exact congrArg Stack.mk hupper

theorem exists_leave (hstack : reached.stack side = (s.enter side bindings).stack side) :
    ∃ after, reached.leave side bindings.length = .ok after ∧ after.stack side = s.stack side ∧
      ∀ other ≠ side, after.stack other = reached.stack other := by
  refine ⟨reached.withStack side (s.stack side), ?_, reached.stack_withStack side _, ?_⟩
  · rw [Scope.leave, hstack, Scope.stack_enter, Stack.pop_pushAll]
  · intro other hother
    exact reached.stack_withStack_of_ne hother.symm _

/-- What is looked up in a block is the latest live binding, those made before the block included. -/
theorem GoesOn.answer_eq (h : GoesOn (s.enter side bindings) actions inside ending reached)
    {front back : List Event} {other : Side} {name : String} {answer : Option other.Value}
    (hinside : inside = front ++ .lookup other name answer :: back) (value : other.Value) :
    answer = some value ↔ Latest other (past s ++ added side bindings ++ front) name value := by
  have hpasses := h.passes
  rw [hinside] at hpasses
  obtain ⟨t, hfront, hback⟩ := hpasses.exists_of_append
  have hhistory : Passes .empty (past s ++ added side bindings ++ front) t :=
    ((Passes.past s).append (.added s side bindings)).append hfront
  cases hback
  exact hhistory.lookup_eq_some_iff

end Block

theorem leave_eq_error {s : Scope} {side : Side} {count : Int}
    (h : count < 0 ∨ ((s.stack side).size : Int) < count) :
    s.leave side count = .error ⟨count, (s.stack side).size⟩ := by
  rw [Scope.leave, Stack.pop, if_pos h]

/-- **Blocks give back what they found.**  However the actions of a block go and end, by an error at
    any point or without one: if the stack of the block is never lower on the way than at their
    start and as high at their end, then leaving the block is not refused and brings back the
    entries that were there before it.  On the way a name means its latest live binding.  Taking
    off a negative number of entries, or more than there are, is an error that changes nothing.
    What `performAll` does with the actions is one of the ways they can go. -/
theorem block_restores (s : Scope) (side : Side) (bindings : List (String × side.Value))
    (actions : List Action) :
    (∀ inside ending reached, GoesOn (s.enter side bindings) actions inside ending reached →
      ((∀ n, 0 ≤ rise side (inside.take n)) → rise side inside = 0 →
        ∃ after, reached.leave side bindings.length = .ok after ∧
          after.stack side = s.stack side ∧
          ∀ other ≠ side, after.stack other = reached.stack other) ∧
      ∀ front back other name answer, inside = front ++ .lookup other name answer :: back →
        ∀ value, answer = some value ↔
          Latest other (past s ++ added side bindings ++ front) name value) ∧
    (∀ (t : Scope) (other : Side) (count : Int), count < 0 ∨ ((t.stack other).size : Int) < count →
      (Action.pop other count).perform t =
        .mk (.error (.pop ⟨count, (t.stack other).size⟩)) none t) ∧
    ∃ inside, GoesOn (s.enter side bindings) actions inside none
      (performAll (s.enter side bindings) actions).2 := by
  refine ⟨?_, ?_, performAll_goesOn _ actions⟩
  · intro inside ending reached hgoes
    constructor
    · intro habove hlevel
      exact exists_leave (hgoes.passes.stack_eq habove hlevel)
    · intro front back other name answer hinside
      exact hgoes.answer_eq hinside
  · intro t other count hcount
    exact perform_pop_error (leave_eq_error hcount)

/-- A scope with one variable. -/
def startingScope : Scope :=
  Scope.empty.enter .vars [("x", 0)]

/-- A block in a block, which a removal of too many entries ends, and with it the block around it. -/
def nestedActions : List Action :=
  [.push .vars [("x", 2)], .pop .vars 1,
    .block .vars [("y", 3)] [.lookup .vars "x", .pop .vars 9, .names .vars] false,
    .push .vars [("x", 4)]]

/-- What happens to the variables on the way. -/
def nestedEvents : List Event :=
  [.bind .vars "x" 2, .drop .vars 1, .bind .vars "y" 3, .lookup .vars "x" (some 1), .drop .vars 1]

theorem nestedActions_goesOn :
    GoesOn (startingScope.enter .vars [("x", 1)]) nestedActions nestedEvents (some (.pop ⟨9, 3⟩))
      (startingScope.enter .vars [("x", 1)]) := by
  let entered := startingScope.enter .vars [("x", 1)]
  let inner := entered.enter .vars [("y", 3)]
  have hlookup : Goes inner (.lookup .vars "x") [.lookup .vars "x" (some 1)] none inner :=
    @Goes.simple inner inner (.lookup .vars "x") (.ok (.found .vars (some 1))) rfl
  have hpop : Goes inner (.pop .vars 9) [] (some (.pop ⟨9, 3⟩)) inner :=
    @Goes.simple inner inner (.pop .vars 9) (.error (.pop ⟨9, 3⟩)) rfl
  have hblock : Goes entered
      (.block .vars [("y", 3)] [.lookup .vars "x", .pop .vars 9, .names .vars] false)
      [.bind .vars "y" 3, .lookup .vars "x" (some 1), .drop .vars 1] (some (.pop ⟨9, 3⟩)) entered :=
    .block (.next hlookup (.raises hpop)) rfl
  have hpush : Goes entered (.push .vars [("x", 2)]) [.bind .vars "x" 2] none
      (entered.enter .vars [("x", 2)]) :=
    @Goes.simple entered _ (.push .vars [("x", 2)]) (.ok .done) rfl
  have hdrop : Goes (entered.enter .vars [("x", 2)]) (.pop .vars 1) [.drop .vars 1] none entered :=
    @Goes.simple _ entered (.pop .vars 1) (.ok .done) rfl
  exact .next hpush (.next hdrop (.raises hblock))

theorem nestedActions_restored :
    (∀ n, 0 ≤ rise .vars (nestedEvents.take n)) ∧ rise .vars nestedEvents = 0 ∧
    (∃ after, (startingScope.enter .vars [("x", 1)]).leave .vars 1 = .ok after ∧
      after.stack .vars = startingScope.stack .vars) ∧
    Latest .vars (past startingScope ++ added .vars [("x", 1)] ++ nestedEvents.take 3) "x" 1 := by
  have habove : ∀ n, 0 ≤ rise .vars (nestedEvents.take n) := by
    intro n
    by_cases hn : n ≤ 5
    · interval_cases n <;> decide
    · rw [List.take_of_length_le (by simp [nestedEvents]; omega)]
      decide
  have hlevel : rise .vars nestedEvents = 0 := by decide
  obtain ⟨hways, -, -⟩ := block_restores startingScope .vars [("x", 1)] nestedActions
  obtain ⟨hrestores, hanswers⟩ := hways _ _ _ nestedActions_goesOn
  obtain ⟨after, hleave, hstack, -⟩ := hrestores habove hlevel
  refine ⟨habove, hlevel, ⟨after, hleave, hstack⟩, ?_⟩
  exact (hanswers (nestedEvents.take 3) [.drop .vars 1] .vars "x" (some 1) rfl 1).mp rfl

end Script
end Abacus
