/-
  Abacus/Proofs/Closedness.lean
  =============================
  **Lexical closedness is enough under dynamic scoping.**  The body of a function runs with the
  names that are bound where it is called, not with those around its declaration.  Still, if
  every name is declared around the places where it stands, none is ever found missing: a
  function can only be called while its declaration is in force, and everything that was bound
  around the declaration is bound as long as that is.  A later declaration may give a name
  another meaning; it does not take the name away.

  `Part` says what stands directly inside what, and which names are declared on the way in;
  `Occurs` follows it to any depth.  The invariant `Ready` ties the bodies of the functions in
  force to the names in force.
-/
import Abacus.Proofs.Extension
import Abacus.Proofs.Provenance

namespace Abacus.Eval

/-! ### Names in force -/

/-- The names of variables and of functions that have a meaning. -/
structure Names where
  vars : Set String
  funs : Set String

namespace Names

def empty : Names := ⟨∅, ∅⟩

def addVar (names : Names) (name : String) : Names :=
  { names with vars := insert name names.vars }

def addVars (names : Names) (params : List String) : Names :=
  { names with vars := { name | name ∈ params } ∪ names.vars }

def addFun (names : Names) (name : String) : Names :=
  { names with funs := insert name names.funs }

/-- The names of one kind. -/
def on (names : Names) : Side → Set String
  | .vars => names.vars
  | .funs => names.funs

/-- The second names are the first and perhaps more. -/
structure Within (names names' : Names) : Prop where
  vars : names.vars ⊆ names'.vars
  funs : names.funs ⊆ names'.funs

namespace Within

variable {names names' : Names}

theorem on (h : names.Within names') (side : Side) : names.on side ⊆ names'.on side := by
  cases side with
  | vars => exact h.vars
  | funs => exact h.funs

theorem addVar (h : names.Within names') (name : String) :
    (names.addVar name).Within (names'.addVar name) :=
  ⟨Set.insert_subset_insert h.vars, h.funs⟩

theorem addVars (h : names.Within names') (params : List String) :
    (names.addVars params).Within (names'.addVars params) :=
  ⟨Set.union_subset_union_right _ h.vars, h.funs⟩

theorem addFun (h : names.Within names') (name : String) :
    (names.addFun name).Within (names'.addFun name) :=
  ⟨h.vars, Set.insert_subset_insert h.funs⟩

end Within

theorem within_addFun (names : Names) (name : String) : names.Within (names.addFun name) :=
  ⟨subset_rfl, Set.subset_insert name names.funs⟩

end Names

/-- The names that an environment gives a meaning. -/
def Env.names (env : Env) : Names :=
  ⟨{ name | (env.vars name).isSome }, { name | (env.funs name).isSome }⟩

theorem Env.names_bindVar (env : Env) (name : String) (x : Float) :
    (env.bindVar name x).names = env.names.addVar name := by
  simp only [Env.names, Env.bindVar, Names.addVar, Names.mk.injEq, and_true]
  ext other
  by_cases hname : other = name <;> simp [hname]

theorem Env.names_bindVars (env : Env) (bindings : List (String × Float)) :
    (env.bindVars bindings).names = env.names.addVars (bindings.map Prod.fst) := by
  induction bindings generalizing env with
  | nil => simp [Env.bindVars, Names.addVars]
  | cons binding bindings ih =>
    have hrest := ih (env.bindVar binding.1 binding.2)
    rw [Env.names_bindVar] at hrest
    rw [Env.bindVars, List.foldl_cons, ← Env.bindVars, hrest]
    simp only [Names.addVars, Names.addVar, Names.mk.injEq, and_true]
    ext other
    simp only [Set.mem_union, Set.mem_ofPred_eq, Set.mem_insert_iff, List.map_cons, List.mem_cons]
    tauto

theorem Env.names_bindFun (env : Env) (f : Definition) :
    (env.bindFun f).names = env.names.addFun f.name := by
  simp only [Env.names, Env.bindFun, Names.addFun, Names.mk.injEq, true_and]
  ext other
  by_cases hname : other = f.name <;> simp [hname]

theorem Env.Extends.within {env env' : Env} (h : env.Extends env') :
    env.names.Within env'.names := by
  refine ⟨fun name hname => h.vars name hname, ?_⟩
  intro name hname
  simpa only [Env.names, h.funs] using hname

theorem Scope.names_empty : Scope.empty.env.names = .empty := by
  simp [Env.names, Scope.env, Scope.empty, Stack.empty, Stack.lookup, Names.empty]

/-! ### Occurrences -/

/-- An expression and the names that are declared around it. -/
structure Place where
  names : Names
  expr : Expr

/-- The second place is directly inside the first. -/
inductive Part : Place → Place → Prop where
  | operand {names : Names} {operand : Expr} : Part ⟨names, .neg operand⟩ ⟨names, operand⟩
  | left {names : Names} {op : Operator} {left right : Expr} :
      Part ⟨names, .bin op left right⟩ ⟨names, left⟩
  | right {names : Names} {op : Operator} {left right : Expr} :
      Part ⟨names, .bin op left right⟩ ⟨names, right⟩
  | arg {names : Names} {function : String} {args : List Expr} {arg : Expr} (h : arg ∈ args) :
      Part ⟨names, .call function args⟩ ⟨names, arg⟩
  | rhs {names : Names} {name : String} {rhs next : Expr} :
      Part ⟨names, .letIn name rhs next⟩ ⟨names, rhs⟩
  | afterLet {names : Names} {name : String} {rhs next : Expr} :
      Part ⟨names, .letIn name rhs next⟩ ⟨names.addVar name, next⟩
  | body {names : Names} {name : String} {params : List String} {body next : Expr} :
      Part ⟨names, .fnIn name params body next⟩ ⟨(names.addFun name).addVars params, body⟩
  | afterFn {names : Names} {name : String} {params : List String} {body next : Expr} :
      Part ⟨names, .fnIn name params body next⟩ ⟨names.addFun name, next⟩

/-- The second place is somewhere inside the first, or is the first. -/
abbrev Occurs : Place → Place → Prop :=
  Relation.ReflTransGen Part

/-- The name that an expression needs to have a meaning, apart from its parts. -/
def needs : Side → Expr → Option String
  | .vars, .var name => some name
  | .funs, .call function _ => some function
  | _, _ => none

/-- Every name of a kind that occurs at a place is declared around its occurrence. -/
def ClosedAt (side : Side) (place : Place) : Prop :=
  ∀ inner, Occurs place inner → ∀ name ∈ needs side inner.expr, name ∈ inner.names.on side

/-- Every name of a kind is declared around its occurrences: a variable by a `let` before it or
    as a parameter of a function whose body it stands in, a function by an `fn` before it or
    around it. -/
def Closed (side : Side) (e : Expr) : Prop :=
  ClosedAt side ⟨.empty, e⟩

theorem ClosedAt.part {side : Side} {place inner : Place} (h : ClosedAt side place)
    (hpart : Part place inner) : ClosedAt side inner :=
  fun innermost hoccurs => h innermost (.head hpart hoccurs)

theorem ClosedAt.of_parts {side : Side} {place : Place}
    (hown : ∀ name ∈ needs side place.expr, name ∈ place.names.on side)
    (hparts : ∀ inner, Part place inner → ClosedAt side inner) : ClosedAt side place := by
  intro innermost hoccurs
  rcases hoccurs.cases_head with rfl | ⟨inner, hpart, hrest⟩
  · exact hown
  · exact hparts inner hpart innermost hrest

namespace ClosedAt

variable {side : Side} {names : Names}

theorem num {x : Float} : ClosedAt side ⟨names, .num x⟩ := by
  apply of_parts
  · cases side <;> rintro _ ⟨⟩
  · rintro _ ⟨⟩

theorem var {name : String} (h : side = .vars → name ∈ names.vars) :
    ClosedAt side ⟨names, .var name⟩ := by
  apply of_parts
  · cases side with
    | vars =>
      rintro _ ⟨⟩
      exact h rfl
    | funs => rintro _ ⟨⟩
  · rintro _ ⟨⟩

theorem neg {operand : Expr} (h : ClosedAt side ⟨names, operand⟩) :
    ClosedAt side ⟨names, .neg operand⟩ := by
  apply of_parts
  · cases side <;> rintro _ ⟨⟩
  · rintro _ ⟨⟩
    exact h

theorem bin {op : Operator} {left right : Expr} (hleft : ClosedAt side ⟨names, left⟩)
    (hright : ClosedAt side ⟨names, right⟩) : ClosedAt side ⟨names, .bin op left right⟩ := by
  apply of_parts
  · cases side <;> rintro _ ⟨⟩
  · rintro _ ⟨⟩
    · exact hleft
    · exact hright

theorem call {function : String} {args : List Expr} (h : side = .funs → function ∈ names.funs)
    (hargs : ∀ arg ∈ args, ClosedAt side ⟨names, arg⟩) :
    ClosedAt side ⟨names, .call function args⟩ := by
  apply of_parts
  · cases side with
    | vars => rintro _ ⟨⟩
    | funs =>
      rintro _ ⟨⟩
      exact h rfl
  · rintro _ ⟨⟩
    rename_i arg harg
    exact hargs arg harg

theorem letIn {name : String} {rhs next : Expr} (hrhs : ClosedAt side ⟨names, rhs⟩)
    (hnext : ClosedAt side ⟨names.addVar name, next⟩) :
    ClosedAt side ⟨names, .letIn name rhs next⟩ := by
  apply of_parts
  · cases side <;> rintro _ ⟨⟩
  · rintro _ ⟨⟩
    · exact hrhs
    · exact hnext

theorem fnIn {name : String} {params : List String} {body next : Expr}
    (hbody : ClosedAt side ⟨(names.addFun name).addVars params, body⟩)
    (hnext : ClosedAt side ⟨names.addFun name, next⟩) :
    ClosedAt side ⟨names, .fnIn name params body next⟩ := by
  apply of_parts
  · cases side <;> rintro _ ⟨⟩
  · rintro _ ⟨⟩
    · exact hbody
    · exact hnext

end ClosedAt

/-- A part of an expression is the same part where more names are declared. -/
theorem Part.widen {names names' : Names} {e : Expr} {inner : Place} (h : Part ⟨names', e⟩ inner)
    (hnames : names.Within names') :
    ∃ inner₀, Part ⟨names, e⟩ inner₀ ∧ inner₀.expr = inner.expr ∧
      inner₀.names.Within inner.names := by
  cases h with
  | operand => exact ⟨_, .operand, rfl, hnames⟩
  | left => exact ⟨_, .left, rfl, hnames⟩
  | right => exact ⟨_, .right, rfl, hnames⟩
  | arg harg => exact ⟨_, .arg harg, rfl, hnames⟩
  | rhs => exact ⟨_, .rhs, rfl, hnames⟩
  | afterLet => exact ⟨_, .afterLet, rfl, hnames.addVar _⟩
  | body => exact ⟨_, .body, rfl, (hnames.addFun _).addVars _⟩
  | afterFn => exact ⟨_, .afterFn, rfl, hnames.addFun _⟩

theorem Occurs.widen {names names' : Names} {e : Expr} {inner : Place}
    (h : Occurs ⟨names', e⟩ inner) (hnames : names.Within names') :
    ∃ inner₀, Occurs ⟨names, e⟩ inner₀ ∧ inner₀.expr = inner.expr ∧
      inner₀.names.Within inner.names := by
  induction h with
  | refl => exact ⟨⟨names, e⟩, .refl, rfl, hnames⟩
  | tail _ hpart ih =>
    obtain ⟨⟨names₁, e₁⟩, hoccurs, rfl, hwithin⟩ := ih
    obtain ⟨inner₀, hpart₀, hexpr, hwithin₀⟩ := Part.widen hpart hwithin
    exact ⟨inner₀, hoccurs.tail hpart₀, hexpr, hwithin₀⟩

/-- What is closed stays closed where more names are declared. -/
theorem ClosedAt.mono {side : Side} {names names' : Names} {e : Expr}
    (h : ClosedAt side ⟨names, e⟩) (hnames : names.Within names') :
    ClosedAt side ⟨names', e⟩ := by
  intro inner hoccurs name hname
  obtain ⟨inner₀, hoccurs₀, hexpr, hwithin⟩ := hoccurs.widen hnames
  apply hwithin.on side
  apply h inner₀ hoccurs₀
  rwa [hexpr]

/-! ### Closed expressions run -/

/-- At a site, the expression and the bodies of all functions in force are closed under the
    names in force, the bodies with their parameters. -/
structure Ready (side : Side) (site : Site) : Prop where
  expr : ClosedAt side ⟨site.env.names, site.expr⟩
  bodies : ∀ name f, site.env.funs name = some f →
    ClosedAt side ⟨site.env.names.addVars f.params, f.body⟩

/-- Binding more variables keeps the functions in force as they are. -/
theorem Ready.extend {side : Side} {site : Site} (h : Ready side site) {env : Env}
    (henv : site.env.Extends env) {depth : Nat} {e : Expr} (he : ClosedAt side ⟨env.names, e⟩) :
    Ready side ⟨env, depth, e⟩ := by
  refine ⟨he, ?_⟩
  intro name f hf
  rw [henv.funs] at hf
  exact (h.bodies name f hf).mono (henv.within.addVars f.params)

/-- **One step keeps an evaluation ready.** -/
theorem Ready.demanded {limit : Nat} {side : Side} {site site' : Site}
    (hdemands : Demands limit site site') (h : Ready side site) : Ready side site' := by
  cases hdemands with
  | operand => exact ⟨h.expr.part .operand, h.bodies⟩
  | left => exact ⟨h.expr.part .left, h.bodies⟩
  | right => exact ⟨h.expr.part .right, h.bodies⟩
  | @arg env depth name args before after arg f values hf harity hargs hvalues =>
    refine ⟨h.expr.part (.arg ?_), h.bodies⟩
    rw [hargs]
    exact List.mem_append_right before List.mem_cons_self
  | @body env depth name args f values hf harity hvalues hlimit =>
    -- as many values as parameters, so all parameters are in force in the body
    have hlength : f.params.length ≤ values.length := by
      rw [length_of_denoteAll hvalues]
      exact harity.le
    apply h.extend (Env.Extends.by_bindVars env (f.params.zip values))
    rw [Env.names_bindVars, List.map_fst_zip hlength]
    exact h.bodies name f hf
  | rhs => exact ⟨h.expr.part .rhs, h.bodies⟩
  | @afterLet env depth name rhs next x hx =>
    apply h.extend (Env.Extends.by_bindVar env name x)
    rw [Env.names_bindVar]
    exact h.expr.part .afterLet
  | @afterFn env depth name params body next =>
    have hnames : (env.bindFun ⟨name, params, body⟩).names = env.names.addFun name :=
      Env.names_bindFun env ⟨name, params, body⟩
    have hwithin := env.names.within_addFun name
    refine ⟨?_, ?_⟩
    · rw [hnames]
      exact h.expr.part .afterFn
    · intro name' f hf
      rw [hnames]
      simp only [Env.bindFun] at hf
      by_cases hname : name' = name
      · -- the new function: its body was closed where it stands
        rw [hname, Function.update_self] at hf
        cases hf
        exact h.expr.part .body
      · rw [Function.update_of_ne hname] at hf
        exact (h.bodies name' f hf).mono (hwithin.addVars f.params)

/-- The error of a name that has no meaning. -/
def missing : Side → String → EvalError
  | .vars, name => .unboundVariable name
  | .funs, name => .undefinedFunction name

theorem Ready.not_blames {limit : Nat} {side : Side} {site : Site} (h : Ready side site)
    (name : String) : ¬ Blames limit site (missing side name) := by
  intro hblames
  cases side with
  | vars =>
    cases hblames with
    | @unbound env depth _ hnone =>
      have hname : (env.vars name).isSome := h.expr _ .refl name rfl
      rw [hnone] at hname
      cases hname
  | funs =>
    cases hblames with
    | @undefined env depth _ args hnone =>
      have hname : (env.funs name).isSome := h.expr _ .refl name rfl
      rw [hnone] at hname
      cases hname

theorem Closed.ready {side : Side} {e : Expr} (h : Closed side e) (depth : Nat) :
    Ready side ⟨Scope.empty.env, depth, e⟩ := by
  refine ⟨?_, ?_⟩
  · rw [Scope.names_empty]
    exact h
  · intro name f hf
    cases hf

theorem Closed.not_traced {side : Side} {e : Expr} (h : Closed side e) (limit depth : Nat)
    (name : String) : ¬ Traced limit ⟨Scope.empty.env, depth, e⟩ (missing side name) := by
  rintro ⟨origin, hreaches, hblames⟩
  have hready := hreaches.keeps Ready.demanded (h.ready depth)
  exact hready.not_blames name hblames

theorem Closed.evaluate_ne_missing {side : Side} {e : Expr} (h : Closed side e) (limit : Nat)
    (name : String) : (evaluate limit e).result ≠ .error (.error (missing side name)) := by
  intro hresult
  rcases evaluate_traced hresult with htraced | ⟨within, hdepth⟩
  · exact h.not_traced limit 0 name htraced
  · cases side <;> cases hdepth

/-- **Lexical closedness is enough.**  A tree in which every variable is declared around its
    occurrences never lacks a variable when it is evaluated from empty stacks, and one in which
    every function is declared around its calls never lacks a function; whatever the limit, the
    room and the calls in progress. -/
theorem closed_never_missing (e : Expr) :
    (Closed .vars e → ∀ limit name,
      (evaluate limit e).result ≠ .error (.error (.unboundVariable name)) ∧
      ∀ room within st, st.scope = .empty →
        (interpret limit room within e st).1 ≠ .error (.error (.unboundVariable name))) ∧
    (Closed .funs e → ∀ limit name,
      (evaluate limit e).result ≠ .error (.error (.undefinedFunction name)) ∧
      ∀ room within st, st.scope = .empty →
        (interpret limit room within e st).1 ≠ .error (.error (.undefinedFunction name))) := by
  have hinterpret : ∀ side, Closed side e → ∀ limit name room within (st : State),
      st.scope = .empty →
      (interpret limit room within e st).1 ≠ .error (.error (missing side name)) := by
    intro side h limit name room within st hscope hresult
    have htraced := interpret_traced hresult
    rw [hscope] at htraced
    exact h.not_traced limit st.depth name htraced
  constructor
  · intro h limit name
    exact ⟨h.evaluate_ne_missing limit name, hinterpret .vars h limit name⟩
  · intro h limit name
    exact ⟨h.evaluate_ne_missing limit name, hinterpret .funs h limit name⟩

/-- `let x = 1; fn f y = x + y; fn g = (let x = 2; f(x)); fn f z = -z; g()`: the call in the body of
    `g` is declared by the first `f` and runs the second. -/
def shadowedCalls : Expr :=
  .letIn "x" (.num 1) (.fnIn "f" ["y"] (.bin .add (.var "x") (.var "y"))
    (.fnIn "g" [] (.letIn "x" (.num 2) (.call "f" [.var "x"]))
      (.fnIn "f" ["z"] (.neg (.var "z")) (.call "g" []))))

theorem closed_shadowedCalls (side : Side) : Closed side shadowedCalls := by
  have hsum : ∀ {names : Names}, "x" ∈ names.vars → "y" ∈ names.vars →
      ClosedAt side ⟨names, .bin .add (.var "x") (.var "y")⟩ :=
    fun hx hy => .bin (.var fun _ => hx) (.var fun _ => hy)
  have hinner : ∀ {names : Names}, "f" ∈ names.funs →
      ClosedAt side ⟨names, .letIn "x" (.num 2) (.call "f" [.var "x"])⟩ := by
    intro names hf
    refine .letIn .num (.call (fun _ => hf) ?_)
    intro arg harg
    obtain rfl := List.mem_singleton.mp harg
    exact .var fun _ => Set.mem_insert "x" names.vars
  refine .letIn .num (.fnIn (hsum ?_ ?_) (.fnIn (hinner ?_) (.fnIn (.neg (.var fun _ => ?_))
    (.call (fun _ => ?_) nofun))))
  all_goals simp [Names.addVar, Names.addVars, Names.addFun]

theorem shadowedCalls_never_missing : Closed .vars shadowedCalls ∧ Closed .funs shadowedCalls ∧
    ∀ limit name,
      (evaluate limit shadowedCalls).result ≠ .error (.error (.unboundVariable name)) ∧
      (evaluate limit shadowedCalls).result ≠ .error (.error (.undefinedFunction name)) := by
  have hvars := closed_shadowedCalls .vars
  have hfuns := closed_shadowedCalls .funs
  obtain ⟨hbound, hdefined⟩ := closed_never_missing shadowedCalls
  refine ⟨hvars, hfuns, ?_⟩
  intro limit name
  exact ⟨(hbound hvars limit name).1, (hdefined hfuns limit name).1⟩

end Abacus.Eval
