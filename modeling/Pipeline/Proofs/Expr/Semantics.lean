import Pipeline.Proofs.Execution.Actions
import Pipeline.Proofs.Expr.Arithmetic
import Pipeline.Proofs.Expr.Evaluation

/-!
# What an expression stands for

A reference for the evaluation that does not evaluate.  A tree denotes a value by rules for its
leaves and the laws of its operators.  Where it denotes nothing, some node in it is stuck although
the nodes below it denote something, and the first such node in post-order is the one to blame.

* `Expr.Denotes`, `Expr.Stuck`, `Expr.FailsFirst` : the reference.
* `Expr.denotes_or_fails` : every tree over decimal numbers denotes something or has a first node
  that is stuck.
* `Expr.eval_denotes` : the evaluation gives what is denoted, and otherwise blames that node.
-/

namespace Pipeline

/-- A value of the language is a number, or has another kind that can be named. -/
theorem Value.IsScript.number_or_kind {value : Value} (h : value.IsScript) :
    (∃ n, value = .number n) ∨ ∃ kind, value.kind = .ok kind ∧ kind ≠ .number := by
  cases value with
  | number n => exact .inl ⟨n, rfl⟩
  | foreign shown => exact h.elim
  | _ => exact .inr ⟨_, rfl, nofun⟩

namespace Expr

open Text

/-- The trees over numbers in decimal digits, strings, variables and the seven operators. -/
def Decimal : Expr → Prop
  | .operand ⟨.number, digits⟩ =>
    digits.toList ≠ [] ∧ (∀ c ∈ digits.toList, isLatinDigit c = true) ∧
      digits.length ≤ Numeral.digitLimit
  | .operand _ => True
  | .binary symbol left right =>
    (∃ op : Operator, op.symbol = symbol) ∧ left.Decimal ∧ right.Decimal

/-! ### The reference -/

section

variable (strict : Bool) (bindings : Table Value)

/-- What a tree denotes.  An undefined variable denotes nothing at all under strict variables, and
the value that stands for nothing otherwise. -/
inductive Denotes : Expr → Value → Prop where
  | string (text : String) : Denotes (.operand ⟨.string, text⟩) (.string text)
  | number (digits : String) :
      Denotes (.operand ⟨.number, digits⟩) (.number (Nat.ofDigitChars 10 digits.toList 0 : Nat))
  | defined {name : String} {value : Value} :
      bindings.find? name = some value → Denotes (.operand ⟨.variable, name⟩) value
  | undefined {name : String} :
      bindings.find? name = none → strict = false → Denotes (.operand ⟨.variable, name⟩) .nothing
  | binary {left right : Expr} {a b c : Int} (op : Operator) :
      Denotes left (.number a) → Denotes right (.number b) → op.Computes a b c →
      Denotes (.binary op.symbol left right) (.number c)

/-- A node that denotes nothing although its operands do, with the cause.  The left operand is looked
at before the right one. -/
inductive Stuck : Expr → Cause → Prop where
  | undefined {name : String} :
      bindings.find? name = none → strict = true →
      Stuck (.operand ⟨.variable, name⟩) (.undefinedVariable name)
  | left {left right : Expr} {x y : Value} {kind : ValueKind} (op : Operator) :
      Denotes strict bindings left x → Denotes strict bindings right y →
      x.kind = .ok kind → kind ≠ .number →
      Stuck (.binary op.symbol left right) (.wrongOperand op.symbol kind)
  | right {left right : Expr} {a : Int} {y : Value} {kind : ValueKind} (op : Operator) :
      Denotes strict bindings left (.number a) → Denotes strict bindings right y →
      y.kind = .ok kind → kind ≠ .number →
      Stuck (.binary op.symbol left right) (.wrongOperand op.symbol kind)
  | division {left right : Expr} {a : Int} :
      Denotes strict bindings left (.number a) → Denotes strict bindings right (.number 0) →
      Stuck (.binary Operator.over.symbol left right) .divisionByZero

/-- The nodes of a tree from left to right, each behind its operands. -/
def postorder : Expr → List Expr
  | .operand o => [.operand o]
  | .binary symbol left right => left.postorder ++ right.postorder ++ [.binary symbol left right]

/-- All nodes in front of some node denote something, and that node is stuck. -/
inductive FirstStuck : List Expr → Cause → Prop where
  | here {node : Expr} {rest : List Expr} {cause : Cause} :
      Stuck strict bindings node cause → FirstStuck (node :: rest) cause
  | later {node : Expr} {rest : List Expr} {value : Value} {cause : Cause} :
      Denotes strict bindings node value → FirstStuck rest cause →
      FirstStuck (node :: rest) cause

/-- The cause for which the first node in post-order that denotes nothing is stuck. -/
def FailsFirst (t : Expr) (cause : Cause) : Prop :=
  FirstStuck strict bindings t.postorder cause

end

variable {strict : Bool} {bindings : Table Value}

/-! ### First nodes -/

/-- All parts of a tree that denotes something denote something. -/
theorem Denotes.parts {t : Expr} {value : Value} (h : Denotes strict bindings t value) :
    ∀ part ∈ t.postorder, ∃ value, Denotes strict bindings part value := by
  induction h with
  | binary op hx hy hc ihl ihr =>
    intro part hpart
    rcases List.mem_append.1 hpart with hpart | hself
    · rcases List.mem_append.1 hpart with hleft | hright
      · exact ihl part hleft
      · exact ihr part hright
    · rw [List.mem_singleton.1 hself]
      exact ⟨_, .binary op hx hy hc⟩
  | string text => exact List.forall_mem_singleton.2 ⟨_, .string text⟩
  | number digits => exact List.forall_mem_singleton.2 ⟨_, .number digits⟩
  | defined hfind => exact List.forall_mem_singleton.2 ⟨_, .defined hfind⟩
  | undefined hfind hstrict => exact List.forall_mem_singleton.2 ⟨_, .undefined hfind hstrict⟩

/-- The first stuck node is in the first part, or all of the first part denotes something. -/
theorem firstStuck_append {nodes rest : List Expr} {cause : Cause} :
    FirstStuck strict bindings (nodes ++ rest) cause ↔
      FirstStuck strict bindings nodes cause ∨
        (∀ part ∈ nodes, ∃ value, Denotes strict bindings part value) ∧
          FirstStuck strict bindings rest cause := by
  induction nodes with
  | nil =>
    constructor
    · exact fun h => .inr ⟨List.forall_mem_nil _, h⟩
    · rintro (h | ⟨-, h⟩)
      · cases h
      · exact h
  | cons node nodes ih =>
    constructor
    · rintro (hstuck | ⟨hvalue, hlater⟩)
      · exact .inl (.here hstuck)
      · rcases ih.1 hlater with hnodes | ⟨hall, hrest⟩
        · exact .inl (.later hvalue hnodes)
        · exact .inr ⟨List.forall_mem_cons.2 ⟨⟨_, hvalue⟩, hall⟩, hrest⟩
    · rintro ((hstuck | ⟨hvalue, hlater⟩) | ⟨hall, hrest⟩)
      · exact .here hstuck
      · exact .later hvalue (ih.2 (.inl hlater))
      · obtain ⟨⟨value, hvalue⟩, hall⟩ := List.forall_mem_cons.1 hall
        exact .later hvalue (ih.2 (.inr ⟨hall, hrest⟩))

theorem firstStuck_singleton {node : Expr} {cause : Cause} :
    FirstStuck strict bindings [node] cause ↔ Stuck strict bindings node cause := by
  constructor
  · rintro (hstuck | ⟨-, hlater⟩)
    · exact hstuck
    · cases hlater
  · exact .here

/-- The left operand comes first, then the right one, then the operation. -/
theorem failsFirst_binary {symbol : String} {left right : Expr} {cause : Cause} :
    FailsFirst strict bindings (binary symbol left right) cause ↔
      FailsFirst strict bindings left cause ∨
        (∀ part ∈ left.postorder, ∃ value, Denotes strict bindings part value) ∧
          (FailsFirst strict bindings right cause ∨
            (∀ part ∈ right.postorder, ∃ value, Denotes strict bindings part value) ∧
              Stuck strict bindings (binary symbol left right) cause) := by
  unfold FailsFirst
  rw [postorder, List.append_assoc, firstStuck_append, firstStuck_append, firstStuck_singleton]

theorem mem_postorder (t : Expr) : t ∈ t.postorder := by
  cases t with
  | operand o => exact List.mem_singleton.2 rfl
  | binary symbol left right => exact List.mem_append_right _ (List.mem_singleton.2 rfl)

/-! ### The evaluation of a node -/

theorem operandNumber_of_kind {symbol : String} {value : Value} {kind : ValueKind}
    (h : value.kind = .ok kind) (hkind : kind ≠ .number) :
    operandNumber symbol value = .error (.of (.wrongOperand symbol kind)) := by
  cases value with
  | number n => exact absurd (Except.ok.inj h).symm hkind
  | foreign shown => cases h
  | _ => cases h; rfl

theorem eval_of_left_error {symbol : String} {left right : Expr} {fault : Fault}
    (h : left.eval strict bindings = .error fault) :
    (binary symbol left right).eval strict bindings = .error fault := by
  rw [eval, h]
  rfl

theorem eval_of_right_error {symbol : String} {left right : Expr} {x : Value} {fault : Fault}
    (hx : left.eval strict bindings = .ok x) (h : right.eval strict bindings = .error fault) :
    (binary symbol left right).eval strict bindings = .error fault := by
  rw [eval, hx, h]
  rfl

theorem eval_of_left_kind {symbol : String} {left right : Expr} {x y : Value} {kind : ValueKind}
    (hx : left.eval strict bindings = .ok x) (hy : right.eval strict bindings = .ok y)
    (h : x.kind = .ok kind) (hkind : kind ≠ .number) :
    (binary symbol left right).eval strict bindings =
      .error (.of (.wrongOperand symbol kind)) := by
  rw [eval, hx, hy]
  show (operandNumber symbol x >>= _) = _
  rw [operandNumber_of_kind h hkind]
  rfl

theorem eval_of_right_kind {symbol : String} {left right : Expr} {a : Int} {y : Value}
    {kind : ValueKind} (hx : left.eval strict bindings = .ok (.number a))
    (hy : right.eval strict bindings = .ok y) (h : y.kind = .ok kind) (hkind : kind ≠ .number) :
    (binary symbol left right).eval strict bindings =
      .error (.of (.wrongOperand symbol kind)) := by
  rw [eval, hx, hy]
  show (operandNumber symbol y >>= _) = _
  rw [operandNumber_of_kind h hkind]
  rfl

/-- Two numbers are given to the operator. -/
theorem eval_of_numbers (op : Operator) {left right : Expr} {a b : Int}
    (hx : left.eval strict bindings = .ok (.number a))
    (hy : right.eval strict bindings = .ok (.number b)) :
    (binary op.symbol left right).eval strict bindings =
      match op.apply? a b with
      | some n => .ok (.number n)
      | none => .error (.of .divisionByZero) := by
  rw [eval, hx, hy]
  dsimp only [bind, Except.bind, operandNumber]
  rw [Operator.ofSymbol?_symbol]
  dsimp only
  cases op.apply? a b <;> rfl

/-! ### From the reference to the evaluation -/

/-- What is denoted is what the evaluation gives. -/
theorem Denotes.eval {t : Expr} {value : Value} (h : Denotes strict bindings t value)
    (ht : t.Decimal) : t.eval strict bindings = .ok value := by
  induction h with
  | string text => rfl
  | number digits =>
    obtain ⟨hne, hdigits, hlimit⟩ := ht
    have hread := (Numeral.read_of_digits hne hdigits).1 hlimit
    rw [Expr.eval, hread]
  | defined hfind => rw [Expr.eval, hfind]
  | undefined hfind hstrict =>
    rw [Expr.eval, hfind, hstrict]
    rfl
  | binary op _ _ hc ihl ihr =>
    obtain ⟨-, hleft, hright⟩ := ht
    rw [eval_of_numbers op (ihl hleft) (ihr hright), (op.apply_eq_some_iff _ _ _).2 hc]

/-- A stuck node is where the evaluation fails, with its cause. -/
theorem Stuck.eval {t : Expr} {cause : Cause} (h : Stuck strict bindings t cause)
    (ht : t.Decimal) : t.eval strict bindings = .error (.of cause) := by
  cases h with
  | undefined hfind hstrict =>
    rw [Expr.eval, hfind, hstrict]
    rfl
  | left op hx hy hkind hne => exact eval_of_left_kind (hx.eval ht.2.1) (hy.eval ht.2.2) hkind hne
  | right op hx hy hkind hne => exact eval_of_right_kind (hx.eval ht.2.1) (hy.eval ht.2.2) hkind hne
  | division hx hy =>
    rw [eval_of_numbers .over (hx.eval ht.2.1) (hy.eval ht.2.2),
      (Operator.apply_eq_none_iff _ _ _).2 ⟨rfl, rfl⟩]

/-- The first stuck node in post-order decides the fault of the evaluation. -/
theorem FailsFirst.eval {t : Expr} {cause : Cause} (h : FailsFirst strict bindings t cause)
    (ht : t.Decimal) : t.eval strict bindings = .error (.of cause) := by
  induction t with
  | operand o => exact (firstStuck_singleton.1 h).eval ht
  | binary symbol left right ihl ihr =>
    have hleft : left.Decimal := ht.2.1
    have hright : right.Decimal := ht.2.2
    rcases failsFirst_binary.1 h with hfails | ⟨hall, hrest⟩
    · exact eval_of_left_error (ihl hfails hleft)
    · obtain ⟨x, hx⟩ := hall left left.mem_postorder
      rcases hrest with hfails | ⟨-, hstuck⟩
      · exact eval_of_right_error (hx.eval hleft) (ihr hfails hright)
      · exact hstuck.eval ht

/-! ### From the evaluation to the reference -/

/-- A tree denotes something, or one of its nodes is the first that is stuck. -/
theorem denotes_or_fails {t : Expr} (ht : t.Decimal) (hbindings : ScriptBindings bindings) :
    (∃ value, Denotes strict bindings t value ∧ value.IsScript) ∨
      ∃ cause, FailsFirst strict bindings t cause := by
  induction t with
  | operand o =>
    -- a variable, a number, a string
    obtain ⟨_ | _ | _, text⟩ := o
    · cases hfind : bindings.find? text with
      | some value => exact .inl ⟨value, .defined hfind, hbindings text value hfind⟩
      | none =>
        cases hstrict : strict with
        | true => exact .inr ⟨_, firstStuck_singleton.2 (.undefined hfind rfl)⟩
        | false => exact .inl ⟨_, .undefined hfind rfl, trivial⟩
    · exact .inl ⟨_, .number text, trivial⟩
    · exact .inl ⟨_, .string text, trivial⟩
  | binary symbol left right ihl ihr =>
    obtain ⟨⟨op, rfl⟩, hleft, hright⟩ := ht
    rcases ihl hleft with ⟨x, hx, hscriptx⟩ | ⟨cause, hfails⟩
    swap
    · exact .inr ⟨cause, failsFirst_binary.2 (.inl hfails)⟩
    rcases ihr hright with ⟨y, hy, hscripty⟩ | ⟨cause, hfails⟩
    swap
    · exact .inr ⟨cause, failsFirst_binary.2 (.inr ⟨hx.parts, .inl hfails⟩)⟩
    have hself {cause : Cause} (hstuck : Stuck strict bindings (binary op.symbol left right) cause) :
        ∃ cause, FailsFirst strict bindings (binary op.symbol left right) cause :=
      ⟨cause, failsFirst_binary.2 (.inr ⟨hx.parts, .inr ⟨hy.parts, hstuck⟩⟩)⟩
    -- Both operands denote something; the operation asks for two numbers and a divisor.
    rcases hscriptx.number_or_kind with ⟨a, rfl⟩ | ⟨kind, hkind, hne⟩
    swap
    · exact .inr (hself (.left op hx hy hkind hne))
    rcases hscripty.number_or_kind with ⟨b, rfl⟩ | ⟨kind, hkind, hne⟩
    swap
    · exact .inr (hself (.right op hx hy hkind hne))
    cases hresult : op.apply? a b with
    | some c => exact .inl ⟨_, .binary op hx hy ((op.apply_eq_some_iff a b c).1 hresult), trivial⟩
    | none =>
      obtain ⟨rfl, rfl⟩ := (op.apply_eq_none_iff a b).1 hresult
      exact .inr (hself (.division hx hy))

/-! ### Both directions -/

/-- **The evaluation and the reference agree.**  The result is a value exactly where the tree denotes
that value, and a fault exactly where it denotes nothing; the fault then has the cause of the first
node in post-order that is stuck, and the place of the argument.  The environment stays as it is. -/
theorem eval_denotes {t : Expr} (ht : t.Decimal) (setup : Setup) {env : Environment}
    (hbindings : ScriptBindings env.bindings) (place : Place) :
    let strict := setup.settings.strictVariables
    let result := locating place (t.eval strict env.bindings)
    (∀ value, result = .ok value ↔ Denotes strict env.bindings t value) ∧
      (∀ fault, result = .error fault ↔
        ∃ cause, FailsFirst strict env.bindings t cause ∧ fault = .script cause place) ∧
      ((∃ fault, result = .error fault) ↔ ∀ value, ¬ Denotes strict env.bindings t value) ∧
      ∀ (line : Int) (number : Nat), place = .ofArgument line number →
        Command.evalArg setup line number t env = (result, env) := by
  intro strict result
  have hvalue {value : Value} (h : Denotes strict env.bindings t value) : result = .ok value :=
    congrArg (locating place) (h.eval ht)
  have hfault {cause : Cause} (h : FailsFirst strict env.bindings t cause) :
      result = .error (.script cause place) :=
    congrArg (locating place) (h.eval ht)
  have hends : (∃ value, Denotes strict env.bindings t value ∧ value.IsScript) ∨
      ∃ cause, FailsFirst strict env.bindings t cause := denotes_or_fails ht hbindings
  refine ⟨fun value => ⟨fun h => ?_, hvalue⟩, fun fault => ⟨fun h => ?_, ?_⟩, ⟨?_, fun h => ?_⟩, ?_⟩
  · rcases hends with ⟨x, hx, -⟩ | ⟨cause, hfails⟩
    · rw [hvalue hx] at h
      exact Except.ok.inj h ▸ hx
    · rw [hfault hfails] at h
      cases h
  · rcases hends with ⟨x, hx, -⟩ | ⟨cause, hfails⟩
    · rw [hvalue hx] at h
      cases h
    · rw [hfault hfails] at h
      exact ⟨cause, hfails, (Except.error.inj h).symm⟩
  · rintro ⟨cause, hfails, rfl⟩
    exact hfault hfails
  · rintro ⟨fault, h⟩ value hx
    rw [hvalue hx] at h
    cases h
  · rcases hends with ⟨x, hx, -⟩ | ⟨cause, hfails⟩
    · exact absurd hx (h x)
    · exact ⟨_, hfault hfails⟩
  · rintro line number rfl
    exact Command.evalArg_apply env setup line number t

/-- Several nodes of `("a" + $x) * (1 / 0)` are stuck.  The variable comes first under strict
variables, and otherwise the sum. -/
theorem eval_denotes_several_stuck :
    let sum := binary "+" (operand ⟨.string, "a"⟩) (operand ⟨.variable, "x"⟩)
    let quotient := binary "/" (operand ⟨.number, "1"⟩) (operand ⟨.number, "0"⟩)
    Decimal (binary "*" sum quotient) ∧ ScriptBindings {} ∧
      FailsFirst true {} (binary "*" sum quotient) (.undefinedVariable "x") ∧
      FailsFirst false {} (binary "*" sum quotient) (.wrongOperand "+" .string) := by
  intro sum quotient
  have hdigits (d : String) (h : d = "1" ∨ d = "0") : Decimal (operand ⟨.number, d⟩) := by
    rcases h with rfl | rfl <;> exact ⟨by decide, List.forall_mem_singleton.2 rfl, by decide⟩
  have ht : Decimal (binary "*" sum quotient) :=
    ⟨⟨.times, rfl⟩, ⟨⟨.plus, rfl⟩, trivial, trivial⟩,
      ⟨.over, rfl⟩, hdigits "1" (.inl rfl), hdigits "0" (.inr rfl)⟩
  have hbindings : ScriptBindings ({} : Environment).bindings := by
    intro name value h
    cases h
  have hfails (strict : Bool) :=
    (eval_denotes ht { settings := { strictVariables := strict } } hbindings .nowhere).2.1
  obtain ⟨_, hvariable, heq⟩ := (hfails true (.of (.undefinedVariable "x"))).1 rfl
  cases heq
  obtain ⟨_, hsum, heq⟩ := (hfails false (.of (.wrongOperand "+" .string))).1 rfl
  cases heq
  exact ⟨ht, hbindings, hvariable, hsum⟩

end Expr

end Pipeline
