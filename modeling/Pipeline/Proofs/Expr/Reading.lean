import Pipeline.Expr

/-!
# How the tokens of an argument are read

The pass to operator-first order does not ask whether an operand or an operator is due.  This module
says what the pass and the assembly make of *any* tokens, without mentioning a stack.

Tokens are cut at the last of the loosest operators that stand outside of parentheses.  What is to
the right of it is read first, then what is to the left, and the operator takes the first two trees
that there are by then.  `Reads rank s before after` is this rule: the tokens `s`, standing in front
of the trees `before`, leave the trees `after`, and `rank` is that of the loosest operator of `s`
outside of parentheses.

* `pass_of_reads`: the pass goes through such tokens and leaves nothing but their own operators on
  the stack, and these make the trees that the rule gives.
* `reads_of_operatorFirst`: there is no other way for the pass to end well.
* `ofTokens_eq_ok_iff_reads`: together, the reader gives a tree exactly where the rule does.
-/

namespace Pipeline

/-- The parenthesis that opens a group. -/
def Token.opening : Token := .operator "("

/-- The parenthesis that closes a group. -/
def Token.closing : Token := .operator ")"

theorem Token.mem_of_isOperatorChar {c : Char} (h : Token.isOperatorChar c = true) :
    c ∈ ['+', '-', '/', '*', '(', ')', '|', '&', '^'] :=
  List.contains_iff_mem.1 h

/-! ### Groups that wait -/

namespace OperatorFirst

/-- The number of groups that are not ended yet. -/
abbrev groups (stack : List Waiting) : Nat :=
  stack.count .group

theorem groups_release (rank : Nat) (stack : List Waiting) (output : List Token) :
    groups (release rank stack output).stack = groups stack := by
  fun_induction release rank stack output with
  | case1 output op stack hrank ih =>
    rw [ih]
    simp [groups]
  | case2 => rfl
  | case3 => rfl

/-- While a group is waiting, one can be ended. -/
theorem exists_of_endGroup {stack : List Waiting} (h : 0 < groups stack) (output : List Token) :
    ∃ s, endGroup stack output = .ok s ∧ groups s.stack + 1 = groups stack := by
  induction stack generalizing output with
  | nil => cases h
  | cons waiting stack ih =>
    cases waiting with
    | group => exact ⟨⟨stack, output⟩, rfl, by simp [groups]⟩
    | operator op =>
      have hcount : groups (.operator op :: stack) = groups stack := by simp [groups]
      rw [hcount] at h ⊢
      exact ih h (op.token :: output)

/-- Where no group is waiting, a parenthesis that ends one is refused. -/
theorem endGroup_eq_error {stack : List Waiting} (h : groups stack = 0) (output : List Token) :
    endGroup stack output = .error (.of .missingClosing) := by
  induction stack generalizing output with
  | nil => rfl
  | cons waiting stack ih =>
    cases waiting with
    | group => simp [groups] at h
    | operator op =>
      have hcount : groups (.operator op :: stack) = groups stack := by simp [groups]
      exact ih (hcount ▸ h) (op.token :: output)

/-- The pass ends well if no group is left. -/
theorem finish_cases (stack : List Waiting) (output : List Token) :
    (groups stack = 0 ∧ ∃ queue, finish stack output = .ok queue) ∨
      0 < groups stack ∧ finish stack output = .error (.of .missingOpening) := by
  induction stack generalizing output with
  | nil => exact .inl ⟨rfl, output, rfl⟩
  | cons waiting stack ih =>
    cases waiting with
    | group => exact .inr ⟨by simp [groups], rfl⟩
    | operator op =>
      have hcount : groups (.operator op :: stack) = groups stack := by simp [groups]
      rw [hcount]
      exact ih (op.token :: output)

end OperatorFirst

namespace Expr

open OperatorFirst Token

/-! ### Trees of tokens in operator-first order -/

/-- The trees that tokens in operator-first order stand for; none where an operator has fewer than
two trees behind it. -/
def forest? : List Token → Option (List Expr)
  | [] => some []
  | .operand o :: queue => (forest? queue).map (.operand o :: ·)
  | .operator symbol :: queue =>
    match forest? queue with
    | some (left :: right :: trees) => some (.binary symbol left right :: trees)
    | _ => none

theorem forest?_operand {o : Operand} {queue : List Token} {trees : List Expr} :
    forest? (.operand o :: queue) = some trees ↔
      ∃ behind, forest? queue = some behind ∧ trees = .operand o :: behind := by
  rw [forest?, Option.map_eq_some_iff]
  exact ⟨fun ⟨behind, h, heq⟩ => ⟨behind, h, heq.symm⟩,
    fun ⟨behind, h, heq⟩ => ⟨behind, h, heq.symm⟩⟩

theorem forest?_operator {symbol : String} {queue : List Token} {trees : List Expr} :
    forest? (.operator symbol :: queue) = some trees ↔
      ∃ left right behind, forest? queue = some (left :: right :: behind) ∧
        trees = .binary symbol left right :: behind := by
  rw [forest?]
  split
  · rename_i left right behind hsome
    rw [hsome]
    constructor
    · intro h
      cases h
      exact ⟨left, right, behind, rfl, rfl⟩
    · rintro ⟨left', right', behind', h, rfl⟩
      cases h
      rfl
  · rename_i hnone
    constructor
    · intro h
      cases h
    · rintro ⟨left, right, behind, h, -⟩
      exact absurd h (hnone left right behind)

theorem forest?_eq_nil {queue : List Token} (h : forest? queue = some []) : queue = [] := by
  match queue with
  | [] => rfl
  | .operand o :: _ =>
    obtain ⟨_, _, hcons⟩ := forest?_operand.1 h
    cases hcons
  | .operator symbol :: _ =>
    obtain ⟨_, _, _, _, hcons⟩ := forest?_operator.1 h
    cases hcons

/-- Assembling takes one tree off the front of the forest. -/
theorem forest?_of_assemble {queue : List Token} {tree : Expr}
    {rest : { rest : List Token // rest.length < queue.length }}
    (h : assemble queue = .ok (tree, rest)) :
    forest? queue = (forest? rest.val).map (tree :: ·) := by
  fun_induction assemble queue generalizing tree with
  | case1 => cases h
  | case2 o queue => cases h; rfl
  | case3 => cases h
  | case4 => cases h
  | case5 symbol queue left rest₁ h₁ hleft right rest₂ h₂ hright ihl ihr =>
    cases h
    have hl := ihl hleft
    have hr := ihr hright
    rw [forest?, hl, hr]
    cases forest? rest₂ <;> rfl

/-- The front tree of a forest is what assembling gives, and the others are left. -/
theorem assemble_of_forest? {queue : List Token} {tree : Expr} {trees : List Expr}
    (h : forest? queue = some (tree :: trees)) :
    ∃ rest, assemble queue = .ok (tree, rest) ∧ forest? rest.val = some trees := by
  fun_induction assemble queue generalizing tree trees with
  | case1 => cases h
  | case2 o queue =>
    obtain ⟨behind, hq, heq⟩ := forest?_operand.1 h
    cases heq
    exact ⟨_, rfl, hq⟩
  | case3 symbol queue fault hfault ih =>
    obtain ⟨left, right, behind, hq, -⟩ := forest?_operator.1 h
    obtain ⟨rest, hleft, -⟩ := ih hq
    rw [hfault] at hleft
    cases hleft
  | case4 symbol queue left rest₁ h₁ hleft fault hfault ihl ihr =>
    obtain ⟨left', right, behind, hq, -⟩ := forest?_operator.1 h
    obtain ⟨rest, hl, hrest⟩ := ihl hq
    rw [hleft] at hl
    cases hl
    obtain ⟨_, hright, -⟩ := ihr hrest
    rw [hfault] at hright
    cases hright
  | case5 symbol queue left rest₁ h₁ hleft right rest₂ h₂ hright ihl ihr =>
    obtain ⟨left', right', behind, hq, heq⟩ := forest?_operator.1 h
    obtain ⟨rest, hl, hrest⟩ := ihl hq
    rw [hleft] at hl
    cases hl
    obtain ⟨rest', hr, hrest'⟩ := ihr hrest
    rw [hright] at hr
    cases hr
    cases heq
    exact ⟨_, rfl, hrest'⟩

/-- An argument has a tree exactly where its tokens in operator-first order stand for that tree
alone. -/
theorem ofTokens_eq_ok_iff {tokens : List Token} {tree : Expr} :
    ofTokens tokens = .ok tree ↔
      ∃ queue, operatorFirst tokens = .ok queue ∧ forest? queue = some [tree] := by
  constructor
  · intro h
    unfold ofTokens at h
    split at h
    · cases h
    · cases h
    · rename_i queue _ hqueue
      split at h
      · cases h
      · rename_i t h₁ hassemble
        cases h
        exact ⟨queue, hqueue, forest?_of_assemble hassemble⟩
      · cases h
  · rintro ⟨queue, hqueue, hforest⟩
    obtain ⟨⟨rest, h₁⟩, hassemble, hrest⟩ := assemble_of_forest? hforest
    have hnil : rest = [] := forest?_eq_nil hrest
    subst hnil
    unfold ofTokens
    rw [hqueue]
    split
    · rename_i hfault
      cases hfault
    · rename_i hempty
      cases hempty
      cases hforest
    · rename_i queue' _ heq
      cases heq
      rw [hassemble]

/-! ### The rule of reading -/

/-- The tokens `s`, standing in front of the trees `before`, leave the trees `after`; the rank is
that of the loosest operator of `s` outside of parentheses, and zero where there is none. -/
inductive Reads : (rank : Nat) → (s : List Token) → (before after : List Expr) → Prop where
  | nil (before : List Expr) : Reads 0 [] before before
  | operand {s : List Token} {before after : List Expr} (o : Operand) :
      Reads 0 s before after → Reads 0 (.operand o :: s) before (.operand o :: after)
  | group {rank : Nat} {s inside : List Token} {before between after : List Expr} :
      Reads 0 s before between → Reads rank inside between after →
      Reads 0 (opening :: inside ++ closing :: s) before after
  | operator {i j : Nat} {a b : List Token} {before between after : List Expr} {x y : Expr}
      (op : Operator) :
      Reads j b before between → Reads i a between (x :: y :: after) →
      j < op.rank → i ≤ op.rank →
      Reads op.rank (a ++ op.token :: b) before (.binary op.symbol x y :: after)

/-! ### The stack of the pass -/

/-- The pass over tokens that stand to the left of what led to the given state. -/
def passOnto (start : State) : List Token → Except Fault State
  | [] => .ok start
  | token :: rest => (passOnto start rest).bind (step token)

theorem pass_eq_passOnto (tokens : List Token) : pass tokens = passOnto ⟨[], []⟩ tokens := by
  induction tokens with
  | nil => rfl
  | cons token rest ih => rw [OperatorFirst.pass, passOnto, ih]

theorem passOnto_append (start : State) (a b : List Token) :
    passOnto start (a ++ b) = (passOnto start b).bind (passOnto · a) := by
  induction a with
  | nil => cases hb : passOnto start b <;> simp [hb, Except.bind, passOnto]
  | cons token a ih =>
    rw [List.cons_append, passOnto, ih]
    cases hb : passOnto start b <;> rfl

/-- Operators as they wait on the stack. -/
def waiting (ops : List Operator) : List Waiting :=
  ops.map .operator

/-- The output after all of the given operators have left the stack. -/
def settle : List Operator → List Token → List Token
  | [], output => output
  | op :: ops, output => settle ops (op.token :: output)

theorem settle_append (ops ops' : List Operator) (output : List Token) :
    settle (ops ++ ops') output = settle ops' (settle ops output) := by
  induction ops generalizing output with
  | nil => rfl
  | cons op ops ih => rw [List.cons_append, settle, settle, ih]

/-- No operator of the innermost group that waits binds more tightly than the rank. -/
def Above (rank : Nat) : List Waiting → Prop
  | .operator op :: _ => rank ≤ op.rank
  | _ => True

theorem Above.mono {i j : Nat} {stack : List Waiting} (h : Above j stack) (hij : i ≤ j) :
    Above i stack := by
  match stack, h with
  | [], _ => trivial
  | .group :: _, _ => trivial
  | .operator _ :: _, h => exact Nat.le_trans hij h

theorem release_waiting {rank : Nat} {ops : List Operator} {stack : List Waiting}
    (hops : ∀ op ∈ ops, op.rank < rank) (hstack : Above rank stack) (output : List Token) :
    release rank (waiting ops ++ stack) output = ⟨stack, settle ops output⟩ := by
  induction ops generalizing output with
  | nil =>
    match stack, hstack with
    | [], _ => rfl
    | .group :: _, _ => rfl
    | .operator op :: _, h =>
      show (if op.rank < rank then _ else _) = _
      rw [if_neg (Nat.not_lt.2 h)]
      rfl
  | cons op ops ih =>
    show (if op.rank < rank then _ else _) = _
    rw [if_pos (hops op List.mem_cons_self)]
    exact ih (fun op' h => hops op' (List.mem_cons_of_mem _ h)) (op.token :: output)

theorem endGroup_waiting (ops : List Operator) (stack : List Waiting) (output : List Token) :
    endGroup (waiting ops ++ .group :: stack) output = .ok ⟨stack, settle ops output⟩ := by
  induction ops generalizing output with
  | nil => rfl
  | cons op ops ih => exact ih (op.token :: output)

theorem finish_waiting (ops : List Operator) (output : List Token) :
    finish (waiting ops) output = .ok (settle ops output) := by
  induction ops generalizing output with
  | nil => rfl
  | cons op ops ih => exact ih (op.token :: output)

/-! ### Steps of the pass -/

theorem step_operand (o : Operand) (s : State) :
    step (.operand o) s = .ok { s with output := .operand o :: s.output } := rfl

theorem step_closing (s : State) :
    step closing s = .ok { s with stack := .group :: s.stack } := rfl

theorem step_opening (s : State) : step opening s = endGroup s.stack s.output := rfl

theorem symbol_of_ofSymbol? {symbol : String} {op : Operator}
    (h : Operator.ofSymbol? symbol = some op) : op.symbol = symbol := by
  unfold Operator.ofSymbol? at h
  split at h <;> cases h <;> rfl

theorem step_operator (op : Operator) (s : State) :
    step op.token s =
      .ok { release op.rank s.stack s.output with
        stack := .operator op :: (release op.rank s.stack s.output).stack } := by
  cases op <;> rfl

theorem rank_pos (op : Operator) : 0 < op.rank := by
  cases op <;> decide

theorem above_zero (stack : List Waiting) : Above 0 stack := by
  match stack with
  | [] => trivial
  | .group :: _ => trivial
  | .operator _ :: _ => exact Nat.zero_le _

theorem eq_nil_of_rank_le_zero {ops : List Operator} (h : ∀ op ∈ ops, op.rank ≤ 0) : ops = [] := by
  match ops with
  | [] => rfl
  | op :: _ => exact absurd (h op List.mem_cons_self) (Nat.not_le.2 (rank_pos op))

/-! ### The pass follows the rule -/

/-- **The pass on tokens that can be read.**  It leaves nothing but operators of these tokens on the
stack, none of them looser than the rank, and once they have left the stack too, the output stands
for the trees that the rule gives. -/
theorem pass_of_reads {rank : Nat} {s : List Token} {before after : List Expr}
    (h : Reads rank s before after) (stack : List Waiting) (output : List Token)
    (hstack : Above rank stack) (hforest : forest? output = some before) :
    ∃ ops output', passOnto ⟨stack, output⟩ s = .ok ⟨waiting ops ++ stack, output'⟩ ∧
      (∀ op ∈ ops, op.rank ≤ rank) ∧ forest? (settle ops output') = some after := by
  induction h generalizing stack output with
  | nil before => exact ⟨[], output, rfl, by simp, hforest⟩
  | @operand s before after o _ ih =>
    obtain ⟨ops, output', hpass, hops, hafter⟩ := ih stack output hstack hforest
    obtain rfl := eq_nil_of_rank_le_zero hops
    refine ⟨[], .operand o :: output', ?_, by simp, ?_⟩
    · rw [passOnto, hpass, Except.bind, step_operand]
    · exact forest?_operand.2 ⟨after, hafter, rfl⟩
  | @group rank s inside before between after _ _ ihs ihinside =>
    obtain ⟨ops, output₁, hpass, hops, hbetween⟩ := ihs stack output hstack hforest
    obtain rfl := eq_nil_of_rank_le_zero hops
    have hclosing : passOnto ⟨stack, output⟩ (closing :: s) = .ok ⟨.group :: stack, output₁⟩ := by
      rw [passOnto, hpass, Except.bind, step_closing]
      rfl
    obtain ⟨ops, output₂, hinside, -, hafter⟩ :=
      ihinside (.group :: stack) output₁ trivial hbetween
    refine ⟨[], settle ops output₂, ?_, by simp, hafter⟩
    rw [List.cons_append, passOnto, passOnto_append, hclosing, Except.bind, hinside, Except.bind,
      step_opening, endGroup_waiting]
    rfl
  | @operator i j a b before between after x y op _ _ hj hi ihb iha =>
    -- the operators of `b` bind more tightly than `op`, which therefore releases all of them
    obtain ⟨ops, output₁, hb, hops, hbetween⟩ :=
      ihb stack output (hstack.mono (Nat.le_of_lt hj)) hforest
    have htoken : passOnto ⟨stack, output⟩ (op.token :: b) =
        .ok ⟨.operator op :: stack, settle ops output₁⟩ := by
      rw [passOnto, hb, Except.bind, step_operator,
        release_waiting (fun op' h => Nat.lt_of_le_of_lt (hops op' h) hj) hstack]
    obtain ⟨ops', output₂, ha, hops', hafter⟩ :=
      iha (.operator op :: stack) (settle ops output₁) hi hbetween
    refine ⟨ops' ++ [op], output₂, ?_, ?_, ?_⟩
    · rw [passOnto_append, htoken, Except.bind, ha]
      simp [waiting]
    · intro op' hmem
      rcases List.mem_append.1 hmem with hleft | hlast
      · exact Nat.le_trans (hops' op' hleft) hi
      · exact Nat.le_of_eq (by rw [List.mem_singleton.1 hlast])
    · rw [settle_append]
      exact forest?_operator.2 ⟨x, y, after, hafter, rfl⟩

/-- Tokens that can be read come out of the pass in the order that makes the same trees. -/
theorem operatorFirst_of_reads {rank : Nat} {s : List Token} {trees : List Expr}
    (h : Reads rank s [] trees) :
    ∃ queue, operatorFirst s = .ok queue ∧ forest? queue = some trees := by
  obtain ⟨ops, output, hpass, -, hforest⟩ :=
    pass_of_reads h [] [] trivial rfl
  refine ⟨settle ops output, ?_, hforest⟩
  rw [operatorFirst, pass_eq_passOnto, hpass, List.append_nil, Except.bind, finish_waiting]

/-! ### Nothing else goes through -/

/-- What has been read when the pass is in the middle of its work: the tokens `s` have left the given
stack and the trees `after` behind.  To the left of each operator or group that waits, there are
tokens that could be read on their own; `rank` is that of the leftmost of these pieces. -/
inductive Pending : (rank : Nat) → List Waiting → (s : List Token) → (after : List Expr) → Prop where
  | start {rank : Nat} {s : List Token} {after : List Expr} :
      Reads rank s [] after → Pending rank [] s after
  | group {rank : Nat} {stack : List Waiting} {a s : List Token} {before after : List Expr} :
      Pending 0 stack s before → Reads rank a before after →
      Pending rank (.group :: stack) (a ++ closing :: s) after
  | operator {rank j : Nat} {stack : List Waiting} {a s : List Token} {before after : List Expr}
      (op : Operator) :
      Pending j stack s before → j < op.rank → Above op.rank stack → Reads rank a before after →
      Pending rank (.operator op :: stack) (a ++ op.token :: s) after

/-- More tokens to the left only concern the leftmost piece. -/
theorem Pending.extend {i j : Nat} {stack : List Waiting} {s front : List Token}
    {between after : List Expr} (h : Pending j stack s between)
    (hfront : ∀ a before, Reads j a before between → Reads i (front ++ a) before after) :
    Pending i stack (front ++ s) after := by
  cases h with
  | start hs => exact .start (hfront _ _ hs)
  | group hbelow ha =>
    rw [← List.append_assoc]
    exact .group hbelow (hfront _ _ ha)
  | operator op hbelow hj habove ha =>
    rw [← List.append_assoc]
    exact .operator op hbelow hj habove (hfront _ _ ha)

/-- An operator that finds two trees when it leaves the stack joins the pieces on its two sides. -/
theorem Pending.settle {rank : Nat} {op : Operator} {stack : List Waiting} {s : List Token}
    {after trees : List Expr} {output : List Token}
    (h : Pending rank (.operator op :: stack) s after) (hrank : rank ≤ op.rank)
    (houtput : forest? output = some after) (hforest : forest? (op.token :: output) = some trees) :
    Pending op.rank stack s trees ∧ Above op.rank stack := by
  obtain ⟨x, y, behind, hxy, rfl⟩ := forest?_operator.1 hforest
  rw [houtput] at hxy
  cases hxy
  cases h with
  | @operator _ j _ a s before _ _ hbelow hj habove ha =>
    refine ⟨?_, habove⟩
    have hjoin : Pending op.rank stack ((a ++ [op.token]) ++ s)
        (.binary op.symbol x y :: behind) := by
      refine hbelow.extend fun b before' hb => ?_
      rw [List.append_assoc, List.singleton_append]
      exact .operator op hb ha hj hrank
    rwa [List.append_assoc, List.singleton_append] at hjoin

/-- What comes to the front of the output leaves a forest behind it. -/
theorem forest?_tail {token : Token} {output : List Token} {trees : List Expr}
    (h : forest? (token :: output) = some trees) : ∃ behind, forest? output = some behind := by
  cases token with
  | operand o =>
    obtain ⟨behind, hbehind, -⟩ := forest?_operand.1 h
    exact ⟨behind, hbehind⟩
  | operator symbol =>
    obtain ⟨x, y, behind, hbehind, -⟩ := forest?_operator.1 h
    exact ⟨x :: y :: behind, hbehind⟩

theorem forest?_of_release {rank : Nat} {stack : List Waiting} {output : List Token}
    {trees : List Expr} (h : forest? (release rank stack output).output = some trees) :
    ∃ before, forest? output = some before := by
  fun_induction release rank stack output generalizing trees with
  | case1 op stack output _ ih =>
    obtain ⟨before, hbefore⟩ := ih h
    exact forest?_tail hbefore
  | case2 => exact ⟨trees, h⟩
  | case3 => exact ⟨trees, h⟩

theorem forest?_of_endGroup {stack : List Waiting} {output : List Token} {s : State}
    {trees : List Expr} (hend : endGroup stack output = .ok s)
    (h : forest? s.output = some trees) : ∃ before, forest? output = some before := by
  fun_induction endGroup stack output generalizing trees with
  | case1 => cases hend
  | case2 => cases hend; exact ⟨trees, h⟩
  | case3 op stack output ih =>
    obtain ⟨before, hbefore⟩ := ih hend h
    exact forest?_tail hbefore

theorem forest?_of_finish {stack : List Waiting} {output queue : List Token} {trees : List Expr}
    (hfinish : finish stack output = .ok queue) (h : forest? queue = some trees) :
    ∃ before, forest? output = some before := by
  fun_induction finish stack output generalizing trees with
  | case1 => cases hfinish; exact ⟨trees, h⟩
  | case2 => cases hfinish
  | case3 op stack output ih =>
    obtain ⟨before, hbefore⟩ := ih hfinish h
    exact forest?_tail hbefore

theorem Pending.release {rank r : Nat} {stack : List Waiting} {s output : List Token}
    {before trees : List Expr} (h : Pending rank stack s before) (hrank : rank < r)
    (habove : Above rank stack) (houtput : forest? output = some before)
    (hforest : forest? (release r stack output).output = some trees) :
    ∃ j, Pending j (release r stack output).stack s trees ∧ j < r ∧
      Above r (release r stack output).stack := by
  fun_induction OperatorFirst.release r stack output generalizing rank before with
  | case1 op stack output hlt ih =>
    obtain ⟨between, hbetween⟩ := forest?_of_release hforest
    obtain ⟨hbelow, habove'⟩ := h.settle habove houtput hbetween
    exact ih hbelow hlt habove' hbetween hforest
  | case2 op stack output hge =>
    rw [houtput] at hforest
    cases hforest
    exact ⟨rank, h, hrank, Nat.not_lt.1 hge⟩
  | case3 stack output hgroup =>
    rw [houtput] at hforest
    cases hforest
    refine ⟨rank, h, hrank, ?_⟩
    match stack, hgroup with
    | [], _ => trivial
    | .group :: _, _ => trivial
    | .operator op :: below, hgroup => exact absurd rfl (hgroup op below)

theorem Pending.endGroup {rank : Nat} {stack : List Waiting} {s output : List Token} {t : State}
    {before trees : List Expr} (h : Pending rank stack s before) (habove : Above rank stack)
    (houtput : forest? output = some before) (hend : endGroup stack output = .ok t)
    (hforest : forest? t.output = some trees) : Pending 0 t.stack (opening :: s) trees := by
  fun_induction OperatorFirst.endGroup stack output generalizing rank before with
  | case1 => cases hend
  | case2 stack output =>
    cases hend
    rw [houtput] at hforest
    cases hforest
    cases h with
    | @group _ _ a s between _ hbelow ha =>
      have hjoin : Pending 0 stack ((opening :: a ++ [closing]) ++ s) trees := by
        refine hbelow.extend fun b before' hb => ?_
        rw [List.append_assoc, List.singleton_append]
        exact .group hb ha
      rwa [List.append_assoc, List.singleton_append, List.cons_append] at hjoin
  | case3 op stack output ih =>
    obtain ⟨between, hbetween⟩ := forest?_of_endGroup hend hforest
    obtain ⟨hbelow, habove'⟩ := h.settle habove houtput hbetween
    exact ih hbelow habove' hbetween hend

theorem Pending.finish {rank : Nat} {stack : List Waiting} {s output queue : List Token}
    {before trees : List Expr} (h : Pending rank stack s before) (habove : Above rank stack)
    (houtput : forest? output = some before) (hfinish : finish stack output = .ok queue)
    (hforest : forest? queue = some trees) : ∃ j, Reads j s [] trees := by
  fun_induction OperatorFirst.finish stack output generalizing rank before with
  | case1 output =>
    cases hfinish
    rw [houtput] at hforest
    cases hforest
    cases h with
    | start hs => exact ⟨rank, hs⟩
  | case2 => cases hfinish
  | case3 op stack output ih =>
    obtain ⟨between, hbetween⟩ := forest?_of_finish hfinish hforest
    obtain ⟨hbelow, habove'⟩ := h.settle habove houtput hbetween
    exact ih hbelow habove' hbetween hfinish

/-- **The pass on any tokens.**  If what the pass has put out so far stands for trees, then the
tokens taken so far have been read as these trees, up to what still waits. -/
theorem pending_of_pass {tokens : List Token} {s : State} {trees : List Expr}
    (hpass : pass tokens = .ok s) (hforest : forest? s.output = some trees) :
    Pending 0 s.stack tokens trees := by
  induction tokens generalizing s trees with
  | nil =>
    cases hpass
    cases hforest
    exact .start (.nil [])
  | cons token tokens ih =>
    rw [OperatorFirst.pass] at hpass
    cases hrest : pass tokens with
    | error fault =>
      rw [hrest] at hpass
      cases hpass
    | ok s' =>
      rw [hrest] at hpass
      replace hpass : step token s' = .ok s := hpass
      cases token with
      | operand o =>
        cases hpass
        obtain ⟨before, hbefore, rfl⟩ := forest?_operand.1 hforest
        show Pending 0 s'.stack ([.operand o] ++ tokens) (.operand o :: before)
        refine (ih hrest hbefore).extend fun a before' ha => ?_
        exact .operand o ha
      | operator symbol =>
        unfold step at hpass
        simp only at hpass
        split at hpass
        · -- a closing parenthesis: nothing is read to its left yet
          rename_i hclosing
          subst hclosing
          cases hpass
          exact .group (ih hrest hforest) (.nil trees)
        · split at hpass
          · rename_i hopening
            subst hopening
            obtain ⟨before, hbefore⟩ := forest?_of_endGroup hpass hforest
            exact (ih hrest hbefore).endGroup (above_zero _) hbefore hpass hforest
          · split at hpass
            · cases hpass
            · rename_i op hop
              cases hpass
              obtain ⟨before, hbefore⟩ := forest?_of_release hforest
              obtain ⟨j, hpending, hj, habove'⟩ :=
                (ih hrest hbefore).release (rank_pos op) (above_zero _) hbefore hforest
              rw [← symbol_of_ofSymbol? hop]
              exact .operator op hpending hj habove' (.nil trees)

/-- Tokens whose operator-first order stands for trees can be read as these trees. -/
theorem reads_of_operatorFirst {tokens queue : List Token} {trees : List Expr}
    (h : operatorFirst tokens = .ok queue) (hforest : forest? queue = some trees) :
    ∃ rank, Reads rank tokens [] trees := by
  unfold operatorFirst at h
  cases hpass : pass tokens with
  | error fault =>
    rw [hpass] at h
    cases h
  | ok s =>
    rw [hpass] at h
    replace h : finish s.stack s.output = .ok queue := h
    obtain ⟨before, hbefore⟩ := forest?_of_finish h hforest
    exact (pending_of_pass hpass hbefore).finish (above_zero _) hbefore h hforest

/-- **What is read.**  The reader gives a tree for tokens exactly where the rule of reading does, and
it gives that tree. -/
theorem ofTokens_eq_ok_iff_reads {tokens : List Token} {tree : Expr} :
    ofTokens tokens = .ok tree ↔ ∃ rank, Reads rank tokens [] [tree] := by
  rw [ofTokens_eq_ok_iff]
  constructor
  · rintro ⟨queue, hqueue, hforest⟩
    exact reads_of_operatorFirst hqueue hforest
  · rintro ⟨rank, h⟩
    exact operatorFirst_of_reads h

end Expr

end Pipeline
