import Pipeline.Proofs.Expr.Grammar
import Pipeline.Proofs.Expr.Semantics

/-!
# No token is lost

The reader never asks whether an operand or an operator is due, so it accepts more than sentences.  But
it uses all that it is given.  The pass puts every token that is no parenthesis into the output once, and
operands in their order; it stops only at parentheses, and a count of these tells where.  The assembly
makes one node of every token.

* `Carries.step`, `carries_of_pass` : what the pass holds is what it has taken.
* `groups_of_pass` : a group waits for every closing parenthesis that has met no opening one.
* `operatorFirst_cases` : so the pass stops where a suffix has more opening parentheses than closing ones,
  or at its end, where closing ones are left.
* `leaves_of_forest?`, `innerNodes_of_forest?` : the nodes of the trees are the tokens of the queue.
* `tokens_conserved` : all of it together.
-/

namespace Pipeline

/-! ### Tokens and nodes -/

namespace Token

/-- Whether a token stands for a value. -/
def isOperand : Token → Bool
  | .operand _ => true
  | .operator _ => false

/-- Whether a token opens or closes a group. -/
def isParenthesis (token : Token) : Bool :=
  token == opening || token == closing

/-- Whether a token is an operator with two operands. -/
def isBinary (token : Token) : Bool :=
  !token.isOperand && !token.isParenthesis

/-- Some of the last tokens have more opening parentheses than closing ones. -/
def OpensMore (tokens : List Token) : Prop :=
  ∃ suffix, suffix <:+ tokens ∧ suffix.count closing < suffix.count opening

end Token

namespace Expr

/-- The token of the node at the top of a tree. -/
def top : Expr → Token
  | .operand o => .operand o
  | .binary symbol _ _ => .operator symbol

/-- The operands of the node at the top of a tree. -/
def children : Expr → List Expr
  | .operand _ => []
  | .binary _ left right => [left, right]

/-- The tokens of the nodes without operands, from left to right. -/
def leaves (t : Expr) : List Token :=
  (t.postorder.filter (·.children.isEmpty)).map top

/-- The tokens of the nodes with operands. -/
def innerNodes (t : Expr) : List Token :=
  (t.postorder.filter (!·.children.isEmpty)).map top

theorem leaves_binary (symbol : String) (left right : Expr) :
    (binary symbol left right).leaves = left.leaves ++ right.leaves := by
  simp [leaves, postorder, children]

theorem innerNodes_binary (symbol : String) (left right : Expr) :
    (binary symbol left right).innerNodes =
      left.innerNodes ++ right.innerNodes ++ [.operator symbol] := by
  simp [innerNodes, postorder, children, top]

/-- A node has two operands if its token is an operator, and none if it stands for a value. -/
theorem length_children (t : Expr) :
    t.children.length = if t.top.isOperand then 0 else 2 := by
  cases t <;> rfl

end Expr

open Token

/-! ### The pass -/

namespace OperatorFirst

/-- The tokens of the operators that wait. -/
def waitingTokens (stack : List Waiting) : List Token :=
  stack.filterMap fun
    | .operator op => some op.token
    | .group => none

/-- Stack and output hold the given tokens without the parentheses, and the output holds all operands
among them in their order. -/
structure Carries (tokens : List Token) (stack : List Waiting) (output : List Token) : Prop where
  perm : (waitingTokens stack ++ output).Perm (tokens.filter (!·.isParenthesis))
  operands : output.filter (·.isOperand) = tokens.filter (·.isOperand)

namespace Carries

variable {tokens output queue : List Token} {stack : List Waiting} {s s' : State}

/-- An operator that leaves the stack is put out. -/
theorem settle {op : Operator} (h : Carries tokens (.operator op :: stack) output) :
    Carries tokens stack (op.token :: output) :=
  ⟨List.perm_middle.trans h.perm, h.operands⟩

theorem release (h : Carries tokens stack output) (rank : Nat) :
    Carries tokens (release rank stack output).stack (release rank stack output).output := by
  fun_induction OperatorFirst.release rank stack output with
  | case1 output op stack _ ih => exact ih h.settle
  | case2 => exact h
  | case3 => exact h

theorem endGroup (h : Carries tokens stack output) (hend : endGroup stack output = .ok s) :
    Carries tokens s.stack s.output := by
  fun_induction OperatorFirst.endGroup stack output with
  | case1 => cases hend
  | case2 => cases hend; exact ⟨h.perm, h.operands⟩
  | case3 op stack output ih => exact ih h.settle hend

theorem finish (h : Carries tokens stack output) (hfinish : finish stack output = .ok queue) :
    Carries tokens [] queue := by
  fun_induction OperatorFirst.finish stack output with
  | case1 => cases hfinish; exact h
  | case2 => cases hfinish
  | case3 op stack output ih => exact ih h.settle hfinish

/-- A step takes one token more. -/
theorem step {token : Token} (htoken : token.Lexical) (h : Carries tokens s.stack s.output)
    (hstep : step token s = .ok s') : Carries (token :: tokens) s'.stack s'.output := by
  cases token with
  | operand o =>
    cases hstep
    exact ⟨List.perm_middle.trans (h.perm.cons _), congrArg (Token.operand o :: ·) h.operands⟩
  | operator symbol =>
    rcases Expr.lexical_operator htoken with rfl | rfl | ⟨op, rfl⟩
    · cases hstep
      exact ⟨h.perm, h.operands⟩
    · have hended := h.endGroup hstep
      exact ⟨hended.perm, hended.operands⟩
    · replace hstep : OperatorFirst.step op.token s = .ok s' := hstep
      rw [Expr.step_operator] at hstep
      cases hstep
      have hreleased := h.release op.rank
      refine ⟨?_, hreleased.operands⟩
      show List.Perm _ ((op.token :: tokens).filter (!·.isParenthesis))
      rw [List.filter_cons_of_pos (by cases op <;> rfl)]
      exact hreleased.perm.cons op.token

end Carries

theorem carries_of_pass (htokens : ∀ token ∈ tokens, token.Lexical) (hpass : pass tokens = .ok s) :
    Carries tokens s.stack s.output := by
  induction tokens generalizing s with
  | nil => cases hpass; exact ⟨.nil, rfl⟩
  | cons token tokens ih =>
    obtain ⟨htoken, htokens⟩ := List.forall_mem_cons.1 htokens
    obtain ⟨s', hs', hstep⟩ := exists_of_bind_eq_ok hpass
    exact (ih htokens hs').step htoken hstep

/-! ### Where the pass stops -/

/-- A step ends a group for an opening parenthesis, if one waits, and begins one for a closing
parenthesis. -/
theorem groups_of_step {token : Token} (htoken : token.Lexical) (s : State) :
    (token = opening ∧ groups s.stack = 0 ∧ step token s = .error (.of .missingClosing)) ∨
      ∃ s', step token s = .ok s' ∧
        groups s'.stack + [token].count opening = groups s.stack + [token].count closing := by
  cases token with
  | operand o => exact .inr ⟨_, rfl, rfl⟩
  | operator symbol =>
    rcases Expr.lexical_operator htoken with rfl | rfl | ⟨op, rfl⟩
    · have hcount : groups (.group :: s.stack) = groups s.stack + 1 := List.count_cons_self
      exact .inr ⟨⟨.group :: s.stack, s.output⟩, rfl, hcount⟩
    · rcases Nat.eq_zero_or_pos (groups s.stack) with hnone | hsome
      · exact .inl ⟨rfl, hnone, endGroup_eq_error hnone s.output⟩
      · obtain ⟨s', hs', hgroups⟩ := exists_of_endGroup hsome s.output
        exact .inr ⟨s', hs', hgroups⟩
    · refine .inr ⟨_, Expr.step_operator op s, ?_⟩
      have hopening : [op.token].count opening = 0 := by cases op <;> rfl
      have hclosing : [op.token].count closing = 0 := by cases op <;> rfl
      have hreleased := groups_release op.rank s.stack s.output
      have hcount : groups (.operator op :: (release op.rank s.stack s.output).stack) =
          groups (release op.rank s.stack s.output).stack := by simp [groups]
      show groups (.operator op :: (release op.rank s.stack s.output).stack) +
        [op.token].count opening = groups s.stack + [op.token].count closing
      omega

/-- The pass stops at the first opening parenthesis from the right for which no group waits.  If it
goes through, a group is left for every closing parenthesis that has met no opening one. -/
theorem groups_of_pass (htokens : ∀ token ∈ tokens, token.Lexical) :
    (OpensMore tokens ∧ pass tokens = .error (.of .missingClosing)) ∨
      (¬ OpensMore tokens ∧ ∃ s, pass tokens = .ok s ∧
        groups s.stack + tokens.count opening = tokens.count closing) := by
  induction tokens with
  | nil =>
    refine .inr ⟨?_, _, rfl, rfl⟩
    rintro ⟨suffix, hsuffix, hmore⟩
    rw [List.suffix_nil.1 hsuffix] at hmore
    exact absurd hmore (Nat.lt_irrefl 0)
  | cons token tokens ih =>
    obtain ⟨htoken, htokens⟩ := List.forall_mem_cons.1 htokens
    have hpass : pass (token :: tokens) = (pass tokens).bind (step token) := rfl
    have hcount (t : Token) : (token :: tokens).count t = [token].count t + tokens.count t := by
      rw [← List.count_append, List.singleton_append]
    rcases ih htokens with ⟨⟨suffix, hsuffix, hmore⟩, hstops⟩ | ⟨hnot, s, hs, hgroups⟩
    · refine .inl ⟨⟨suffix, hsuffix.trans (List.suffix_cons token tokens), hmore⟩, ?_⟩
      rw [hpass, hstops]
      rfl
    · rw [hpass, hs]
      rcases groups_of_step htoken s with ⟨rfl, hnone, hstops⟩ | ⟨s', hs', hstep⟩
      · refine .inl ⟨⟨opening :: tokens, List.suffix_refl _, ?_⟩, hstops⟩
        have hone : [opening].count opening = 1 := rfl
        have hother : [opening].count closing = 0 := rfl
        rw [hcount, hcount]
        omega
      · have hwhole : groups s'.stack + (token :: tokens).count opening =
            (token :: tokens).count closing := by
          rw [hcount, hcount]
          omega
        refine .inr ⟨?_, s', hs', hwhole⟩
        rintro ⟨suffix, hsuffix, hmore⟩
        rcases List.suffix_cons_iff.1 hsuffix with rfl | hsuffix
        · omega
        · exact hnot ⟨suffix, hsuffix, hmore⟩

/-- What the pass and its end make of tokens. -/
theorem operatorFirst_cases (htokens : ∀ token ∈ tokens, token.Lexical) :
    (OpensMore tokens ∧ operatorFirst tokens = .error (.of .missingClosing)) ∨
      (¬ OpensMore tokens ∧ tokens.count opening < tokens.count closing ∧
        operatorFirst tokens = .error (.of .missingOpening)) ∨
      (¬ OpensMore tokens ∧ tokens.count closing ≤ tokens.count opening ∧
        ∃ queue, operatorFirst tokens = .ok queue ∧ Carries tokens [] queue) := by
  unfold operatorFirst
  rcases groups_of_pass htokens with ⟨hmore, hstops⟩ | ⟨hnot, s, hs, hgroups⟩
  · exact .inl ⟨hmore, by rw [hstops]; rfl⟩
  · rw [hs]
    rcases finish_cases s.stack s.output with ⟨hnone, queue, hqueue⟩ | ⟨hleft, hstops⟩
    · have hcarries := (carries_of_pass htokens hs).finish hqueue
      exact .inr (.inr ⟨hnot, by omega, queue, hqueue, hcarries⟩)
    · exact .inr (.inl ⟨hnot, by omega, hstops⟩)

end OperatorFirst

/-! ### The assembly -/

namespace Expr

open OperatorFirst

theorem leaves_of_forest? {queue : List Token} {trees : List Expr}
    (h : forest? queue = some trees) :
    trees.flatMap leaves = queue.filter (·.isOperand) := by
  induction queue generalizing trees with
  | nil => cases h; rfl
  | cons token queue ih =>
    cases token with
    | operand o =>
      obtain ⟨behind, hbehind, rfl⟩ := forest?_operand.1 h
      exact congrArg (Token.operand o :: ·) (ih hbehind)
    | operator symbol =>
      obtain ⟨left, right, behind, hbehind, rfl⟩ := forest?_operator.1 h
      calc (binary symbol left right :: behind).flatMap leaves
          = (left :: right :: behind).flatMap leaves := by
            simp only [List.flatMap_cons, leaves_binary, List.append_assoc]
        _ = queue.filter (·.isOperand) := ih hbehind

theorem innerNodes_of_forest? {queue : List Token} {trees : List Expr}
    (h : forest? queue = some trees) :
    (trees.flatMap innerNodes).Perm (queue.filter (!·.isOperand)) := by
  induction queue generalizing trees with
  | nil => cases h; rfl
  | cons token queue ih =>
    cases token with
    | operand o =>
      obtain ⟨behind, hbehind, rfl⟩ := forest?_operand.1 h
      exact (ih hbehind :)
    | operator symbol =>
      obtain ⟨left, right, behind, hbehind, rfl⟩ := forest?_operator.1 h
      have hnodes : (left :: right :: behind).flatMap innerNodes =
          (left.innerNodes ++ right.innerNodes) ++ behind.flatMap innerNodes := by
        simp only [List.flatMap_cons, List.append_assoc]
      calc (binary symbol left right :: behind).flatMap innerNodes
          = (left.innerNodes ++ right.innerNodes) ++
              .operator symbol :: behind.flatMap innerNodes := by
            simp only [List.flatMap_cons, innerNodes_binary, List.append_assoc,
              List.singleton_append]
        _ |>.Perm (.operator symbol :: (left :: right :: behind).flatMap innerNodes) :=
            hnodes ▸ List.perm_middle
        _ |>.Perm ((.operator symbol :: queue).filter (!·.isOperand)) := (ih hbehind).cons _

/-- The tree of a queue has the operands as its leaves. -/
theorem leaves_of_queue {tokens queue : List Token} {tree : Expr} (h : Carries tokens [] queue)
    (hforest : forest? queue = some [tree]) : tree.leaves = tokens.filter (·.isOperand) := by
  have hleaves := leaves_of_forest? hforest
  rw [List.flatMap_singleton, h.operands] at hleaves
  exact hleaves

/-- And the operators as its inner nodes. -/
theorem innerNodes_of_queue {tokens queue : List Token} {tree : Expr} (h : Carries tokens [] queue)
    (hforest : forest? queue = some [tree]) :
    tree.innerNodes.Perm (tokens.filter (·.isBinary)) := by
  have hnodes := innerNodes_of_forest? hforest
  rw [List.flatMap_singleton] at hnodes
  have hoperators := h.perm.filter (!·.isOperand)
  rw [List.filter_filter] at hoperators
  exact hnodes.trans hoperators

/-! ### All of it -/

/-- **Every token is used once, and the operands in order.**  For any tokens of the lexer, a sentence
or not, the pass misses a closing parenthesis exactly where some suffix has more opening parentheses
than closing ones.  Where there is no such suffix, it misses an opening parenthesis exactly where the
whole has more closing ones, and gives a rearrangement of the other tokens otherwise.  A tree has the
operands as its leaves and the operators as its inner nodes, each with two operands. -/
theorem tokens_conserved {tokens : List Token} (htokens : ∀ token ∈ tokens, token.Lexical) :
    (operatorFirst tokens = .error (.of .missingClosing) ↔ OpensMore tokens) ∧
      (operatorFirst tokens = .error (.of .missingOpening) ↔
        ¬ OpensMore tokens ∧ tokens.count opening < tokens.count closing) ∧
      (¬ OpensMore tokens ∧ tokens.count closing ≤ tokens.count opening →
        ∃ queue, operatorFirst tokens = .ok queue ∧
          queue.Perm (tokens.filter (!·.isParenthesis)) ∧
          queue.filter (·.isOperand) = tokens.filter (·.isOperand)) ∧
      ∀ tree, ofTokens tokens = .ok tree →
        tree.leaves = tokens.filter (·.isOperand) ∧
          tree.innerNodes.Perm (tokens.filter (·.isBinary)) ∧
          ∀ node ∈ tree.postorder, node.children.length = if node.top.isOperand then 0 else 2 := by
  have hne : Except.error (Fault.of .missingClosing) ≠
      (Except.error (Fault.of .missingOpening) : Except Fault (List Token)) := by decide
  rcases operatorFirst_cases htokens with
    ⟨hmore, hstops⟩ | ⟨hnot, hless, hstops⟩ | ⟨hnot, hle, queue, hqueue, hcarries⟩
  · refine ⟨iff_of_true hstops hmore, ?_, fun h => absurd hmore h.1, fun tree htree => ?_⟩
    · exact iff_of_false (hstops ▸ hne) fun h => h.1 hmore
    · obtain ⟨_, hqueue, -⟩ := ofTokens_eq_ok_iff.1 htree
      rw [hstops] at hqueue
      cases hqueue
  · refine ⟨iff_of_false (hstops ▸ hne.symm) hnot, iff_of_true hstops ⟨hnot, hless⟩,
      fun h => absurd hless (Nat.not_lt.2 h.2), fun tree htree => ?_⟩
    obtain ⟨_, hqueue, -⟩ := ofTokens_eq_ok_iff.1 htree
    rw [hstops] at hqueue
    cases hqueue
  · have hok {fault : Fault} : operatorFirst tokens ≠ .error fault := by rw [hqueue]; nofun
    refine ⟨iff_of_false hok hnot, iff_of_false hok fun h => absurd h.2 (Nat.not_lt.2 hle),
      fun _ => ⟨queue, hqueue, hcarries.perm, hcarries.operands⟩, fun tree htree => ?_⟩
    obtain ⟨_, hqueue', hforest⟩ := ofTokens_eq_ok_iff.1 htree
    cases hqueue.symm.trans hqueue'
    exact ⟨leaves_of_queue hcarries hforest, innerNodes_of_queue hcarries hforest,
      fun node _ => node.length_children⟩

/-- Two operands with the operator behind them are accepted, and keep their places: `1 2 +`.  The
parentheses of `) 1 (` are as many on both sides, and yet the last one is not closed. -/
theorem tokens_conserved_operator_behind :
    let tokens := [numberOf "1", numberOf "2", .operator "+"]
    (∃ tree, ofTokens tokens = .ok tree ∧ tree.leaves = [numberOf "1", numberOf "2"] ∧
        tree.innerNodes = [.operator "+"]) ∧
      operatorFirst [closing, numberOf "1", opening] = .error (.of .missingClosing) := by
  intro tokens
  have htokens : ∀ token ∈ tokens, token.Lexical :=
    List.forall_mem_cons.2 ⟨trivial, List.forall_mem_cons.2 ⟨trivial,
      List.forall_mem_singleton.2 ⟨'+', by decide, rfl⟩⟩⟩
  have hbetween : ∀ token ∈ [closing, numberOf "1", opening], token.Lexical :=
    List.forall_mem_cons.2 ⟨⟨')', by decide, rfl⟩, List.forall_mem_cons.2 ⟨trivial,
      List.forall_mem_singleton.2 ⟨'(', by decide, rfl⟩⟩⟩
  have htree : ofTokens tokens = .ok
      (.binary "+" (.operand ⟨.number, "1"⟩) (.operand ⟨.number, "2"⟩)) := by
    exact ofTokens_eq_ok_iff.2 ⟨[.operator "+", numberOf "1", numberOf "2"], by decide, rfl⟩
  obtain ⟨hleaves, hnodes, -⟩ := (tokens_conserved htokens).2.2.2 _ htree
  refine ⟨⟨_, htree, hleaves, List.perm_singleton.1 hnodes⟩, (tokens_conserved hbetween).1.2 ?_⟩
  exact ⟨[opening], ⟨[closing, numberOf "1"], rfl⟩, by decide⟩

end Expr

end Pipeline
