import Pipeline.Proofs.Execution.Branches

/-!
# Chains of branches

A chain may stand anywhere in a sequence of nodes.  The mark that it leaves matters to the nodes behind
it, so the structured run is given that mark where it ends; the frame of the sequence is left when the
sequence is, and with it the mark.  What the structured run does about a node apart from running it is
that the node is counted, and this changes counts and nothing else.

* `Chain.counted_runFrom` : the nodes that are counted are those that are reached.
* `chain_structured` : executing a chain among other nodes is its structured run.
-/

namespace Pipeline

/-! ### What is counted -/

/-- How often a command was counted. -/
def Environment.countOf (env : Environment) (command : String) : Nat :=
  (env.counts.find? command).getD 0

/-- Two environments differ in their journals, and in that some nodes were counted in one of them. -/
def Environment.Counted (nodes : List Node) (env env' : Environment) : Prop :=
  ∃ counts journal, env' = { env with counts := counts, journal := journal } ∧
    ∀ command, env'.countOf command =
      env.countOf command + nodes.countP (·.statement.command = command)

/-- Two computations ended in the same way, and in the second one some nodes were counted, which
depend on the end. -/
def CountsAlso (nodes : Except Fault Value → List Node)
    (ran ran' : Except Fault Value × Environment) : Prop :=
  ran.1 = ran'.1 ∧ Environment.Counted (nodes ran.1) ran.2 ran'.2

theorem Environment.countOf_count (env : Environment) (name command : String) :
    (env.count name).countOf command =
      env.countOf command + if name = command then 1 else 0 := by
  rw [countOf, count, Table.find?_insert]
  by_cases h : command = name
  · subst h
    rw [if_pos rfl, if_pos rfl]
    rfl
  · rw [if_neg h, if_neg (Ne.symm h)]
    rfl

/-- Execution does not see what was counted, and counts on. -/
theorem lockstep_counted (setup : Setup) (nodes : List Node) :
    Lockstep setup fun _ _ => Environment.Counted nodes where
  bindings := by rintro n c env env' ⟨counts, journal, rfl, -⟩; rfl
  functions := by rintro n c env env' ⟨counts, journal, rfl, -⟩; rfl
  store := by rintro n c env env' ⟨counts, journal, rfl, -⟩; rfl
  callDepth := by rintro n c env env' ⟨counts, journal, rfl, -⟩; rfl
  chain := by rintro n c env env' ⟨counts, journal, rfl, -⟩; rfl
  depth := by rintro n c env env' name - ⟨counts, journal, rfl, -⟩; rfl
  change := by
    rintro n c env env' x ⟨counts, journal, rfl, hcounts⟩
    cases x with
    | count name =>
      refine ⟨_, _, rfl, fun command => ?_⟩
      show Environment.countOf (Environment.count _ name) command =
        Environment.countOf (Environment.count _ name) command + _
      rw [Environment.countOf_count, Environment.countOf_count, hcounts]
      omega
    | _ => exact ⟨_, _, rfl, hcounts⟩
  setChain := by
    rintro n c ⟨_, _, _, _, _, frames, _, _⟩ env' state ⟨counts, journal, rfl, hcounts⟩
    cases frames <;> exact ⟨_, _, rfl, hcounts⟩
  pushFrame := by rintro n c env env' ⟨counts, journal, rfl, hcounts⟩; exact ⟨_, _, rfl, hcounts⟩
  popFrame := by rintro n c env env' ⟨counts, journal, rfl, hcounts⟩; exact ⟨_, _, rfl, hcounts⟩
  startCall := by rintro n c env env' ⟨counts, journal, rfl, hcounts⟩; exact ⟨_, _, rfl, hcounts⟩
  endCall := by rintro n c env env' ⟨counts, journal, rfl, hcounts⟩; exact ⟨_, _, rfl, hcounts⟩

theorem Environment.Counted.refl (env : Environment) : Environment.Counted [] env env :=
  ⟨env.counts, env.journal, rfl, fun _ => rfl⟩

theorem Environment.Counted.report {setup : Setup} {nodes : List Node} {env env' : Environment}
    (h : Environment.Counted nodes env env') (node : Node) (result : Except Fault Value) :
    Environment.Counted nodes env (env'.report setup node result) := by
  obtain ⟨journal, hreport⟩ := env'.exists_report_eq setup node result
  rw [hreport]
  obtain ⟨counts, _, rfl, hcounts⟩ := h
  exact ⟨counts, journal, rfl, hcounts⟩

/-- Attending to a node counts it, and changes nothing else but the journal. -/
theorem counted_attend (setup : Setup) {nodes : List Node} {env env' : Environment} {m : Exec Value}
    (hm : ∀ nodes, Exec.Agrees (Environment.Counted nodes) m) (node : Node)
    (h : Environment.Counted nodes env env') :
    CountsAlso (fun _ => nodes ++ [node]) (m env) (attend setup node m env') := by
  have hannounced : Environment.Counted (nodes ++ [node]) env (env'.announce node.statement) := by
    obtain ⟨counts, journal, rfl, hcounts⟩ := h
    refine ⟨_, _, rfl, fun command => ?_⟩
    have hcount := hcounts command
    rw [Environment.announce, Environment.countOf_count, List.countP_append, List.countP_singleton,
      ← Nat.add_assoc, ← hcount]
    simp only [decide_eq_true_eq]
    rfl
  obtain ⟨hresult, hleft⟩ := hm _ _ _ hannounced
  exact ⟨hresult, hleft.report node _⟩

/-- What is counted in two computations, one behind the other. -/
theorem CountsAlso.bind {nodes : Except Fault Value → List Node} {met : List Node}
    {m m' : Exec Value} {f f' : Runner} {env env' : Environment}
    (hm : CountsAlso (fun _ => met) (m env) (m' env'))
    (herror : ∀ fault, (m env).1 = .error fault → nodes (.error fault) = met)
    (hf : ∀ value {left left'}, Environment.Counted met left left' →
      CountsAlso nodes (f value left) (f' value left')) :
    CountsAlso nodes ((m >>= f) env) ((m' >>= f') env') := by
  obtain ⟨hresult, hcounted⟩ := hm
  rw [Exec.bind_apply, Exec.bind_apply]
  rcases hran : m env with ⟨result, left⟩
  rcases hran' : m' env' with ⟨result', left'⟩
  rw [hran, hran'] at hresult hcounted
  rw [hran] at herror
  obtain rfl : result = result' := hresult
  cases result with
  | error fault => exact ⟨rfl, (herror fault rfl).symm ▸ hcounted⟩
  | ok value => exact hf value hcounted

namespace Chain

/-- Whether a condition turns out false. -/
def isFalse (setup : Setup) (start : Environment) (b : Branch) : Bool :=
  match b.holds setup start with
  | .ok taken => !taken
  | .error _ => false

/-- The nodes that are reached, of those of some branches and perhaps a last one: all of them, unless
there is a fault; then those up to the first branch whose condition does not turn out false, and
otherwise up to the last branch. -/
def reachedFrom (setup : Setup) (start : Environment) (branches : List Branch) (nodes : List Node) :
    Except Fault Value → List Node
  | .ok _ => nodes
  | .error _ => nodes.take ((branches.takeWhile (isFalse setup start)).length + 1)

/-- The nodes of a chain that are reached. -/
def reached (setup : Setup) (start : Environment) (chain : Chain) :
    Except Fault Value → List Node :=
  reachedFrom setup start (chain.first :: chain.others) chain.nodes

variable {setup : Setup} {budget : Nat} {start env env' : Environment} {b : Branch}

theorem reachedFrom_cons_of_false (hfalse : isFalse setup start b = true) (rest : List Branch)
    (node : Node) (nodes : List Node) (result : Except Fault Value) :
    reachedFrom setup start (b :: rest) (node :: nodes) result =
      node :: reachedFrom setup start rest nodes result := by
  cases result with
  | ok value => rfl
  | error fault =>
    rw [reachedFrom, List.takeWhile_cons_of_pos hfalse, List.length_cons, List.take_succ_cons]
    rfl

theorem reachedFrom_cons_of_not_false (hfalse : isFalse setup start b = false) (rest : List Branch)
    (node : Node) (nodes : List Node) (fault : Fault) :
    reachedFrom setup start (b :: rest) (node :: nodes) (.error fault) = [node] := by
  rw [reachedFrom, List.takeWhile_cons_of_neg (hfalse ▸ Bool.false_ne_true)]
  rfl

theorem reachedFrom_last (node : Node) (result : Except Fault Value) :
    reachedFrom setup start [] [node] result = [node] := by
  cases result <;> rfl

theorem passBy_ignore (nodes : List Node) (value : Value) :
    passBy ignore nodes value = pure value := by
  induction nodes with
  | nil => rfl
  | cons node rest ih => rw [passBy, ignore, pure_bind, ih]

theorem counted_passBy (setup : Setup) {counted : List Node}
    (h : Environment.Counted counted env env') (nodes : List Node) (value : Value) :
    CountsAlso (fun _ => counted ++ nodes) (passBy ignore nodes value env)
      (passBy (attend setup) nodes value env') := by
  induction nodes generalizing counted value env env' with
  | nil =>
    rw [List.append_nil]
    exact ⟨rfl, h⟩
  | cons node rest ih =>
    rw [passBy, passBy]
    refine (counted_attend setup (fun _ => .pure value) node h).bind (fun _ hfault => nomatch hfault)
      fun value _ _ hcounted => ?_
    have hrest := ih hcounted value
    rwa [List.append_assoc] at hrest

/-- The nodes of branches in a row, the first of which has the given command. -/
def nodesFrom (last : Option LastBranch) (command : String) : List Branch → List Node
  | [] => last.toList.map (·.node)
  | b :: rest => b.node command :: continuations rest last

theorem nodesFrom_elif (last : Option LastBranch) (branches : List Branch) :
    nodesFrom last "elif" branches = continuations branches last := by
  cases branches <;> rfl

/-- The structured run counts the nodes that are reached, and otherwise does the same as one that
counts no node of the chain. -/
theorem counted_runFrom {counted : List Node} (last : Option LastBranch) (command : String)
    (branches : List Branch) (value : Value) (h : Environment.Counted counted env env') :
    CountsAlso (fun result => counted ++
        reachedFrom setup start branches (nodesFrom last command branches) result)
      (runFrom ignore setup (callWithin setup budget) start last value command branches env)
      (runFrom (attend setup) setup (callWithin setup budget) start last value command branches
        env') := by
  have hbody (body : Option (List Node)) (value : Value) (nodes : List Node) :=
    (lockstep_counted setup nodes).runBody budget 0 0 body value
  induction branches generalizing command counted value env env' with
  | nil =>
    cases last with
    | none =>
      rw [← List.append_nil counted] at h
      exact ⟨rfl, h⟩
    | some b =>
      dsimp only [runFrom, nodesFrom, Option.toList, List.map, ignore]
      simp only [reachedFrom_last]
      exact counted_attend setup (hbody b.body value) b.node h
  | cons b rest ih =>
    rw [nodesFrom]
    rcases hholds : b.holds setup start with fault | _ | _
    · have hfalse : isFalse setup start b = false := by rw [isFalse, hholds]
      obtain ⟨hresult, hcounted⟩ := counted_attend setup (fun _ => .throw fault) (b.node command) h
      rw [runFrom_of_error hholds, runFrom_of_error hholds]
      refine ⟨hresult, ?_⟩
      dsimp only [ignore, Exec.throw_apply]
      rwa [reachedFrom_cons_of_not_false hfalse]
    · have hfalse : isFalse setup start b = true := by rw [isFalse, hholds]; rfl
      rw [runFrom_of_false hholds, runFrom_of_false hholds]
      refine (counted_attend setup (fun _ => .pure value) (b.node command) h).bind
        (fun _ hfault => nomatch hfault) fun value _ _ hcounted => ?_
      have hrest := ih "elif" value hcounted
      rw [nodesFrom_elif] at hrest
      simp only [List.append_assoc] at hrest
      simp only [reachedFrom_cons_of_false hfalse]
      exact hrest
    · have hfalse : isFalse setup start b = false := by rw [isFalse, hholds]; rfl
      rw [runFrom_of_true hholds, runFrom_of_true hholds]
      refine (counted_attend setup (hbody b.body value) (b.node command) h).bind (fun fault _ => ?_)
        fun value _ _ hcounted => ?_
      · rw [reachedFrom_cons_of_not_false hfalse]
      · have hpassed := counted_passBy setup hcounted (continuations rest last) value
        rw [passBy_ignore] at hpassed ⊢
        rwa [List.append_assoc] at hpassed

/-- The structured run, with the mark that a chain leaves for a continuation. -/
def structured (setup : Setup) (call : List Node → Runner) (chain : Chain) (value : Value) :
    Exec Value := do
  let start ← get
  let result ← chain.run (attend setup) setup call value
  modify (·.setChain (markBehind setup start (chain.first :: chain.others) chain.last))
  return result

end Chain

/-- A computation in a frame of its own may end with any mark. -/
theorem inFrame_congr {α : Type} {m m' : Exec α}
    (h : ∀ env below, env.frames = none :: below →
      (m env).1 = (m' env).1 ∧ (m env).2.popFrame = (m' env).2.popFrame) :
    inFrame m = inFrame m' := by
  funext env
  obtain ⟨hresult, hleft⟩ := h env.pushFrame env.frames rfl
  exact Prod.ext hresult hleft

section

variable {setup : Setup} {budget : Nat} {nodes : List Node} {value : Value} {env : Environment}
  {mark : Option Bool} {below : List (Option Bool)}

/-- Nodes leave the frame open that they run in. -/
theorem marked_runNodes (h : env.frames = mark :: below) {result : Except Fault Value}
    {left : Environment}
    (hran : runNodes setup (callWithin setup budget) nodes value env = (result, left)) :
    ∃ mark, left.Marked mark left := by
  have hmark : ∃ mark,
      (runNodes setup (callWithin setup budget) nodes value env).2.frames = mark :: below :=
    exists_mark_of_agrees (fun L => L.runNodes (L.callWithin budget) 0 0 nodes value) h
  rw [hran] at hmark
  obtain ⟨mark, hframes⟩ := hmark
  exact ⟨mark, .refl hframes⟩

/-- A chain and what comes behind it are the structured run of the chain and what comes behind it, up
to the frame that is being left. -/
theorem chain_then (hchains : setup.registry.HasChains) (chain : Chain) (after : Runner)
    (h : env.Marked mark env) :
    ((runNodes setup (callWithin setup budget) chain.nodes value >>= after) env).1 =
        ((chain.structured setup (callWithin setup budget) value >>= after) env).1 ∧
      ((runNodes setup (callWithin setup budget) chain.nodes value >>= after) env).2.popFrame =
        ((chain.structured setup (callWithin setup budget) value >>= after) env).2.popFrame := by
  obtain ⟨hresult, left, hleft, hmark⟩ :=
    chain.follows_run hchains budget value h
  rw [Chain.structured, bind_assoc, Exec.bind_apply, Exec.bind_apply, Exec.get_apply]
  dsimp only
  rw [bind_assoc, Exec.bind_apply]
  rcases hran : runNodes setup (callWithin setup budget) chain.nodes value env with ⟨result, behind⟩
  rcases hran' : chain.run (attend setup) setup (callWithin setup budget) value env with
    ⟨result', behind'⟩
  rw [hran, hran'] at hresult hleft
  rw [hran] at hmark
  obtain rfl : result = result' := hresult
  cases result with
  | error fault => exact ⟨rfl, hleft.popFrame.symm⟩
  | ok result =>
    obtain rfl := hmark result rfl
    have hset := hleft.eq_setChain
    dsimp only at hset ⊢
    rw [bind_assoc, Exec.bind_apply, Exec.modify_apply, hset]
    exact ⟨rfl, rfl⟩

end

section

variable {setup : Setup} (hchains : setup.registry.HasChains) (budget : Nat) (chain : Chain)

include hchains

theorem inFrame_chain (before after : List Node) (value : Value) :
    inFrame (runNodes setup (callWithin setup budget) (before ++ chain.nodes ++ after) value) =
      inFrame (do
        let value ← runNodes setup (callWithin setup budget) before value
        let value ← chain.structured setup (callWithin setup budget) value
        runNodes setup (callWithin setup budget) after value) := by
  refine inFrame_congr fun env below hframes => ?_
  rw [runNodes_append, runNodes_append, bind_assoc, Exec.bind_apply, Exec.bind_apply]
  rcases hran : runNodes setup (callWithin setup budget) before value env with ⟨result, left⟩
  cases result with
  | error fault => exact ⟨rfl, rfl⟩
  | ok result =>
    obtain ⟨mark, hleft⟩ := marked_runNodes hframes hran
    exact chain_then hchains chain _ hleft

/-- **Chains are structured.**  Sequences of nodes are executed by `runWithin`, bodies of blocks by
`runBody`.  Wherever a chain stands in such a sequence, executing its nodes one by one is its
structured run; and that does the same as a structured run that counts no node of the chain, apart
from the counts of the nodes that are reached and from the journal. -/
theorem chain_structured :
    (∀ before after value,
      let structured : Exec Value := inFrame do
        let value ← runNodes setup (callWithin setup budget) before value
        let value ← chain.structured setup (callWithin setup budget) value
        runNodes setup (callWithin setup budget) after value
      runWithin setup budget (before ++ chain.nodes ++ after) value = structured ∧
        runBody setup (callWithin setup budget) (some (before ++ chain.nodes ++ after)) value =
          structured) ∧
      ∀ value env,
        CountsAlso (Chain.reached setup env chain)
          (chain.run ignore setup (callWithin setup budget) value env)
          (chain.run (attend setup) setup (callWithin setup budget) value env) := by
  refine ⟨fun before after value => ⟨?_, inFrame_chain hchains budget chain before after value⟩,
    fun value env => ?_⟩
  · rw [runWithin_eq]
    exact inFrame_chain hchains budget chain before after value
  · exact Chain.counted_runFrom chain.last "if" (chain.first :: chain.others) value (.refl env)

end

/-- A division by zero in a condition behind a branch that was taken is never met, inside a body of
a running call; all three nodes of the chain are counted. -/
theorem chain_structured_unmet_division :
    let constant (digits : String) : Expr := .operand ⟨.number, digits⟩
    let chain : Chain :=
      { first := ⟨1, constant "0", some [.simple ⟨2, "set", [constant "5"]⟩]⟩
        others := [⟨3, constant "1", some [.simple ⟨4, "set", [constant "6"]⟩]⟩,
          ⟨5, .binary "/" (constant "1") (constant "0"), none⟩]
        last := none }
    let after : List Node := [.simple ⟨6, "split", [.operand ⟨.string, ""⟩]⟩]
    let structured : Exec Value := inFrame do
      let value ← runNodes {} (callWithin {} 3) [] .nothing
      let value ← chain.structured {} (callWithin {} 3) value
      runNodes {} (callWithin {} 3) after value
    Registry.standard.HasChains ∧
      runWithin {} 3 ([] ++ chain.nodes ++ after) .nothing = structured ∧
      (structured {}).1 = .error (.script (.wrongInput "split" .string .number) (.ofLine 6)) ∧
      (chain.structured {} (callWithin {} 3) .nothing { frames := [none] }).1 = .ok (.number 6) ∧
      (chain.structured {} (callWithin {} 3) .nothing { frames := [none] }).2.countOf "elif" = 2 := by
  intro constant chain after structured
  exact ⟨Registry.hasChains_standard,
    ((chain_structured Registry.hasChains_standard 3 chain).1 [] after .nothing).1, rfl, rfl, rfl⟩

end Pipeline
