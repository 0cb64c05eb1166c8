import Pipeline.Program

/-!
# The grammar of blocks

A program is listed by its statements in the order in which they are written, with a terminator
behind the body of every block that no continuation follows.  A program is well formed when exactly
its block commands have bodies, no statement of it is the terminator, and every continuation follows
a branch of the same body.

Main statement: the builder gives a program for a list of statements exactly when the program is well
formed, is not nested too deeply, and is listed by these statements.  In all other cases it finds a
fault of the grammar.  What carries both directions is the same at any place, in `bodies_of_buildBody`
and `buildBody_of_wellFormed`: with the depth that is left, with a chain that may be open in front of
the body, and with statements behind it that tell how it ends.
-/

namespace Pipeline

/-! ### Listings -/

/-- Whether the first node continues a chain of branches. -/
def Program.continues : List Node → Bool
  | [] => false
  | node :: _ => continuationCommands.contains node.statement.command

mutual

/-- How deep blocks are nested in a node. -/
def Node.nesting : Node → Nat
  | .simple _ => 0
  | .block _ body => Program.nesting body + 1

/-- How deep blocks are nested. -/
def Program.nesting : List Node → Nat
  | [] => 0
  | node :: rest => max node.nesting (Program.nesting rest)

end

mutual

/-- The lines of a node; the terminator of a block, which is left out where a continuation follows,
is nothing. -/
def Node.listing (continued : Bool) : Node → List (Option Statement)
  | .simple s => [some s]
  | .block s body => some s :: (Program.listing body ++ if continued then [] else [none])

/-- The lines of a program: its statements in the order of writing, and nothing for terminators. -/
def Program.listing : List Node → List (Option Statement)
  | [] => []
  | node :: rest => node.listing (Program.continues rest) ++ Program.listing rest

end

/-- What a statement stands for in a listing: nothing, when it is a terminator. -/
def Statement.listed (settings : Settings) (s : Statement) : Option Statement :=
  if s.command = settings.terminator then none else some s

namespace Program

theorem listing_simple (s : Statement) (rest : List Node) :
    listing (.simple s :: rest) = some s :: listing rest := rfl

theorem listing_block (s : Statement) (body rest : List Node) :
    listing (.block s body :: rest) =
      some s :: (listing body ++ ((if continues rest then [] else [none]) ++ listing rest)) := by
  rw [listing, Node.listing, List.cons_append, List.append_assoc]

theorem nesting_simple (s : Statement) (rest : List Node) :
    nesting (.simple s :: rest) = nesting rest := Nat.zero_max _

theorem nesting_block (s : Statement) (body rest : List Node) :
    nesting (.block s body :: rest) = max (nesting body + 1) (nesting rest) := rfl

theorem listed_eq_none {settings : Settings} {s : Statement} :
    s.listed settings = none ↔ s.command = settings.terminator := by
  unfold Statement.listed
  split <;> simp_all

theorem listed_eq_some {settings : Settings} {s t : Statement} :
    s.listed settings = some t ↔ s = t ∧ s.command ≠ settings.terminator := by
  unfold Statement.listed
  split <;> simp_all

/-! ### Well-formed programs -/

/-- The settings under which branches can be written: their commands open blocks, and none of them
is the terminator. -/
structure HasBranches (settings : Settings) : Prop where
  opens_if : settings.opensBlock "if" = true
  opens_elif : settings.opensBlock "elif" = true
  opens_else : settings.opensBlock "else" = true
  terminator_ne_if : settings.terminator ≠ "if"
  terminator_ne_elif : settings.terminator ≠ "elif"
  terminator_ne_else : settings.terminator ≠ "else"

/-- Under the settings that a host program does not change, branches can be written. -/
theorem hasBranches_default : HasBranches {} := by
  constructor <;> decide

/-- Nodes that stand in one body: exactly the block commands have bodies, no command is the
terminator, and continuations stand directly behind branches.  `afterBranch` says whether the node in
front of them is a branch. -/
inductive WellFormed (settings : Settings) : (afterBranch : Bool) → List Node → Prop where
  | nil (afterBranch : Bool) : WellFormed settings afterBranch []
  | simple {afterBranch : Bool} {s : Statement} {rest : List Node} :
      settings.opensBlock s.command = false → s.command ≠ settings.terminator →
      WellFormed settings false rest → WellFormed settings afterBranch (.simple s :: rest)
  | block {afterBranch : Bool} {s : Statement} {body rest : List Node} :
      settings.opensBlock s.command = true → s.command ≠ settings.terminator →
      (continuationCommands.contains s.command = true → afterBranch = true) →
      WellFormed settings false body →
      WellFormed settings (chainCommands.contains s.command) rest →
      WellFormed settings afterBranch (.block s body :: rest)

theorem elif_or_else_of_continuation {command : String}
    (h : continuationCommands.contains command = true) : command = "elif" ∨ command = "else" := by
  simp only [continuationCommands, List.contains_cons, List.contains_nil, Bool.or_false,
    Bool.or_eq_true, beq_iff_eq] at h
  exact h

namespace HasBranches

variable {settings : Settings} {command : String}

theorem opensBlock_of_continuation (hs : HasBranches settings)
    (h : continuationCommands.contains command = true) : settings.opensBlock command = true := by
  rcases elif_or_else_of_continuation h with rfl | rfl
  · exact hs.opens_elif
  · exact hs.opens_else

theorem ne_terminator_of_continuation (hs : HasBranches settings)
    (h : continuationCommands.contains command = true) : command ≠ settings.terminator := by
  rcases elif_or_else_of_continuation h with rfl | rfl
  · exact hs.terminator_ne_elif.symm
  · exact hs.terminator_ne_else.symm

theorem not_continuation_of_simple (hs : HasBranches settings)
    (h : settings.opensBlock command = false) : continuationCommands.contains command = false := by
  rw [Bool.eq_false_iff]
  intro hcontinuation
  rw [hs.opensBlock_of_continuation hcontinuation] at h
  cases h

end HasBranches

/-- What follows no branch may also follow one. -/
theorem WellFormed.afterBranch {settings : Settings} {nodes : List Node}
    (h : WellFormed settings false nodes) (afterBranch : Bool) :
    WellFormed settings afterBranch nodes := by
  cases h with
  | nil => exact .nil afterBranch
  | simple hopens hne hrest => exact .simple hopens hne hrest
  | block hopens hne hcontinuation hbody hrest =>
    exact .block hopens hne (fun h => absurd (hcontinuation h) Bool.false_ne_true) hbody hrest

/-- Nodes that begin with a continuation follow a branch. -/
theorem WellFormed.afterBranch_of_continues {settings : Settings} {afterBranch : Bool}
    {nodes : List Node} (hs : HasBranches settings) (h : WellFormed settings afterBranch nodes)
    (hcontinues : continues nodes = true) : afterBranch = true := by
  cases h with
  | nil => cases hcontinues
  | simple hopens _ _ =>
    rw [continues, Node.statement, hs.not_continuation_of_simple hopens] at hcontinues
    cases hcontinues
  | block _ _ hcontinuation _ _ => exact hcontinuation hcontinues

/-- What follows no branch begins with no continuation. -/
theorem WellFormed.continues_eq_false {settings : Settings} {nodes : List Node}
    (hs : HasBranches settings) (h : WellFormed settings false nodes) : continues nodes = false := by
  rw [Bool.eq_false_iff]
  intro hcontinues
  cases h.afterBranch_of_continues hs hcontinues

/-! ### The invariant of the builder -/

/-- How the statements behind a body end it: there are none, the first one is the terminator, or it
is a continuation of the chain that the body belongs to. -/
inductive Ends (settings : Settings) (inChain : Bool) :
    List Statement → Stop → (rest : List Statement) → Prop where
  | ended : Ends settings inChain [] .ended []
  | terminator {s : Statement} {rest : List Statement} :
      s.command = settings.terminator → Ends settings inChain (s :: rest) .terminator rest
  | continuation {s : Statement} {rest : List Statement} :
      inChain = true → continuationCommands.contains s.command = true →
      Ends settings inChain (s :: rest) .continuation (s :: rest)

/-- What it means that nodes are a body which starts with the given statements: they are well formed
and not nested too deeply, a continuation is in front exactly if a chain is open, and statements that
list them are followed by what ends the body. -/
structure Bodies (settings : Settings) (inChain : Bool) (depth : Nat) (chainOpen : Bool)
    (statements : List Statement) (nodes : List Node) (stop : Stop) (rest : List Statement) :
    Prop where
  wellFormed : WellFormed settings chainOpen nodes
  nesting_le : nesting nodes ≤ settings.maxDepth - depth
  continues_eq : continues nodes = chainOpen
  listed : ∃ front tail, statements = front ++ tail ∧
    front.map (·.listed settings) = listing nodes ∧ Ends settings inChain tail stop rest

/-- Whether the first statement continues a chain of branches. -/
def startsWithContinuation : List Statement → Bool
  | [] => false
  | s :: _ => continuationCommands.contains s.command

/-- **What the builder gives is a body.**  A chain may only be open in front of a continuation. -/
theorem bodies_of_buildBody {settings : Settings} {inChain chainOpen : Bool} {depth : Nat}
    {statements : List Statement} {nodes : List Node} {stop : Stop} {rest : Rest statements}
    (hs : HasBranches settings) (hopen : chainOpen = true → startsWithContinuation statements = true)
    (h : buildBody settings inChain depth chainOpen statements = .ok (nodes, stop, rest)) :
    Bodies settings inChain depth chainOpen statements nodes stop rest.val := by
  fun_induction buildBody settings inChain depth chainOpen statements generalizing nodes stop with
  | case1 inChain depth chainOpen =>
    cases h
    refine ⟨.nil _, Nat.zero_le _, ?_, [], [], rfl, rfl, .ended⟩
    cases chainOpen with
    | false => rfl
    | true => cases hopen rfl
  | case2 inChain depth chainOpen s rest hcontinuation =>
    cases h
    simp only [Bool.and_eq_true, Bool.not_eq_true'] at hcontinuation
    obtain ⟨⟨hchain, hcommand⟩, hclosed⟩ := hcontinuation
    exact ⟨.nil _, Nat.zero_le _, hclosed.symm, [], _, rfl, rfl, .continuation hchain hcommand⟩
  | case3 inChain depth chainOpen s rest _ hterminator =>
    cases h
    refine ⟨.nil _, Nat.zero_le _, ?_, [], _, rfl, rfl, .terminator hterminator⟩
    cases chainOpen with
    | false => rfl
    | true => exact absurd hterminator (hs.ne_terminator_of_continuation (hopen rfl))
  | case4 => cases h
  | case5 => cases h
  | case6 => cases h
  | case7 => cases h
  | case8 => cases h
  | case9 inChain depth chainOpen s rest _ hne hopens hplaced hroom body stop₁ rest₁ h₁ hended hbody
      nodes₂ stop₂ rest₂ h₂ hrest ihbody ihrest =>
    cases h
    obtain ⟨hwf₁, hnesting₁, -, front₁, tail₁, hsplit₁, hlisted₁, hends₁⟩ :=
      ihbody (fun h => nomatch h) hbody
    have hcontinues : continuationCommands.contains s.command = chainOpen := by
      cases chainOpen with
      | false => simpa using hplaced
      | true => exact hopen rfl
    have hroom : depth < settings.maxDepth := Nat.not_le.1 hroom
    cases hends₁ with
    | ended => exact absurd rfl hended
    | @terminator e _ hterminator =>
      -- the terminator `e` stands between the body and what follows the block
      obtain ⟨hwf₂, hnesting₂, hcontinues₂, front₂, tail₂, hsplit₂, hlisted₂, hends₂⟩ :=
        ihrest (fun h => nomatch h) hrest
      refine ⟨.block hopens hne (fun h => hcontinues ▸ h) hwf₁ (hwf₂.afterBranch _), ?_, hcontinues,
        s :: (front₁ ++ e :: front₂), tail₂, ?_, ?_, hends₂⟩
      · rw [nesting_block]
        omega
      · rw [hsplit₁]
        show s :: (front₁ ++ e :: rest₁) = _
        rw [hsplit₂]
        simp
      · rw [listing_block, hcontinues₂, List.map_cons, List.map_append, List.map_cons, hlisted₁,
          hlisted₂, listed_eq_some.2 ⟨rfl, hne⟩, listed_eq_none.2 hterminator]
        rfl
    | @continuation e rest₁ hchain hcontinuation =>
      -- the continuation `e` has not been taken: it opens the next block of the chain outside
      obtain ⟨hwf₂, hnesting₂, hcontinues₂, front₂, tail₂, hsplit₂, hlisted₂, hends₂⟩ :=
        ihrest (fun _ => hcontinuation) hrest
      refine ⟨.block hopens hne (fun h => hcontinues ▸ h) hwf₁ (hchain ▸ hwf₂), ?_, hcontinues,
        s :: (front₁ ++ front₂), tail₂, ?_, ?_, hends₂⟩
      · rw [nesting_block]
        omega
      · rw [hsplit₁, hsplit₂]
        simp
      · rw [listing_block, hcontinues₂, List.map_cons, List.map_append, hlisted₁, hlisted₂,
          listed_eq_some.2 ⟨rfl, hne⟩]
        rfl
  | case10 => cases h
  | case11 inChain depth chainOpen s rest _ hne hopens nodes₁ stop₁ rest₁ h₁ hrest ih =>
    cases h
    have hopens : settings.opensBlock s.command = false := Bool.eq_false_iff.2 hopens
    obtain ⟨hwf, hnesting, hcontinues, front, tail, hsplit, hlisted, hends⟩ :=
      ih (fun h => nomatch h) hrest
    refine ⟨.simple hopens hne hwf, ?_, ?_, s :: front, tail, ?_, ?_, hends⟩
    · rw [nesting_simple]
      exact hnesting
    · rw [continues, Node.statement, hs.not_continuation_of_simple hopens]
      cases chainOpen with
      | false => rfl
      | true =>
        have hcontinuation := hs.not_continuation_of_simple hopens
        rw [show continuationCommands.contains s.command = true from hopen rfl] at hcontinuation
        cases hcontinuation
    · rw [hsplit, List.cons_append]
    · rw [List.map_cons, listed_eq_some.2 ⟨rfl, hne⟩, hlisted, listing_simple]

/-! ### Steps of the builder -/

section Steps

variable {settings : Settings} {inChain chainOpen : Bool} {depth : Nat} {s : Statement}
  {statements : List Statement} {nodes : List Node} {stop : Stop} {rest : Rest statements}

/-- A simple statement comes in front of the nodes that are built from what follows it. -/
theorem buildBody_simple (hs : HasBranches settings) (hopens : settings.opensBlock s.command = false)
    (hne : s.command ≠ settings.terminator)
    (h : buildBody settings inChain depth false statements = .ok (nodes, stop, rest)) :
    ∃ rest' : Rest (s :: statements), rest'.val = rest.val ∧
      buildBody settings inChain depth chainOpen (s :: statements) =
        .ok (.simple s :: nodes, stop, rest') := by
  refine ⟨⟨rest.val, Nat.le_succ_of_le rest.property⟩, rfl, ?_⟩
  rw [buildBody, hs.not_continuation_of_simple hopens, Bool.and_false, Bool.false_and,
    if_neg Bool.false_ne_true, if_neg hne, hopens, if_neg Bool.false_ne_true, h]

/-- A block command takes the body that is built from what follows it. -/
theorem buildBody_block (hopens : settings.opensBlock s.command = true)
    (hne : s.command ≠ settings.terminator) (hdepth : depth < settings.maxDepth)
    {body : List Node} {stop₁ : Stop} (hended : stop₁ ≠ .ended)
    (hbody : buildBody settings (chainCommands.contains s.command) (depth + 1) false statements =
      .ok (body, stop₁, rest))
    {rest₂ : Rest rest.val}
    (hrest : buildBody settings inChain depth (stop₁ == .continuation) rest.val =
      .ok (nodes, stop, rest₂)) :
    ∃ rest' : Rest (s :: statements), rest'.val = rest₂.val ∧
      buildBody settings inChain depth (continuationCommands.contains s.command) (s :: statements) =
        .ok (.block s body :: nodes, stop, rest') := by
  obtain ⟨rest₁, h₁⟩ := rest
  refine ⟨⟨rest₂.val, Nat.le_trans rest₂.property (Nat.le_succ_of_le h₁)⟩, rfl, ?_⟩
  rw [buildBody, Bool.and_assoc, Bool.and_not_self, Bool.and_false, if_neg Bool.false_ne_true,
    if_neg hne, hopens, if_pos rfl, if_neg Bool.false_ne_true, if_neg (Nat.not_le.2 hdepth), hbody]
  cases stop₁ with
  | ended => exact absurd rfl hended
  | terminator => simp only [hrest]
  | continuation => simp only [hrest]

/-- In front of what ends a body there are no nodes left to build. -/
theorem buildBody_of_ends (hs : HasBranches settings) {behind : List Statement}
    (h : Ends settings inChain statements stop behind) :
    ∃ rest : Rest statements, rest.val = behind ∧
      buildBody settings inChain depth false statements = .ok ([], stop, rest) := by
  cases h with
  | ended => exact ⟨⟨[], Nat.le_refl _⟩, rfl, by rw [buildBody]⟩
  | @terminator e _ hterminator =>
    refine ⟨⟨behind, Nat.le_succ _⟩, rfl, ?_⟩
    have hcontinuation : continuationCommands.contains e.command = false := by
      rw [Bool.eq_false_iff]
      exact fun h => hs.ne_terminator_of_continuation h hterminator
    rw [buildBody, hcontinuation, Bool.and_false, Bool.false_and, if_neg Bool.false_ne_true,
      if_pos hterminator]
  | continuation hchain hcontinuation =>
    refine ⟨⟨_, Nat.le_refl _⟩, rfl, ?_⟩
    rw [buildBody, hchain, hcontinuation]
    rfl

end Steps

/-- Statements that list nodes with a continuation in front end the body of the branch before. -/
theorem ends_of_continues {settings : Settings} {inChain : Bool} {nodes : List Node}
    {front : List Statement} (hcontinues : continues nodes = true)
    (hlisted : front.map (·.listed settings) = listing nodes) (tail : List Statement)
    (hchain : inChain = true) :
    Ends settings inChain (front ++ tail) .continuation (front ++ tail) := by
  cases nodes with
  | nil => cases hcontinues
  | cons node nodes =>
    obtain ⟨lines, hlines⟩ : ∃ lines, listing (node :: nodes) = some node.statement :: lines := by
      cases node with
      | simple s => exact ⟨_, listing_simple s nodes⟩
      | block s body => exact ⟨_, listing_block s body nodes⟩
    rw [hlines] at hlisted
    obtain ⟨s, front, rfl, hs, -⟩ := List.map_eq_cons_iff.1 hlisted
    obtain ⟨rfl, -⟩ := listed_eq_some.1 hs
    exact .continuation hchain hcontinues

/-- **The builder finds every body.** -/
theorem buildBody_of_wellFormed {settings : Settings} (hs : HasBranches settings)
    {afterBranch : Bool} {nodes : List Node} (hwf : WellFormed settings afterBranch nodes)
    {inChain : Bool} {depth : Nat} {front tail behind : List Statement} {stop : Stop}
    (hnesting : nesting nodes ≤ settings.maxDepth - depth)
    (hlisted : front.map (·.listed settings) = listing nodes)
    (hends : Ends settings inChain tail stop behind) :
    ∃ rest : Rest (front ++ tail), rest.val = behind ∧
      buildBody settings inChain depth (continues nodes) (front ++ tail) =
        .ok (nodes, stop, rest) := by
  induction hwf generalizing inChain depth front tail behind stop with
  | nil afterBranch =>
    rw [List.map_eq_nil_iff.1 hlisted]
    exact buildBody_of_ends hs hends
  | @simple afterBranch s nodes hopens hne hwf ih =>
    rw [listing_simple] at hlisted
    obtain ⟨t, front, rfl, ht, hfront⟩ := List.map_eq_cons_iff.1 hlisted
    obtain ⟨rfl, -⟩ := listed_eq_some.1 ht
    rw [nesting_simple] at hnesting
    obtain ⟨rest, hrest, hbuild⟩ := ih hnesting hfront hends
    rw [hwf.continues_eq_false hs] at hbuild
    rw [← hrest]
    exact buildBody_simple hs hopens hne hbuild
  | @block afterBranch s body nodes hopens hne _ hwf₁ hwf₂ ihbody ihrest =>
    rw [listing_block] at hlisted
    obtain ⟨t, front, rfl, ht, hfront⟩ := List.map_eq_cons_iff.1 hlisted
    obtain ⟨rfl, -⟩ := listed_eq_some.1 ht
    obtain ⟨front₁, behind₁, rfl, hlisted₁, hbehind⟩ := List.map_eq_append_iff.1 hfront
    obtain ⟨closing, front₂, rfl, hclosing, hlisted₂⟩ := List.map_eq_append_iff.1 hbehind
    rw [nesting_block] at hnesting
    have hdepth : depth < settings.maxDepth := by omega
    have hnesting₁ : nesting body ≤ settings.maxDepth - (depth + 1) := by omega
    have hnesting₂ : nesting nodes ≤ settings.maxDepth - depth := by omega
    obtain ⟨rest₂, hrest₂, hbuild₂⟩ := ihrest hnesting₂ hlisted₂ hends
    rw [← hrest₂, List.cons_append, List.append_assoc, List.append_assoc]
    cases hcontinues : continues nodes with
    | true =>
      rw [hcontinues, if_pos rfl, List.map_eq_nil_iff] at hclosing
      subst hclosing
      have hends₁ := ends_of_continues hcontinues hlisted₂ tail
        (hwf₂.afterBranch_of_continues hs hcontinues)
      obtain ⟨⟨_, h₁⟩, rfl, hbuild₁⟩ := ihbody hnesting₁ hlisted₁ hends₁
      rw [hwf₁.continues_eq_false hs] at hbuild₁
      rw [hcontinues] at hbuild₂
      exact buildBody_block hopens hne hdepth (by decide) hbuild₁ hbuild₂
    | false =>
      rw [hcontinues, if_neg Bool.false_ne_true] at hclosing
      obtain ⟨e, he, hterminator⟩ := List.map_eq_singleton_iff.1 hclosing
      subst he
      have hends₁ : Ends settings (chainCommands.contains t.command) (e :: (front₂ ++ tail))
          .terminator (front₂ ++ tail) := .terminator (listed_eq_none.1 hterminator)
      obtain ⟨⟨_, h₁⟩, rfl, hbuild₁⟩ := ihbody hnesting₁ hlisted₁ hends₁
      rw [hwf₁.continues_eq_false hs] at hbuild₁
      rw [hcontinues] at hbuild₂
      exact buildBody_block hopens hne hdepth (by decide) hbuild₁ hbuild₂

/-! ### Whole programs -/

theorem category?_of_buildBody {settings : Settings} {inChain chainOpen : Bool} {depth : Nat}
    {statements : List Statement} {fault : Fault}
    (h : buildBody settings inChain depth chainOpen statements = .error fault) :
    fault.category? = some .grammar := by
  fun_induction buildBody settings inChain depth chainOpen statements with
  | case1 => cases h
  | case2 => cases h
  | case3 => cases h
  | case4 => cases h; rfl
  | case5 => cases h; rfl
  | case6 inChain depth chainOpen s rest _ _ _ _ _ fault' hfault ih => cases h; exact ih hfault
  | case7 => cases h; rfl
  | case8 => rename_i hfault _ ih; cases h; exact ih hfault
  | case9 => cases h
  | case10 => rename_i hfault ih; cases h; exact ih hfault
  | case11 => cases h

/-- A body that ends with the statements is the whole program. -/
theorem build_of_ended {settings : Settings} {statements : List Statement} {nodes : List Node}
    {rest : Rest statements}
    (h : buildBody settings false 0 false statements = .ok (nodes, .ended, rest)) :
    build settings statements = .ok nodes := by
  have hfrom : buildFrom settings statements 0 false 0 = .ok (nodes, (statements.length : Int)) := by
    rw [buildFrom, List.drop_zero, h]
    rfl
  simp only [build, hfrom, bind, Except.bind]
  rw [Int.toNat_natCast, List.getElem?_eq_none (Nat.le_refl _)]
  rfl

/-- A terminator behind all nodes closes nothing. -/
theorem build_of_terminator {settings : Settings} {statements : List Statement}
    {nodes : List Node} {rest : Rest statements} (hrest : rest.val.length < statements.length)
    (h : buildBody settings false 0 false statements = .ok (nodes, .terminator, rest)) :
    ∃ s ∈ statements, build settings statements =
      .error (.script (.strayTerminator settings.terminator) (.ofLine s.line)) := by
  have hfrom : buildFrom settings statements 0 false 0 =
      .ok (nodes, (statements.length : Int) - rest.val.length - 1) := by
    rw [buildFrom, List.drop_zero, h]
    rfl
  have hindex : ((statements.length : Int) - rest.val.length - 1).toNat < statements.length := by
    omega
  refine ⟨statements[((statements.length : Int) - rest.val.length - 1).toNat],
    List.getElem_mem hindex, ?_⟩
  simp only [build, hfrom, bind, Except.bind]
  rw [List.getElem?_eq_getElem hindex]
  rfl

theorem build_of_error {settings : Settings} {statements : List Statement} {fault : Fault}
    (h : buildBody settings false 0 false statements = .error fault) :
    build settings statements = .error fault := by
  rw [build, buildFrom, List.drop_zero, h]
  rfl

/-- A well-formed program is built from the statements that list it. -/
theorem build_of_wellFormed {settings : Settings} {statements : List Statement} {nodes : List Node}
    (hs : HasBranches settings) (hwf : WellFormed settings false nodes)
    (hnesting : nesting nodes ≤ settings.maxDepth)
    (hlisted : statements.map (·.listed settings) = listing nodes) :
    build settings statements = .ok nodes := by
  have hends : Ends settings false [] .ended [] := .ended
  have hroom : nesting nodes ≤ settings.maxDepth - 0 := hnesting
  have hbody := buildBody_of_wellFormed hs hwf hroom hlisted hends
  rw [List.append_nil, hwf.continues_eq_false hs] at hbody
  obtain ⟨rest, -, hbuild⟩ := hbody
  exact build_of_ended hbuild

/-- The builder either gives nodes that are a body up to the end of the statements, or finds a fault
of the grammar. -/
theorem build_cases {settings : Settings} (hs : HasBranches settings)
    (statements : List Statement) :
    (∃ nodes, build settings statements = .ok nodes ∧
      Bodies settings false 0 false statements nodes .ended []) ∨
      ∃ fault, build settings statements = .error fault ∧ fault.category? = some .grammar := by
  cases h : buildBody settings false 0 false statements with
  | error fault => exact .inr ⟨fault, build_of_error h, category?_of_buildBody h⟩
  | ok built =>
    obtain ⟨nodes, stop, rest, hrest⟩ := built
    have hopen : false = true → startsWithContinuation statements = true :=
      fun h => absurd h Bool.false_ne_true
    have hbodies := bodies_of_buildBody hs hopen h
    obtain ⟨front, tail, hsplit, -, hends⟩ := hbodies.listed
    cases stop with
    | ended =>
      refine .inl ⟨nodes, build_of_ended h, ?_⟩
      cases hends
      exact hbodies
    | terminator =>
      have hlength : rest.length < statements.length := by
        cases hends
        rw [hsplit, List.length_append, List.length_cons]
        show rest.length < front.length + (rest.length + 1)
        omega
      obtain ⟨s, -, hbuild⟩ := build_of_terminator hlength h
      exact .inr ⟨_, hbuild, rfl⟩
    | continuation =>
      cases hends with
      | continuation hchain _ => cases hchain

/-- **The grammar of blocks.**  The builder gives exactly the program that is well formed, not nested
more deeply than allowed, and listed by the statements; statements that list no such program are a
fault of the grammar. -/
theorem build_eq_ok_iff {settings : Settings} (hs : HasBranches settings)
    (statements : List Statement) :
    (∀ nodes, build settings statements = .ok nodes ↔
      WellFormed settings false nodes ∧ nesting nodes ≤ settings.maxDepth ∧
        statements.map (·.listed settings) = listing nodes) ∧
      ((∀ nodes, build settings statements ≠ .ok nodes) →
        ∃ fault, build settings statements = .error fault ∧ fault.category? = some .grammar) := by
  refine ⟨fun nodes => ⟨?_, ?_⟩, ?_⟩
  · intro h
    rcases build_cases hs statements with ⟨nodes', hbuild, hbodies⟩ | ⟨fault, hbuild, -⟩
    · rw [h] at hbuild
      cases hbuild
      obtain ⟨front, tail, rfl, hlisted, hends⟩ := hbodies.listed
      cases hends
      rw [List.append_nil]
      exact ⟨hbodies.wellFormed, hbodies.nesting_le, hlisted⟩
    · rw [h] at hbuild
      cases hbuild
  · rintro ⟨hwf, hnesting, hlisted⟩
    exact build_of_wellFormed hs hwf hnesting hlisted
  · intro hnone
    rcases build_cases hs statements with ⟨nodes, hbuild, -⟩ | hfault
    · exact absurd hbuild (hnone nodes)
    · exact hfault

/-- A chain of three branches with a block inside of the first one has two terminators. -/
theorem build_eq_ok_iff_chain :
    let entry (line : Int) (command : String) : Statement := ⟨line, command, []⟩
    HasBranches {} ∧
      build {} [entry 1 "if", entry 2 "foreach", entry 3 "end", entry 4 "elif", entry 5 "print",
        entry 6 "else", entry 7 "end"] =
        .ok [.block (entry 1 "if") [.block (entry 2 "foreach") []],
          .block (entry 4 "elif") [.simple (entry 5 "print")], .block (entry 6 "else") []] := by
  intro entry
  have helse : WellFormed {} true [.block (entry 6 "else") []] :=
    .block rfl (by decide) (fun _ => rfl) (.nil _) (.nil _)
  have helif : WellFormed {} true
      [.block (entry 4 "elif") [.simple (entry 5 "print")], .block (entry 6 "else") []] :=
    .block rfl (by decide) (fun _ => rfl) (.simple rfl (by decide) (.nil _)) helse
  have hif : WellFormed {} false [.block (entry 1 "if") [.block (entry 2 "foreach") []],
      .block (entry 4 "elif") [.simple (entry 5 "print")], .block (entry 6 "else") []] := by
    refine .block rfl (by decide) (fun h => absurd h (by decide)) ?_ helif
    exact .block rfl (by decide) (fun h => absurd h (by decide)) (.nil _) (.nil _)
  exact ⟨hasBranches_default,
    ((build_eq_ok_iff hasBranches_default _).1 _).2 ⟨hif, by decide, by decide⟩⟩

end Program

end Pipeline
