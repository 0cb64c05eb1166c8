import Pipeline.Proofs.Program.Blocks
import Pipeline.Proofs.Faults

/-!
# Open blocks

Statements are read from the first to the last.  What is open behind some of them is a stack of
statements, the innermost one on top: a block command opens one more block, a terminator ends the
innermost one, and a continuation takes the place of the branch that it continues, so a whole chain is
open once.  A statement that cannot follow what is open is a fault.

* `openBlocks` : what is open behind some statements, or the first fault.
* `follows_buildBody` : the builder, which comes back to a continuation that its body ended at, finds
  the same faults in the same order.
* `build_eq_error_iff` : the builder rejects statements for the first statement that cannot follow, or for
  the innermost block that is open behind all of them.
* `openBlocks_terminators` : terminators end what is open, each of them one block.
* `rejected_earliest` : so no fault is found later than the statements allow.
-/

namespace Pipeline.Program

/-! ### What is open -/

variable {settings : Settings}

/-- Ends the innermost block at a terminator. -/
def endBlock (settings : Settings) (s : Statement) :
    (blocks : List Statement) → Except Fault (List Statement)
  | [] => .error (.script (.strayTerminator settings.terminator) (.ofLine s.line))
  | _ :: outer => .ok outer

/-- Puts a continuation in the place of the branch that it continues. -/
def continueChain (s : Statement) : (blocks : List Statement) → Except Fault (List Statement)
  | [] => .error (.script (.misplacedContinuation s.command) (.ofLine s.line))
  | branch :: outer =>
    if chainCommands.contains branch.command then .ok (s :: outer)
    else .error (.script (.misplacedContinuation s.command) (.ofLine s.line))

/-- What is open behind one more statement. -/
def advance (settings : Settings) (blocks : List Statement) (s : Statement) :
    Except Fault (List Statement) :=
  if s.command = settings.terminator then endBlock settings s blocks
  else if settings.opensBlock s.command then
    if continuationCommands.contains s.command then continueChain s blocks
    else if settings.maxDepth ≤ blocks.length then
      .error (.script (.blocksTooDeep settings.maxDepth) (.ofLine s.line))
    else .ok (s :: blocks)
  else .ok blocks

/-- What is open behind some statements, the innermost block first. -/
def openBlocks (settings : Settings) (blocks : List Statement) (statements : List Statement) :
    Except Fault (List Statement) :=
  statements.foldlM (advance settings) blocks

theorem openBlocks_nil (blocks : List Statement) : openBlocks settings blocks [] = .ok blocks := rfl

theorem openBlocks_cons (blocks : List Statement) (s : Statement) (rest : List Statement) :
    openBlocks settings blocks (s :: rest) =
      (advance settings blocks s).bind (openBlocks settings · rest) := rfl

theorem openBlocks_append (blocks front rest : List Statement) :
    openBlocks settings blocks (front ++ rest) =
      (openBlocks settings blocks front).bind (openBlocks settings · rest) :=
  List.foldlM_append

section

variable {blocks : List Statement} {s : Statement}

theorem openBlocks_cons_of_ok {blocks' : List Statement} (h : advance settings blocks s = .ok blocks')
    (rest : List Statement) :
    openBlocks settings blocks (s :: rest) = openBlocks settings blocks' rest := by
  rw [openBlocks_cons, h]
  rfl

theorem openBlocks_cons_of_error {fault : Fault} (h : advance settings blocks s = .error fault)
    (rest : List Statement) : openBlocks settings blocks (s :: rest) = .error fault := by
  rw [openBlocks_cons, h]
  rfl

theorem advance_terminator (h : s.command = settings.terminator) :
    advance settings blocks s = endBlock settings s blocks := by
  rw [advance, if_pos h]

theorem advance_simple (hne : s.command ≠ settings.terminator)
    (hopens : settings.opensBlock s.command = false) : advance settings blocks s = .ok blocks := by
  rw [advance, if_neg hne, hopens, if_neg Bool.false_ne_true]

theorem advance_opening (hne : s.command ≠ settings.terminator)
    (hopens : settings.opensBlock s.command = true)
    (hcontinuation : continuationCommands.contains s.command = false)
    (hdepth : blocks.length < settings.maxDepth) :
    advance settings blocks s = .ok (s :: blocks) := by
  rw [advance, if_neg hne, if_pos hopens, hcontinuation, if_neg Bool.false_ne_true,
    if_neg (Nat.not_le.2 hdepth)]

theorem advance_tooDeep (hne : s.command ≠ settings.terminator)
    (hopens : settings.opensBlock s.command = true)
    (hcontinuation : continuationCommands.contains s.command = false)
    (hdepth : settings.maxDepth ≤ blocks.length) :
    advance settings blocks s =
      .error (.script (.blocksTooDeep settings.maxDepth) (.ofLine s.line)) := by
  rw [advance, if_neg hne, if_pos hopens, hcontinuation, if_neg Bool.false_ne_true, if_pos hdepth]

theorem advance_continuation (hs : HasBranches settings)
    (hcontinuation : continuationCommands.contains s.command = true) :
    advance settings blocks s = continueChain s blocks := by
  rw [advance, if_neg (hs.ne_terminator_of_continuation hcontinuation),
    if_pos (hs.opensBlock_of_continuation hcontinuation), if_pos hcontinuation]

/-- A fault of one statement names its line. -/
theorem exists_of_advance_eq_error {fault : Fault} (h : advance settings blocks s = .error fault) :
    ∃ cause, fault = .script cause (.ofLine s.line) ∧
      (cause = .strayTerminator settings.terminator ∨ cause = .misplacedContinuation s.command ∨
        cause = .blocksTooDeep settings.maxDepth) := by
  have hmisplaced {blocks' : List Statement} (h : continueChain s blocks' = .error fault) :
      fault = .script (.misplacedContinuation s.command) (.ofLine s.line) := by
    cases blocks' with
    | nil => exact (Except.error.inj h).symm
    | cons branch outer =>
      rw [continueChain] at h
      split at h
      · cases h
      · exact (Except.error.inj h).symm
  rw [advance] at h
  by_cases hterminator : s.command = settings.terminator
  · rw [if_pos hterminator] at h
    cases blocks with
    | nil => exact ⟨_, (Except.error.inj h).symm, .inl rfl⟩
    | cons block outer => cases h
  · rw [if_neg hterminator] at h
    by_cases hopens : settings.opensBlock s.command = true
    · rw [if_pos hopens] at h
      by_cases hcontinuation : continuationCommands.contains s.command = true
      · rw [if_pos hcontinuation] at h
        exact ⟨_, hmisplaced h, .inr (.inl rfl)⟩
      · rw [if_neg hcontinuation] at h
        by_cases hdepth : settings.maxDepth ≤ blocks.length
        · rw [if_pos hdepth] at h
          exact ⟨_, (Except.error.inj h).symm, .inr (.inr rfl)⟩
        · rw [if_neg hdepth] at h
          cases h
    · rw [if_neg hopens] at h
      cases h

end

/-! ### The builder and what is open -/

/-- Whether the innermost block is a branch, which a continuation can follow. -/
def inBranch : (blocks : List Statement) → Bool
  | [] => false
  | block :: _ => chainCommands.contains block.command

theorem continueChain_of_inBranch {blocks : List Statement} (h : inBranch blocks = false)
    (s : Statement) :
    continueChain s blocks =
      .error (.script (.misplacedContinuation s.command) (.ofLine s.line)) := by
  cases blocks with
  | nil => rfl
  | cons block outer =>
    have hbranch : chainCommands.contains block.command = false := h
    rw [continueChain, hbranch, if_neg Bool.false_ne_true]

/-- What is open in front of statements of a body: the blocks outside, and the branch before them
whose chain the first of them continues. -/
inductive Before (settings : Settings) (outer : List Statement) :
    (chainOpen : Bool) → (blocks statements : List Statement) → Prop where
  | outside {statements : List Statement} : Before settings outer false outer statements
  | branch {branch s : Statement} {rest : List Statement} :
      chainCommands.contains branch.command = true →
      continuationCommands.contains s.command = true → outer.length < settings.maxDepth →
      Before settings outer true (branch :: outer) (s :: rest)

/-- Where the building of a body stopped, and the statements that it left. -/
def stopped {statements : List Statement}
    (built : Except Fault (List Node × Stop × Rest statements)) :
    Except Fault (Stop × List Statement) :=
  built.map fun r => (r.2.1, r.2.2.val)

/-- What the building of a body says about what is open: the fault is the first one or names a block
that nothing ends, and a body ends where the blocks outside of it are all that is open. -/
def Follows (settings : Settings) (outer blocks statements : List Statement) :
    Except Fault (Stop × List Statement) → Prop
  | .error fault =>
    openBlocks settings blocks statements = .error fault ∨
      ∃ s inner, openBlocks settings blocks statements = .ok (s :: inner) ∧
        fault = .script (.neverClosed s.command settings.terminator) (.ofLine s.line)
  | .ok (.ended, _) => openBlocks settings blocks statements = .ok outer
  | .ok (.terminator, rest) =>
    ∃ front t, statements = front ++ t :: rest ∧ t.command = settings.terminator ∧
      openBlocks settings blocks front = .ok outer
  | .ok (.continuation, rest) =>
    ∃ front s behind, statements = front ++ rest ∧ rest = s :: behind ∧
      continuationCommands.contains s.command = true ∧ inBranch outer = true ∧
      openBlocks settings blocks front = .ok outer

section

variable {outer blocks blocks' front rest : List Statement}

/-- What is said about the rest of the statements is said about all of them. -/
theorem Follows.behind {stop : Except Fault (Stop × List Statement)}
    (hfront : openBlocks settings blocks front = .ok blocks')
    (h : Follows settings outer blocks' rest stop) :
    Follows settings outer blocks (front ++ rest) stop := by
  have happend (more : List Statement) : openBlocks settings blocks (front ++ more) =
      openBlocks settings blocks' more := by
    rw [openBlocks_append, hfront]
    rfl
  cases stop with
  | error fault =>
    rw [Follows, happend]
    exact h
  | ok stop =>
    obtain ⟨stop, left⟩ := stop
    cases stop with
    | ended =>
      rw [Follows, happend]
      exact h
    | terminator =>
      obtain ⟨front', t, rfl, ht, hopen⟩ := h
      exact ⟨front ++ front', t, (List.append_assoc ..).symm, ht, (happend front').trans hopen⟩
    | continuation =>
      obtain ⟨front', s, behind, rfl, hleft, hs, hchain, hopen⟩ := h
      exact ⟨front ++ front', s, behind, (List.append_assoc ..).symm, hleft, hs, hchain,
        (happend front').trans hopen⟩

/-- A block command that the builder takes is open behind itself. -/
theorem Before.advance_block (hs : HasBranches settings) {chainOpen : Bool} {s : Statement}
    (h : Before settings outer chainOpen blocks (s :: rest)) (hne : s.command ≠ settings.terminator)
    (hopens : settings.opensBlock s.command = true)
    (hplaced : ¬(continuationCommands.contains s.command && !chainOpen) = true)
    (hroom : ¬settings.maxDepth ≤ outer.length) :
    advance settings blocks s = .ok (s :: outer) := by
  cases h with
  | outside =>
    have hcontinuation : continuationCommands.contains s.command = false := by simpa using hplaced
    exact advance_opening hne hopens hcontinuation (Nat.not_le.1 hroom)
  | branch hbranch hcontinuation _ =>
    rw [advance_continuation hs hcontinuation, continueChain, if_pos hbranch]

/-- A simple statement stands behind no branch that is open. -/
theorem Before.eq_outer_of_simple (hs : HasBranches settings) {chainOpen : Bool} {s : Statement}
    (h : Before settings outer chainOpen blocks (s :: rest))
    (hopens : settings.opensBlock s.command = false) : blocks = outer := by
  cases h with
  | outside => rfl
  | branch _ hcontinuation _ =>
    rw [hs.not_continuation_of_simple hopens] at hcontinuation
    cases hcontinuation

/-- Behind the body of a block, the block is ended or the chain goes on. -/
theorem Follows.exists_before {s : Statement} {stop : Stop} (hended : stop ≠ .ended)
    (hroom : ¬settings.maxDepth ≤ outer.length) {statements : List Statement}
    (h : Follows settings (s :: outer) (s :: outer) statements (.ok (stop, rest))) :
    ∃ front blocks', statements = front ++ rest ∧
      openBlocks settings (s :: outer) front = .ok blocks' ∧
      Before settings outer (stop == .continuation) blocks' rest := by
  cases stop with
  | ended => exact absurd rfl hended
  | terminator =>
    obtain ⟨front, t, rfl, ht, hopen⟩ := h
    refine ⟨front ++ [t], outer, by simp, ?_, .outside⟩
    rw [openBlocks_append, hopen]
    exact openBlocks_cons_of_ok (advance_terminator ht) []
  | continuation =>
    obtain ⟨front, e, behind, rfl, rfl, he, hchain, hopen⟩ := h
    exact ⟨front, s :: outer, rfl, hopen, .branch hchain he (Nat.not_le.1 hroom)⟩

/-- What is said behind the body of a block is said in front of the block. -/
theorem Follows.behind_block {s : Statement} {body : Stop} {statements : List Statement}
    {stop : Except Fault (Stop × List Statement)}
    (hblock : advance settings blocks s = .ok (s :: outer)) (hended : body ≠ .ended)
    (hroom : ¬settings.maxDepth ≤ outer.length)
    (hbody : Follows settings (s :: outer) (s :: outer) statements (.ok (body, rest)))
    (hrest : ∀ blocks', Before settings outer (body == .continuation) blocks' rest →
      Follows settings outer blocks' rest stop) :
    Follows settings outer blocks (s :: statements) stop := by
  obtain ⟨front, blocks', rfl, hopen, hbefore⟩ := hbody.exists_before hended hroom
  have hfront : openBlocks settings blocks (s :: front) = .ok blocks' :=
    (openBlocks_cons_of_ok hblock front).trans hopen
  exact (hrest blocks' hbefore).behind hfront

end

theorem follows_buildBody (hs : HasBranches settings) {inChain chainOpen : Bool} {depth : Nat}
    {statements outer blocks : List Statement} (hdepth : outer.length = depth)
    (hchain : inBranch outer = inChain)
    (hbefore : Before settings outer chainOpen blocks statements) :
    Follows settings outer blocks statements
      (stopped (buildBody settings inChain depth chainOpen statements)) := by
  fun_induction buildBody settings inChain depth chainOpen statements generalizing outer blocks with
  | case1 =>
    cases hbefore
    exact openBlocks_nil outer
  | case2 inChain depth chainOpen s rest hstop =>
    simp only [Bool.and_eq_true, Bool.not_eq_true'] at hstop
    obtain ⟨⟨hinChain, hcontinuation⟩, rfl⟩ := hstop
    cases hbefore
    exact ⟨[], s, rest, rfl, rfl, hcontinuation, hchain.trans hinChain, openBlocks_nil outer⟩
  | case3 inChain depth chainOpen s rest _ hterminator =>
    cases hbefore with
    | outside => exact ⟨[], s, rfl, hterminator, openBlocks_nil outer⟩
    | branch _ hcontinuation _ =>
      exact absurd hterminator (hs.ne_terminator_of_continuation hcontinuation)
  | case4 inChain depth chainOpen s rest hstop hne hopens hmisplaced =>
    simp only [Bool.and_eq_true, Bool.not_eq_true'] at hmisplaced
    obtain ⟨hcontinuation, rfl⟩ := hmisplaced
    have hinChain : inChain = false := by
      rw [hcontinuation, Bool.and_true, Bool.not_false, Bool.and_true] at hstop
      exact Bool.eq_false_iff.2 hstop
    cases hbefore
    refine .inl (openBlocks_cons_of_error ?_ rest)
    rw [advance_continuation hs hcontinuation]
    exact continueChain_of_inBranch (hchain.trans hinChain) s
  | case5 inChain depth chainOpen s rest hstop hne hopens hplaced hdeep =>
    cases hbefore with
    | outside =>
      have hcontinuation : continuationCommands.contains s.command = false := by
        simpa using hplaced
      exact .inl (openBlocks_cons_of_error
        (advance_tooDeep hne hopens hcontinuation (hdepth ▸ hdeep)) rest)
    | branch _ _ hroom =>
      rw [← hdepth] at hdeep
      exact absurd hroom (Nat.not_lt.2 hdeep)
  | case6 inChain depth chainOpen s rest _ hne hopens hplaced hroom fault hfault ih =>
    rw [← hdepth] at hroom
    have hblock := hbefore.advance_block hs hne hopens hplaced hroom
    have hinner : (s :: outer).length = depth + 1 := congrArg (· + 1) hdepth
    have hbody := ih hinner rfl .outside
    rw [hfault] at hbody
    exact hbody.behind (openBlocks_cons_of_ok hblock [])
  | case7 inChain depth chainOpen s rest _ hne hopens hplaced hroom body left hbuild ih =>
    rw [← hdepth] at hroom
    have hblock := hbefore.advance_block hs hne hopens hplaced hroom
    have hinner : (s :: outer).length = depth + 1 := congrArg (· + 1) hdepth
    have hbody := ih hinner rfl .outside
    rw [hbuild] at hbody
    exact .inr ⟨s, outer, (openBlocks_cons_of_ok hblock rest).trans hbody, rfl⟩
  | case8 inChain depth chainOpen s rest _ hne hopens hplaced hroom body stop₁ rest₁ h₁ hended hbuild
      fault hfault ihbody ihrest =>
    rw [← hdepth] at hroom
    have hblock := hbefore.advance_block hs hne hopens hplaced hroom
    have hinner : (s :: outer).length = depth + 1 := congrArg (· + 1) hdepth
    have hbody := ihbody hinner rfl .outside
    rw [hbuild] at hbody
    rw [hfault] at ihrest
    exact Follows.behind_block hblock hended hroom hbody fun _ => ihrest hdepth hchain
  | case9 inChain depth chainOpen s rest _ hne hopens hplaced hroom body stop₁ rest₁ h₁ hended hbuild
      nodes₂ stop₂ rest₂ h₂ hbuild₂ ihbody ihrest =>
    rw [← hdepth] at hroom
    have hblock := hbefore.advance_block hs hne hopens hplaced hroom
    have hinner : (s :: outer).length = depth + 1 := congrArg (· + 1) hdepth
    have hbody := ihbody hinner rfl .outside
    rw [hbuild] at hbody
    rw [hbuild₂] at ihrest
    exact Follows.behind_block hblock hended hroom hbody fun _ => ihrest hdepth hchain
  | case10 inChain depth chainOpen s rest _ hne hopens fault hfault ih =>
    obtain rfl := hbefore.eq_outer_of_simple hs (Bool.eq_false_iff.2 hopens)
    have hrest := ih hdepth hchain .outside
    rw [hfault] at hrest
    have hsimple : advance settings blocks s = .ok blocks :=
      advance_simple hne (Bool.eq_false_iff.2 hopens)
    exact hrest.behind (openBlocks_cons_of_ok hsimple [])
  | case11 inChain depth chainOpen s rest _ hne hopens nodes₁ stop₁ rest₁ h₁ hbuild ih =>
    obtain rfl := hbefore.eq_outer_of_simple hs (Bool.eq_false_iff.2 hopens)
    have hrest := ih hdepth hchain .outside
    rw [hbuild] at hrest
    have hsimple : advance settings blocks s = .ok blocks :=
      advance_simple hne (Bool.eq_false_iff.2 hopens)
    exact hrest.behind (openBlocks_cons_of_ok hsimple [])

/-! ### Whole programs -/

/-- A terminator behind all nodes is the stray one. -/
theorem build_of_stray {statements front rest : List Statement} {t : Statement} {nodes : List Node}
    {left : Rest statements} (hleft : left.val = rest) (hsplit : statements = front ++ t :: rest)
    (h : buildBody settings false 0 false statements = .ok (nodes, .terminator, left)) :
    build settings statements =
      .error (.script (.strayTerminator settings.terminator) (.ofLine t.line)) := by
  have hlength : statements.length = front.length + rest.length + 1 := by
    rw [hsplit, List.length_append, List.length_cons, Nat.add_assoc]
  have hindex : (statements.length : Int) - left.val.length - 1 = front.length := by
    rw [hleft]
    omega
  have hfrom : buildFrom settings statements 0 false 0 = .ok (nodes, (front.length : Int)) := by
    rw [buildFrom, List.drop_zero, h, ← hindex]
    rfl
  have hstray : statements[front.length]? = some t := by
    rw [hsplit, List.getElem?_append_right (Nat.le_refl _), Nat.sub_self, List.getElem?_cons_zero]
  simp only [build, hfrom, bind, Except.bind]
  rw [Int.toNat_natCast, hstray]
  rfl

/-- What the building of a whole program says about what is open. -/
def Verdict (settings : Settings) (statements : List Statement) : Except Fault (List Node) → Prop
  | .error fault =>
    openBlocks settings [] statements = .error fault ∨
      ∃ s outer, openBlocks settings [] statements = .ok (s :: outer) ∧
        fault = .script (.neverClosed s.command settings.terminator) (.ofLine s.line)
  | .ok _ => openBlocks settings [] statements = .ok []

theorem verdict_build (hs : HasBranches settings) (statements : List Statement) :
    Verdict settings statements (build settings statements) := by
  have hfollows : Follows settings [] [] statements
      (stopped (buildBody settings false 0 false statements)) :=
    follows_buildBody hs rfl rfl .outside
  cases h : buildBody settings false 0 false statements with
  | error fault =>
    rw [h] at hfollows
    rw [build_of_error h]
    exact hfollows
  | ok built =>
    obtain ⟨nodes, stop, left⟩ := built
    rw [h] at hfollows
    cases stop with
    | ended =>
      rw [build_of_ended h]
      exact hfollows
    | terminator =>
      obtain ⟨front, t, hsplit, ht, hopen⟩ := hfollows
      rw [build_of_stray rfl hsplit h]
      refine .inl ?_
      rw [hsplit, openBlocks_append, hopen]
      exact openBlocks_cons_of_error (advance_terminator ht) _
    | continuation =>
      obtain ⟨_, _, _, _, _, _, hchain, _⟩ := hfollows
      cases hchain

/-- The builder rejects statements for the first one that cannot follow those in front of it, or for the
innermost block that is open behind all of them. -/
theorem build_eq_error_iff (hs : HasBranches settings) {statements : List Statement}
    {fault : Fault} :
    build settings statements = .error fault ↔
      openBlocks settings [] statements = .error fault ∨
        ∃ s outer, openBlocks settings [] statements = .ok (s :: outer) ∧
          fault = .script (.neverClosed s.command settings.terminator) (.ofLine s.line) := by
  have hverdict := verdict_build hs statements
  cases h : build settings statements with
  | ok nodes =>
    rw [h] at hverdict
    have hclosed : openBlocks settings [] statements = .ok [] := hverdict
    simp [hclosed]
  | error found =>
    rw [h] at hverdict
    rw [Except.error.injEq]
    rcases hverdict with hfault | ⟨s, outer, hopen, rfl⟩
    · simp [hfault]
    · simp [hopen, eq_comm]

/-- The settings accept statements when the builder gives a program for them. -/
def Accepts (settings : Settings) (statements : List Statement) : Prop :=
  ∃ nodes, build settings statements = .ok nodes

/-- Statements are accepted when nothing is open behind them. -/
theorem accepts_iff (hs : HasBranches settings) (statements : List Statement) :
    Accepts settings statements ↔ openBlocks settings [] statements = .ok [] := by
  have hverdict := verdict_build hs statements
  cases h : build settings statements with
  | ok nodes =>
    rw [h] at hverdict
    exact ⟨fun _ => hverdict, fun _ => ⟨nodes, h⟩⟩
  | error fault =>
    rw [h] at hverdict
    constructor
    · rintro ⟨nodes, hnodes⟩
      rw [h] at hnodes
      cases hnodes
    · intro hopen
      rcases hverdict with hfault | ⟨s, outer, hsome, -⟩
      · rw [hopen] at hfault
        cases hfault
      · rw [hopen] at hsome
        cases hsome

/-- **Terminators end what is open**, and each of them ends one block. -/
theorem openBlocks_terminators {ends : List Statement}
    (hends : ∀ t ∈ ends, t.command = settings.terminator) (blocks : List Statement) :
    openBlocks settings blocks ends = .ok [] ↔ ends.length = blocks.length := by
  induction ends generalizing blocks with
  | nil =>
    rw [openBlocks_nil, Except.ok.injEq]
    exact ⟨fun h => by rw [h], fun h => List.eq_nil_of_length_eq_zero h.symm⟩
  | cons t ends ih =>
    obtain ⟨ht, hends⟩ := List.forall_mem_cons.1 hends
    have hadvance : advance settings blocks t = endBlock settings t blocks := advance_terminator ht
    cases blocks with
    | nil =>
      rw [openBlocks_cons_of_error hadvance]
      exact ⟨nofun, nofun⟩
    | cons block outer =>
      rw [openBlocks_cons_of_ok hadvance, ih hends, List.length_cons, List.length_cons]
      omega

/-- Statements behind which some blocks are open are accepted together with as many terminators. -/
theorem accepts_append_terminators (hs : HasBranches settings) {statements blocks : List Statement}
    (hopen : openBlocks settings [] statements = .ok blocks) {ends : List Statement}
    (hends : ∀ t ∈ ends, t.command = settings.terminator) :
    Accepts settings (statements ++ ends) ↔ ends.length = blocks.length := by
  rw [accepts_iff hs, openBlocks_append, hopen]
  exact openBlocks_terminators hends blocks

/-- A fault is found at the first statement that cannot follow those in front of it. -/
theorem exists_of_openBlocks_eq_error {blocks statements : List Statement} {fault : Fault}
    (h : openBlocks settings blocks statements = .error fault) :
    ∃ front s rest blocks', statements = front ++ s :: rest ∧
      openBlocks settings blocks front = .ok blocks' ∧ advance settings blocks' s = .error fault := by
  induction statements generalizing blocks with
  | nil => cases h
  | cons s rest ih =>
    cases hadvance : advance settings blocks s with
    | error fault' =>
      rw [openBlocks_cons_of_error hadvance] at h
      cases h
      exact ⟨[], s, rest, blocks, rfl, openBlocks_nil blocks, hadvance⟩
    | ok blocks' =>
      rw [openBlocks_cons_of_ok hadvance] at h
      obtain ⟨front, t, rest', blocks'', rfl, hfront, ht⟩ := ih h
      exact ⟨s :: front, t, rest', blocks'', rfl,
        (openBlocks_cons_of_ok hadvance front).trans hfront, ht⟩

/-- **Faults of the blocks are found as early as possible.**  Rejected statements are of one of two
kinds.  Some blocks are open behind all of them; then the fault names the innermost one, and as many
terminators as blocks are open make the statements accepted.  Or some statement cannot follow those in
front of it; then the fault names the line of this statement, no statements that start with these are
accepted, and those in front of it are accepted when what is open there is terminated. -/
theorem rejected_earliest (hs : HasBranches settings) {statements : List Statement} {fault : Fault}
    (h : build settings statements = .error fault) :
    (∃ s outer, openBlocks settings [] statements = .ok (s :: outer) ∧
      fault = .script (.neverClosed s.command settings.terminator) (.ofLine s.line) ∧
      ∀ ends : List Statement, (∀ t ∈ ends, t.command = settings.terminator) →
        (Accepts settings (statements ++ ends) ↔ ends.length = (s :: outer).length)) ∨
      ∃ (j : Nat) (hj : j < statements.length) (cause : Cause),
        fault = .script cause (.ofLine statements[j].line) ∧
        (cause = .strayTerminator settings.terminator ∨
          cause = .misplacedContinuation statements[j].command ∨
          cause = .blocksTooDeep settings.maxDepth) ∧
        (∀ more, ¬Accepts settings (statements.take (j + 1) ++ more)) ∧
        ∃ blocks, openBlocks settings [] (statements.take j) = .ok blocks ∧
          ∀ ends : List Statement, (∀ t ∈ ends, t.command = settings.terminator) →
            (Accepts settings (statements.take j ++ ends) ↔ ends.length = blocks.length) := by
  rcases (build_eq_error_iff hs).1 h with hfault | ⟨s, outer, hopen, hfault⟩
  · right
    obtain ⟨front, s, rest, blocks, rfl, hfront, hadvance⟩ := exists_of_openBlocks_eq_error hfault
    obtain ⟨cause, hcause, hkind⟩ := exists_of_advance_eq_error hadvance
    have hj : front.length < (front ++ s :: rest).length := by simp
    have hget : (front ++ s :: rest)[front.length] = s := by
      rw [List.getElem_append_right (Nat.le_refl _)]
      simp
    have htake : (front ++ s :: rest).take front.length = front := List.take_left
    have htake' : (front ++ s :: rest).take (front.length + 1) = front ++ [s] := by
      rw [List.append_cons]
      exact List.take_left' (by simp)
    refine ⟨front.length, hj, cause, ?_, ?_, ?_, blocks, ?_, ?_⟩
    · rw [hget]
      exact hcause
    · rw [hget]
      exact hkind
    · intro more haccepts
      rw [htake', accepts_iff hs, List.append_assoc, openBlocks_append, hfront] at haccepts
      have herror := openBlocks_cons_of_error hadvance more
      exact absurd (herror.symm.trans haccepts) nofun
    · rw [htake]
      exact hfront
    · intro ends hends
      rw [htake]
      exact accepts_append_terminators hs hfront hends
  · left
    exact ⟨s, outer, hopen, hfault, fun ends => accepts_append_terminators hs hopen⟩

/-- A loop in the second branch of a chain is what is open innermost, so two terminators are missing;
a chain with one more branch behind its `else` is rejected there, whatever follows. -/
theorem rejected_earliest_in_chain :
    let entry (line : Int) (command : String) : Statement := ⟨line, command, []⟩
    HasBranches {} ∧
      build {} [entry 1 "if", entry 2 "elif", entry 3 "foreach"] =
        .error (.script (.neverClosed "foreach" "end") (.ofLine 3)) ∧
      (∀ ends : List Statement, (∀ t ∈ ends, t.command = "end") →
        (Accepts {} ([entry 1 "if", entry 2 "elif", entry 3 "foreach"] ++ ends) ↔
          ends.length = 2)) ∧
      build {} [entry 1 "if", entry 2 "else", entry 3 "elif"] =
        .error (.script (.misplacedContinuation "elif") (.ofLine 3)) ∧
      ∀ more, ¬Accepts {} ([entry 1 "if", entry 2 "else", entry 3 "elif"] ++ more) := by
  intro entry
  have hunclosed : build {} [entry 1 "if", entry 2 "elif", entry 3 "foreach"] =
      .error (.script (.neverClosed "foreach" "end") (.ofLine 3)) :=
    (build_eq_error_iff hasBranches_default).2 (.inr ⟨_, _, rfl, rfl⟩)
  have hmisplaced : build {} [entry 1 "if", entry 2 "else", entry 3 "elif"] =
      .error (.script (.misplacedContinuation "elif") (.ofLine 3)) :=
    (build_eq_error_iff hasBranches_default).2 (.inl rfl)
  refine ⟨hasBranches_default, hunclosed, ?_, hmisplaced, ?_⟩
  · rcases rejected_earliest hasBranches_default hunclosed with
      ⟨s, outer, hopen, -, hends⟩ | ⟨j, hj, cause, hcause, hkind, -⟩
    · have hblocks : openBlocks {} [] [entry 1 "if", entry 2 "elif", entry 3 "foreach"] =
          .ok [entry 3 "foreach", entry 2 "elif"] := rfl
      rw [hblocks, Except.ok.injEq] at hopen
      rw [← hopen] at hends
      exact hends
    · injection hcause with hneverClosed _
      subst hneverClosed
      rcases hkind with hkind | hkind | hkind <;> cases hkind
  · rcases rejected_earliest hasBranches_default hmisplaced with
      ⟨s, outer, -, hfault, -⟩ | ⟨j, hj, cause, hcause, -, hnone, -⟩
    · cases hfault
    · injection hcause with _ hplace
      match j with
      | 0 => cases hplace
      | 1 => cases hplace
      | 2 => exact hnone
      | j + 3 => exact absurd hj (Nat.not_lt.2 (Nat.le_add_left 3 j))

end Pipeline.Program
