import Pipeline.Proofs.Program.Members
import Pipeline.Proofs.Program.Relaxing

/-!
# Positions of the builder

The builder answers with the nodes of one body and with a single position that has three meanings:
behind all statements, at a terminator, or just before a continuation.  The last one is the position in
front of the statement that is still to be read, so it may lie before the place where the building
began, and before all statements.

* `StopsAt` : what the position says about the first statement that no node has taken.
* `Cursor.exists_of_built` : the nodes hold the statements up to there, from any place in a body.
* `Scans` : building by positions.  A block is followed by the position behind the one at which its body
  stopped, and nothing in the rules says that this lies ahead.
* `Moves.forward` : it does.
* `scans_iff` : so building by positions ends, with the one outcome that the builder gives.
* `stop_position_faithful` : all of it for one body that begins at any position.
-/

namespace Pipeline.Program

/-! ### Where a body stops -/

/-- What the position at which a body stopped says about the first statement that is not taken, which is
the one at `r`. -/
inductive StopsAt (settings : Settings) (statements : List Statement) (inChain : Bool) (r : Nat) :
    (stop : Int) → Prop where
  | ended : r = statements.length → StopsAt settings statements inChain r r
  | terminator {s : Statement} :
      statements[r]? = some s → s.command = settings.terminator →
      StopsAt settings statements inChain r r
  | continuation {s : Statement} :
      inChain = true → statements[r]? = some s → continuationCommands.contains s.command = true →
      StopsAt settings statements inChain r (r - 1)

/-- The position at which a body stopped that left the last `left` of the statements. -/
def Stop.position (length left : Nat) : Stop → Int
  | .ended => length
  | _ => (length : Int) - left - 1

/-- What is built by positions: nodes, the position at which the body stopped, and whether that was in
front of a continuation. -/
abbrev Built := List Node × Int × Bool

/-- A body that was built from the last of some statements, by positions. -/
def toBuilt (length : Nat) {given : List Statement} (r : List Node × Stop × Rest given) : Built :=
  (r.1, r.2.1.position length r.2.2.val.length, r.2.1 == .continuation)

/-- Where the builder stands: the position of the next statement, and what it knows of the body that it
is building. -/
structure Cursor where
  position : Nat
  inChain : Bool
  depth : Nat
  chainOpen : Bool

/-- What is built from a cursor on. -/
def Cursor.built (settings : Settings) (statements : List Statement) (c : Cursor) :
    Except Fault Built :=
  (buildBody settings c.inChain c.depth c.chainOpen (statements.drop c.position)).map
    (toBuilt statements.length)

variable {settings : Settings} {statements : List Statement}

theorem buildFrom_eq_built (index : Nat) (inChain : Bool) (depth : Nat) :
    buildFrom settings statements index inChain depth =
      (Cursor.built settings statements ⟨index, inChain, depth, false⟩).map fun r =>
        (r.1, r.2.1) := by
  rw [buildFrom, Cursor.built]
  rcases buildBody settings inChain depth false (statements.drop index) with
    fault | ⟨nodes, stop, rest⟩
  · rfl
  · cases stop <;> rfl

/-- What ends a body tells the position of the first statement that is not taken. -/
theorem Ends.stopsAt {inChain : Bool} {r : Nat} {stop : Stop} {behind : List Statement}
    (hr : r ≤ statements.length) (h : Ends settings inChain (statements.drop r) stop behind) :
    StopsAt settings statements inChain r (stop.position statements.length behind.length) := by
  have hlength : (statements.drop r).length = statements.length - r := List.length_drop
  have hnext : statements[r]? = (statements.drop r).head? := List.head?_drop.symm
  generalize statements.drop r = tail at h hlength hnext
  cases h with
  | ended =>
    have hend : r = statements.length := by
      simp only [List.length_nil] at hlength
      omega
    show StopsAt settings statements inChain r (statements.length : Int)
    rw [← hend]
    exact .ended hend
  | terminator hterminator =>
    have hstop : (statements.length : Int) - behind.length - 1 = r := by
      simp only [List.length_cons] at hlength
      omega
    show StopsAt settings statements inChain r ((statements.length : Int) - behind.length - 1)
    rw [hstop]
    exact .terminator hnext hterminator
  | @continuation s behind hchain hcontinuation =>
    have hstop : (statements.length : Int) - (s :: behind).length - 1 = r - 1 := by omega
    show StopsAt settings statements inChain r
      ((statements.length : Int) - (s :: behind).length - 1)
    rw [hstop]
    exact .continuation hchain hnext hcontinuation

/-- **What a position means.**  The nodes that are built from a cursor on hold the statements in front of
some `r` but for terminators, and the position at which the body stopped tells `r`. -/
theorem Cursor.exists_of_built {c : Cursor} (hposition : c.position ≤ statements.length)
    {nodes : List Node} {stop : Int} {continued : Bool}
    (h : c.built settings statements = .ok (nodes, stop, continued)) :
    ∃ r, c.position ≤ r ∧ r ≤ statements.length ∧
      Program.statements nodes =
        ((statements.take r).drop c.position).filter (·.command != settings.terminator) ∧
      StopsAt settings statements c.inChain r stop := by
  obtain ⟨⟨nodes', reason, rest⟩, hbody, heq⟩ := exists_of_map_eq_ok h
  obtain ⟨front, tail, hsplit, htaken, hends⟩ := taken_of_buildBody hbody
  cases heq
  have hlength : front.length + tail.length = statements.length - c.position := by
    rw [← List.length_append, ← hsplit, List.length_drop]
  have hfront : (statements.take (c.position + front.length)).drop c.position = front := by
    rw [List.drop_take, hsplit, Nat.add_sub_cancel_left, List.take_left]
  have htail : statements.drop (c.position + front.length) = tail := by
    rw [← List.drop_drop, hsplit, List.drop_left]
  have hr : c.position + front.length ≤ statements.length := by omega
  rw [← htail] at hends
  exact ⟨_, Nat.le_add_right _ _, hr, by rw [hfront, htaken], hends.stopsAt hr⟩

/-! ### Building by positions -/

namespace Cursor

/-- What the builder does at a cursor. -/
inductive Decision where
  /-- Stops at a position, in front of a continuation or not. -/
  | stops (position : Int) (continued : Bool)
  | fails (fault : Fault)
  /-- Takes a simple statement. -/
  | takes (s : Statement)
  /-- Opens a block, which is built first. -/
  | opens (s : Statement)

/-- What the builder does at a cursor, by the statement at its position. -/
def decision (settings : Settings) (statements : List Statement) (c : Cursor) : Decision :=
  match statements[c.position]? with
  | none => .stops statements.length false
  | some s =>
    if c.inChain && continuationCommands.contains s.command && !c.chainOpen then
      .stops (c.position - 1) true
    else if s.command = settings.terminator then .stops c.position false
    else if settings.opensBlock s.command then
      if continuationCommands.contains s.command && !c.chainOpen then
        .fails (.script (.misplacedContinuation s.command) (.ofLine s.line))
      else if settings.maxDepth ≤ c.depth then
        .fails (.script (.blocksTooDeep settings.maxDepth) (.ofLine s.line))
      else .opens s
    else .takes s

/-- Where the body of a block begins. -/
def inside (c : Cursor) (s : Statement) : Cursor :=
  ⟨c.position + 1, chainCommands.contains s.command, c.depth + 1, false⟩

/-- The same body further on. -/
def goOn (c : Cursor) (position : Nat) (chainOpen : Bool) : Cursor :=
  { c with position, chainOpen }

end Cursor

/-- Puts a node in front of what is built behind it. -/
def prepend (node : Node) (r : Built) : Built :=
  (node :: r.1, r.2)

/-- Building by positions: how it ends from a cursor on.  Behind a block it goes on at the position next
to the one at which the body stopped, wherever that is. -/
inductive Scans (settings : Settings) (statements : List Statement) :
    Cursor → Except Fault Built → Prop where
  | stops {c : Cursor} {position : Int} {continued : Bool} :
      c.decision settings statements = .stops position continued →
      Scans settings statements c (.ok ([], position, continued))
  | fails {c : Cursor} {fault : Fault} :
      c.decision settings statements = .fails fault → Scans settings statements c (.error fault)
  | takes {c : Cursor} {s : Statement} {outcome : Except Fault Built} :
      c.decision settings statements = .takes s →
      Scans settings statements (c.goOn (c.position + 1) false) outcome →
      Scans settings statements c (outcome.map (prepend (.simple s)))
  | failsInside {c : Cursor} {s : Statement} {fault : Fault} :
      c.decision settings statements = .opens s →
      Scans settings statements (c.inside s) (.error fault) →
      Scans settings statements c (.error fault)
  | neverClosed {c : Cursor} {s : Statement} {body : List Node} {stop : Int} {continued : Bool} :
      c.decision settings statements = .opens s →
      Scans settings statements (c.inside s) (.ok (body, stop, continued)) →
      statements.length ≤ stop →
      Scans settings statements c
        (.error (.script (.neverClosed s.command settings.terminator) (.ofLine s.line)))
  | closes {c : Cursor} {s : Statement} {body : List Node} {stop : Int} {continued : Bool}
      {next : Nat} {outcome : Except Fault Built} :
      c.decision settings statements = .opens s →
      Scans settings statements (c.inside s) (.ok (body, stop, continued)) →
      stop < statements.length → (next : Int) = stop + 1 →
      Scans settings statements (c.goOn next continued) outcome →
      Scans settings statements c (outcome.map (prepend (.block s body)))

/-- One step of the builder: past a simple statement, into a block, or past a block that was built. -/
inductive Moves (settings : Settings) (statements : List Statement) : Cursor → Cursor → Prop where
  | takes {c : Cursor} {s : Statement} :
      c.decision settings statements = .takes s →
      Moves settings statements c (c.goOn (c.position + 1) false)
  | opens {c : Cursor} {s : Statement} :
      c.decision settings statements = .opens s → Moves settings statements c (c.inside s)
  | closes {c : Cursor} {s : Statement} {body : List Node} {stop : Int} {continued : Bool}
      {next : Nat} :
      c.decision settings statements = .opens s →
      Scans settings statements (c.inside s) (.ok (body, stop, continued)) →
      stop < statements.length → (next : Int) = stop + 1 →
      Moves settings statements c (c.goOn next continued)

namespace Cursor

/-- What is built with a block in front whose body has been built. -/
def close (settings : Settings) (statements : List Statement) (c : Cursor) (s : Statement)
    (inner : Built) : Except Fault Built :=
  if (statements.length : Int) ≤ inner.2.1 then
    .error (.script (.neverClosed s.command settings.terminator) (.ofLine s.line))
  else
    ((c.goOn (inner.2.1 + 1).toNat inner.2.2).built settings statements).map
      (prepend (.block s inner.1))

/-- Behind a body that something ended, the position next to the one at which it stopped is that of the
statements that are left; a body that nothing ended stopped behind all statements. -/
theorem close_of_buildBody (c : Cursor) (s : Statement) {inChain : Bool} {depth position : Nat}
    {body : List Node} {stop : Stop} {rest : Rest (statements.drop position)}
    (h : buildBody settings inChain depth false (statements.drop position) =
      .ok (body, stop, rest)) :
    c.close settings statements s (toBuilt statements.length (body, stop, rest)) =
      if stop = .ended then
        .error (.script (.neverClosed s.command settings.terminator) (.ofLine s.line))
      else
        (buildBody settings c.inChain c.depth (stop == .continuation) rest.val).map fun outer =>
          prepend (.block s body) (toBuilt statements.length outer) := by
  have hsuffix : rest.val <:+ statements :=
    (suffix_of_buildBody h).trans (List.drop_suffix position statements)
  by_cases hended : stop = .ended
  · rw [if_pos hended, hended]
    exact if_pos (Int.le_refl _)
  · have hlength := hsuffix.length_le
    have hstop : stop.position statements.length rest.val.length =
        (statements.length : Int) - rest.val.length - 1 := by
      cases stop with
      | ended => exact absurd rfl hended
      | terminator => rfl
      | continuation => rfl
    have hnext : (stop.position statements.length rest.val.length + 1).toNat =
        statements.length - rest.val.length := by omega
    have hbehind : ¬(statements.length : Int) ≤ stop.position statements.length rest.val.length := by
      omega
    rw [if_neg hended, close, toBuilt, if_neg hbehind, hnext, built, goOn]
    show ((buildBody settings c.inChain c.depth (stop == .continuation)
      (statements.drop (statements.length - rest.val.length))).map _).map _ = _
    rw [← List.suffix_iff_eq_drop.1 hsuffix]
    rcases buildBody settings c.inChain c.depth (stop == .continuation) rest.val with
      fault | outer <;> rfl

/-- A block is built from its body, and from what is built behind the position at which that stopped. -/
theorem built_block {c : Cursor} {s : Statement}
    (hdrop : statements.drop c.position = s :: statements.drop (c.position + 1))
    (hstops : ¬(c.inChain && continuationCommands.contains s.command && !c.chainOpen) = true)
    (hend : s.command ≠ settings.terminator) (hopens : settings.opensBlock s.command = true)
    (hplaced : ¬(continuationCommands.contains s.command && !c.chainOpen) = true)
    (hroom : ¬settings.maxDepth ≤ c.depth) :
    c.built settings statements =
      ((c.inside s).built settings statements).bind (c.close settings statements s) := by
  rw [built, hdrop, buildBody_opens _ hstops hend hopens hplaced hroom, built, inside]
  rcases hbody : buildBody settings (chainCommands.contains s.command) (c.depth + 1) false
      (statements.drop (c.position + 1)) with fault | ⟨body, stop, rest⟩
  · rfl
  · show Except.map _ (if stop = .ended then _ else _) =
      c.close settings statements s (toBuilt statements.length (body, stop, rest))
    rw [close_of_buildBody c s hbody]
    by_cases hended : stop = .ended
    · rw [if_pos hended, if_pos hended]
      rfl
    · rw [if_neg hended, if_neg hended]
      rcases buildBody settings c.inChain c.depth (stop == .continuation) rest.val with
        fault | outer <;> rfl

/-- What is built from a cursor on is told by the decision there. -/
theorem built_eq (c : Cursor) :
    c.built settings statements =
      match c.decision settings statements with
      | .stops position continued => .ok ([], position, continued)
      | .fails fault => .error fault
      | .takes s =>
        ((c.goOn (c.position + 1) false).built settings statements).map (prepend (.simple s))
      | .opens s =>
        ((c.inside s).built settings statements).bind (c.close settings statements s) := by
  rcases Nat.lt_or_ge c.position statements.length with hlt | hge
  · have hdrop := List.drop_eq_getElem_cons hlt
    have hsome := List.getElem?_eq_getElem hlt
    generalize statements[c.position] = s at hdrop hsome
    have hleft : (statements.drop (c.position + 1)).length = statements.length - c.position - 1 := by
      rw [List.length_drop]
      omega
    by_cases hstops :
        (c.inChain && continuationCommands.contains s.command && !c.chainOpen) = true
    · have hstop : (statements.length : Int) - (s :: statements.drop (c.position + 1)).length - 1 =
          c.position - 1 := by
        rw [List.length_cons]
        omega
      rw [built, hdrop, buildBody_continuation _ hstops, decision, hsome]
      simp only [if_pos hstops, ← hstop]
      rfl
    by_cases hend : s.command = settings.terminator
    · have hstop : (statements.length : Int) - (statements.drop (c.position + 1)).length - 1 =
          c.position := by omega
      rw [built, hdrop, buildBody_terminator _ hstops hend, decision, hsome]
      simp only [if_neg hstops, if_pos hend, ← hstop]
      rfl
    by_cases hopens : settings.opensBlock s.command = true
    · by_cases hmisplaced : (continuationCommands.contains s.command && !c.chainOpen) = true
      · rw [built, hdrop, buildBody_misplaced _ hstops hend hopens hmisplaced, decision, hsome]
        simp only [if_neg hstops, if_neg hend, if_pos hopens, if_pos hmisplaced]
        rfl
      by_cases hdeep : settings.maxDepth ≤ c.depth
      · rw [built, hdrop, buildBody_tooDeep _ hstops hend hopens hmisplaced hdeep, decision, hsome]
        simp only [if_neg hstops, if_neg hend, if_pos hopens, if_neg hmisplaced, if_pos hdeep]
        rfl
      · rw [built_block hdrop hstops hend hopens hmisplaced hdeep, decision, hsome]
        simp only [if_neg hstops, if_neg hend, if_pos hopens, if_neg hmisplaced, if_neg hdeep]
    · rw [built, hdrop, buildBody_plain _ hstops hend hopens, decision, hsome]
      simp only [if_neg hstops, if_neg hend, if_neg hopens]
      rw [built, goOn]
      rcases buildBody settings c.inChain c.depth false (statements.drop (c.position + 1)) with
        fault | outer <;> rfl
  · have hnone : statements[c.position]? = none := List.getElem?_eq_none hge
    rw [built, decision, hnone, List.drop_of_length_le hge, buildBody]
    rfl

theorem built_of_opens {c : Cursor} {s : Statement}
    (h : c.decision settings statements = .opens s) :
    c.built settings statements =
      ((c.inside s).built settings statements).bind (c.close settings statements s) := by
  rw [built_eq, h]

/-- Where the builder does not stop there is a statement. -/
theorem lt_length_of_decision {c : Cursor} {decision : Decision}
    (h : c.decision settings statements = decision)
    (hgoes : ∀ position continued, decision ≠ .stops position continued) :
    c.position < statements.length := by
  rcases Nat.lt_or_ge c.position statements.length with hlt | hge
  · exact hlt
  · have hnone : statements[c.position]? = none := List.getElem?_eq_none hge
    rw [Cursor.decision, hnone] at h
    exact absurd h.symm (hgoes _ _)

/-- The body of a block stops at the position of the block or behind it. -/
theorem le_stop_of_inside {c : Cursor} {s : Statement} {body : List Node} {stop : Int}
    {continued : Bool} (hopens : c.decision settings statements = .opens s)
    (h : (c.inside s).built settings statements = .ok (body, stop, continued)) :
    (c.position : Int) ≤ stop := by
  have hposition : (c.inside s).position ≤ statements.length := lt_length_of_decision hopens nofun
  obtain ⟨r, hr, -, -, hstop⟩ := exists_of_built hposition h
  have hr : c.position + 1 ≤ r := hr
  cases hstop with
  | ended => omega
  | terminator => omega
  | continuation => omega

/-! ### Building by positions ends -/

/-- What building by positions gives is what the builder gives. -/
theorem eq_built_of_scans {c : Cursor} {outcome : Except Fault Built}
    (h : Scans settings statements c outcome) : outcome = c.built settings statements := by
  induction h with
  | stops hdecision => rw [built_eq, hdecision]
  | fails hdecision => rw [built_eq, hdecision]
  | takes hdecision _ ih => rw [built_eq, hdecision, ih]
  | failsInside hdecision _ ih =>
    rw [built_of_opens hdecision, ← ih]
    rfl
  | neverClosed hdecision _ hlast ih =>
    rw [built_of_opens hdecision, ← ih]
    exact (if_pos hlast).symm
  | @closes c s body stop continued next outcome hdecision _ hlast hnext _ ihbody ihrest =>
    have htoNat : (stop + 1).toNat = next := by omega
    rw [built_of_opens hdecision, ← ihbody, ihrest, ← htoNat]
    exact (if_neg (Int.not_le.2 hlast)).symm

/-- From every cursor on, building by positions ends.  The induction is on the statements that lie ahead:
each place where the building goes on has fewer of them. -/
theorem scans_built (c : Cursor) : Scans settings statements c (c.built settings statements) := by
  induction hahead : statements.length - c.position using Nat.strongRecOn generalizing c with
  | ind ahead ih =>
    cases hdecision : c.decision settings statements with
    | stops position continued =>
      rw [built_eq, hdecision]
      exact .stops hdecision
    | fails fault =>
      rw [built_eq, hdecision]
      exact .fails hdecision
    | takes s =>
      rw [built_eq, hdecision]
      have hlt := lt_length_of_decision hdecision nofun
      have hless : statements.length - (c.position + 1) < ahead := by omega
      exact .takes hdecision (ih _ hless (c.goOn (c.position + 1) false) rfl)
    | opens s =>
      have hlt := lt_length_of_decision hdecision nofun
      have hless : statements.length - (c.position + 1) < ahead := by omega
      have hinside := ih _ hless (c.inside s) rfl
      rw [built_of_opens hdecision]
      cases hbody : (c.inside s).built settings statements with
      | error fault =>
        rw [hbody] at hinside
        exact .failsInside hdecision hinside
      | ok inner =>
        obtain ⟨body, stop, continued⟩ := inner
        -- the body stopped at this block at the earliest, so the next position lies ahead
        have hstop := le_stop_of_inside hdecision hbody
        rw [hbody] at hinside
        show Scans settings statements c (c.close settings statements s (body, stop, continued))
        by_cases hlast : (statements.length : Int) ≤ stop
        · rw [close, if_pos hlast]
          exact .neverClosed hdecision hinside hlast
        · have hnext : ((stop + 1).toNat : Int) = stop + 1 := by omega
          have hless : statements.length - (stop + 1).toNat < ahead := by omega
          rw [close, if_neg hlast]
          exact .closes hdecision hinside (Int.not_le.1 hlast) hnext
            (ih _ hless (c.goOn (stop + 1).toNat continued) rfl)

end Cursor

/-- Building by positions ends from every cursor on, in one way: with what the builder gives. -/
theorem scans_iff {c : Cursor} {outcome : Except Fault Built} :
    Scans settings statements c outcome ↔ outcome = c.built settings statements :=
  ⟨Cursor.eq_built_of_scans, fun h => h ▸ c.scans_built⟩

/-- Every step of the builder leads forward, and not past the end. -/
theorem Moves.forward {c next : Cursor} (h : Moves settings statements c next) :
    c.position < next.position ∧ next.position ≤ statements.length := by
  cases h with
  | takes hdecision => exact ⟨Nat.lt_succ_self _, Cursor.lt_length_of_decision hdecision nofun⟩
  | opens hdecision => exact ⟨Nat.lt_succ_self _, Cursor.lt_length_of_decision hdecision nofun⟩
  | @closes s body stop continued next hdecision hbody hlast hnext =>
    have hstop := Cursor.le_stop_of_inside hdecision (scans_iff.1 hbody).symm
    show c.position < next ∧ next ≤ statements.length
    omega

/-- **The position is faithful.**  A body that is built from any position on holds, in their order, the
statements from there up to some `r` that are no terminators, and the position at which it stopped tells
`r`: that is the end, the statement that is the terminator, or the statement behind the position when it
continues the chain that the body belongs to.  Every step that the builder takes, in the body or in one
inside it, leads forward, so that building by positions ends, with nothing but what the builder gives. -/
theorem stop_position_faithful (settings : Settings) {statements : List Statement} {index : Nat}
    (hindex : index ≤ statements.length) (inChain : Bool) (depth : Nat) :
    (∀ nodes stop, buildFrom settings statements index inChain depth = .ok (nodes, stop) →
      ∃ r, index ≤ r ∧ r ≤ statements.length ∧
        Program.statements nodes =
          ((statements.take r).drop index).filter (·.command != settings.terminator) ∧
        StopsAt settings statements inChain r stop) ∧
      (∀ c next, Moves settings statements c next →
        c.position < next.position ∧ next.position ≤ statements.length) ∧
      ∃ outcome, (∀ outcome', Scans settings statements ⟨index, inChain, depth, false⟩ outcome' ↔
          outcome' = outcome) ∧
        buildFrom settings statements index inChain depth = outcome.map fun r => (r.1, r.2.1) := by
  refine ⟨?_, fun c next h => h.forward, _, fun outcome => scans_iff, buildFrom_eq_built _ _ _⟩
  intro nodes stop h
  rw [buildFrom_eq_built] at h
  obtain ⟨⟨nodes', stop', continued⟩, hbuilt, heq⟩ := exists_of_map_eq_ok h
  cases heq
  exact Cursor.exists_of_built (c := ⟨index, inChain, depth, false⟩) hindex hbuilt

/-- Inside of a branch, a chain of two branches stops before the `else` at position 5; and in front of an
`else` that stands first the position lies before all statements. -/
theorem stop_position_faithful_before_else :
    let entry (line : Int) (command : String) : Statement := ⟨line, command, []⟩
    let statements : List Statement := [entry 1 "set", entry 2 "if", entry 3 "print", entry 4 "elif",
      entry 5 "end", entry 6 "else", entry 7 "end"]
    let nodes : List Node :=
      [.block (entry 2 "if") [.simple (entry 3 "print")], .block (entry 4 "elif") []]
    (1 ≤ statements.length ∧ buildFrom {} statements 1 true 0 = .ok (nodes, 4) ∧
      ∃ r, 1 ≤ r ∧ r ≤ statements.length ∧
        Program.statements nodes = ((statements.take r).drop 1).filter (·.command != "end") ∧
        StopsAt {} statements true r 4) ∧
      buildFrom {} [entry 6 "else"] 0 true 0 = .ok ([], -1) := by
  intro entry statements nodes
  have hif : Cursor.decision {} statements ⟨1, true, 0, false⟩ = .opens (entry 2 "if") := rfl
  have hprint : Cursor.decision {} statements ⟨2, true, 1, false⟩ = .takes (entry 3 "print") := rfl
  have hfirst : Scans {} statements ⟨3, true, 1, false⟩ (.ok ([], 2, true)) := .stops rfl
  have htwo : (2 : Int) < statements.length := by decide
  have helif : Cursor.decision {} statements ⟨3, true, 0, true⟩ = .opens (entry 4 "elif") := rfl
  have hsecond : Scans {} statements ⟨4, true, 1, false⟩ (.ok ([], 4, false)) := .stops rfl
  have hfour : (4 : Int) < statements.length := by decide
  have helse : Scans {} statements ⟨5, true, 0, false⟩ (.ok ([], 4, true)) := .stops rfl
  have hscan : Scans {} statements ⟨1, true, 0, false⟩ (.ok (nodes, 4, true)) :=
    Scans.closes hif (Scans.takes hprint hfirst) htwo rfl
      (Scans.closes helif hsecond hfour rfl helse)
  have hlength : 1 ≤ statements.length := by decide
  obtain ⟨hfaithful, -, outcome, hscans, hbuild⟩ := stop_position_faithful {} hlength true 0
  rw [← (hscans _).1 hscan] at hbuild
  obtain ⟨-, -, outcome', hscans', hbuild'⟩ :=
    stop_position_faithful {} (Nat.zero_le [entry 6 "else"].length) true 0
  rw [← (hscans' _).1 (.stops rfl)] at hbuild'
  exact ⟨⟨hlength, hbuild, hfaithful _ _ hbuild⟩, hbuild'⟩

end Pipeline.Program
