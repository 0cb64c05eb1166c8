import Pipeline.Statement

/-!
# Programs

A program is a sequence of nodes: simple statements, and blocks, which are statements with a body.
The body of a block ends at the terminator.  Inside the body of a branch, a continuation of the
chain that follows no branch of the body itself ends the body too; it belongs to the chain outside
and opens the next block there, so a whole chain needs one terminator.
-/

namespace Pipeline

/-- A statement, with a body when its command opens a block. -/
inductive Node where
  | simple (statement : Statement)
  | block (statement : Statement) (body : List Node)
  deriving Repr

namespace Node

/-- The statement of a node. -/
def statement : Node → Statement
  | .simple s => s
  | .block s _ => s

/-- The body of a block. -/
def body? : Node → Option (List Node)
  | .simple _ => none
  | .block _ body => some body

/-- Whether a node has a body. -/
def isBlock : Node → Bool
  | .simple _ => false
  | .block _ _ => true

end Node

namespace Program

/-- Why the building of a body stopped. -/
inductive Stop where
  /-- In front of a continuation, which is still to be read. -/
  | continuation
  /-- Behind a terminator. -/
  | terminator
  /-- At the end of the statements. -/
  | ended
  deriving DecidableEq, Repr

/-- The statements behind those that a body was built from, no more than there were. -/
abbrev Rest (statements : List Statement) :=
  { rest : List Statement // rest.length ≤ statements.length }

/-- Builds a body at the given nesting depth.  `inChain` says that the body belongs to a branch,
`chainOpen` that the node before was a branch which stopped in front of a continuation. -/
def buildBody (settings : Settings) (inChain : Bool) (depth : Nat) (chainOpen : Bool)
    (statements : List Statement) : Except Fault (List Node × Stop × Rest statements) :=
  match statements with
  | [] => .ok ([], .ended, ⟨[], Nat.le_refl _⟩)
  | s :: rest =>
    if inChain && continuationCommands.contains s.command && !chainOpen then
      .ok ([], .continuation, ⟨s :: rest, Nat.le_refl _⟩)
    else if s.command = settings.terminator then
      .ok ([], .terminator, ⟨rest, Nat.le_succ _⟩)
    else if settings.opensBlock s.command then
      if continuationCommands.contains s.command && !chainOpen then
        .error (.script (.misplacedContinuation s.command) (.ofLine s.line))
      else if settings.maxDepth ≤ depth then
        .error (.script (.blocksTooDeep settings.maxDepth) (.ofLine s.line))
      else
        match buildBody settings (chainCommands.contains s.command) (depth + 1) false rest with
        | .error fault => .error fault
        | .ok (_, .ended, _) =>
          .error (.script (.neverClosed s.command settings.terminator) (.ofLine s.line))
        | .ok (body, stop, ⟨rest₁, h₁⟩) =>
          match buildBody settings inChain depth (stop == .continuation) rest₁ with
          | .error fault => .error fault
          | .ok (nodes, stop', ⟨rest₂, h₂⟩) =>
            .ok (.block s body :: nodes, stop', ⟨rest₂, Nat.le_trans h₂ (Nat.le_succ_of_le h₁)⟩)
    else
      match buildBody settings inChain depth false rest with
      | .error fault => .error fault
      | .ok (nodes, stop, ⟨rest₁, h₁⟩) =>
        .ok (.simple s :: nodes, stop, ⟨rest₁, Nat.le_succ_of_le h₁⟩)
termination_by statements.length
decreasing_by
  · exact Nat.lt_succ_self _
  · exact Nat.lt_succ_of_le h₁
  · exact Nat.lt_succ_self _

/-- Builds one body from the statements behind the first `index` ones, and gives the position of the
statement at which the building stopped: that of the terminator, the one before a continuation, or
the number of statements. -/
def buildFrom (settings : Settings) (statements : List Statement) (index : Nat) (inChain : Bool)
    (depth : Nat) : Except Fault (List Node × Int) :=
  (buildBody settings inChain depth false (statements.drop index)).map fun r =>
    (r.1, match r.2.1 with
      | .ended => (statements.length : Int)
      | _ => (statements.length : Int) - r.2.2.val.length - 1)

/-- Builds a whole program; no terminator may be left over. -/
def build (settings : Settings) (statements : List Statement) : Except Fault (List Node) := do
  let (nodes, stop) ← buildFrom settings statements 0 false 0
  match statements[stop.toNat]? with
  | some s => throw (.script (.strayTerminator settings.terminator) (.ofLine s.line))
  | none => return nodes

/-- The program that a text writes. -/
def ofText (settings : Settings) (s : String) : Except Fault (List Node) := do
  let statements ← Statement.readLines settings (Text.lines s.toList)
  build settings statements

end Program

end Pipeline
