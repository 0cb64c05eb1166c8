import Pipeline.Main
import Pipeline.Registry.Shelf
import Pipeline.Proofs.Expr.Precedence
import Pipeline.Proofs.Expr.Grammar
import Pipeline.Proofs.Expr.Printing
import Pipeline.Proofs.Program.Blocks
import Pipeline.Proofs.Program.Printing
import Pipeline.Proofs.Execution.Actions
import Pipeline.Proofs.Execution.Plans
import Pipeline.Proofs.Execution.Lockstep
import Pipeline.Proofs.Execution.ControlState
import Pipeline.Proofs.Execution.Branches
import Pipeline.Proofs.Execution.Chains
import Pipeline.Proofs.Execution.Machine
import Pipeline.Proofs.Faults
import Pipeline.Proofs.Value.Reach
import Pipeline.Proofs.Expr.Evaluation
import Pipeline.Proofs.Program.Members
import Pipeline.Proofs.Statement.Reading
import Pipeline.Proofs.Token.Spelling
import Pipeline.Proofs.Statement.Splitting
import Pipeline.Proofs.Execution.Handlers
import Pipeline.Proofs.Execution.Soundness
import Pipeline.Proofs.Session
import Pipeline.Proofs.Program.Renumbering
import Pipeline.Proofs.Settings.Relaxing
import Pipeline.Proofs.Statement.Relaxing
import Pipeline.Proofs.Program.Relaxing
import Pipeline.Proofs.Execution.Relaxing
import Pipeline.Proofs.Statement.Layout
import Pipeline.Proofs.Session.Steps
import Pipeline.Proofs.Session.History
import Pipeline.Proofs.Session.Relaxing
import Pipeline.Proofs.Session.Layout
import Pipeline.Proofs.Execution.Continuations
import Pipeline.Proofs.Execution.WellFormed
import Pipeline.Proofs.Execution.Sequences
import Pipeline.Proofs.Session.Continuations
import Pipeline.Proofs.Statement.Balance
import Pipeline.Proofs.Program.OpenBlocks
import Pipeline.Proofs.Program.Positions
import Pipeline.Proofs.Execution.Limits
import Pipeline.Proofs.Session.Limits
import Pipeline.Proofs.Execution.Lists
import Pipeline.Proofs.Execution.Knots
import Pipeline.Proofs.Execution.Loops
import Pipeline.Proofs.Session.Knots
import Pipeline.Proofs.Expr.Semantics
import Pipeline.Proofs.Expr.Substitution
import Pipeline.Proofs.Value.Rendering
import Pipeline.Proofs.CommandLine
import Pipeline.Proofs.Execution.Pieces
import Pipeline.Proofs.Expr.Conservation
import Pipeline.Proofs.Registry.Shelves
import Pipeline.Proofs.Registry.Calling
import Pipeline.Proofs.Registry.Spellings
import Pipeline.Proofs.CommandLine.Trees
import Pipeline.Proofs.Session.Accounts
