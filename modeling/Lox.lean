import Lox.Text.Ranges
import Lox.Text.Alphabetic
import Lox.Text.Numeric
import Lox.Text.Extending
import Lox.Text.Unprintable
import Lox.Number.Magnitude
import Lox.Number.Shortest
import Lox.Number.Text
import Lox.Source.Position
import Lox.Token.Basic
import Lox.Token.Segment
import Lox.Token.Scan
import Lox.Text.Quoted
import Lox.Syntax.Basic
import Lox.Syntax.Outline
import Lox.Grammar.Error
import Lox.Grammar.State
import Lox.Grammar.Expression
import Lox.Grammar.Statement
import Lox.Grammar.Program
import Lox.Bindings
import Lox.Scope.Depths
import Lox.Scope.Error
import Lox.Scope.State
import Lox.Scope.Resolve
import Lox.Value.Basic
import Lox.Value.Inspect
import Lox.Evaluation.Error
import Lox.Store.Basic
import Lox.Store.Access
import Lox.Evaluation.Operators
import Lox.Evaluation.Machine
import Lox.Evaluation.Basic
import Lox.Session.Diagnostic
import Lox.Session.Basic
import Lox.CommandLine.Basic
import Lox.CommandLine.Clock
import Lox.Main
import Lox.Proofs.Outcome
import Lox.Proofs.Syntax.Uses
import Lox.Proofs.Syntax.Similar
import Lox.Proofs.Syntax.Numbering
import Lox.Proofs.Grammar.Primitives
import Lox.Proofs.Grammar.Programs
import Lox.Proofs.Grammar.Numbering
import Lox.Proofs.Scope.Rules
import Lox.Proofs.Scope.Extension
import Lox.Proofs.Scope.Resolution
import Lox.Proofs.Scope.Occurrences
import Lox.Proofs.Scope.Similar
import Lox.Proofs.Scope.Renaming
import Lox.Proofs.Value.Inheritance
import Lox.Proofs.Store.Fits
import Lox.Proofs.Store.Similar
import Lox.Proofs.Evaluation.Activity
import Lox.Proofs.Evaluation.Machine
import Lox.Proofs.Evaluation.Agreement
import Lox.Proofs.Evaluation.Comparison
import Lox.Proofs.Evaluation.Parallel
import Lox.Proofs.Evaluation.Simulation
import Lox.Proofs.Session.Runs
import Lox.Proofs.Session.Agreement
import Lox.Proofs.Session.Renaming
import Lox.Proofs.Session.Similar
import Lox.Proofs.Session.Faults
import Lox.Proofs.Scope.Violations
import Lox.Proofs.Grammar.Soundness
import Lox.Proofs.Grammar.Completeness
import Lox.Proofs.Grammar.Acceptance
import Lox.Proofs.Grammar.Derivation
import Lox.Proofs.Grammar.Language
import Lox.Proofs.Grammar.Relabeling
import Lox.Proofs.Evaluation.Rerun
import Lox.Proofs.Scope.Joining
import Lox.Proofs.Evaluation.Relabeling
import Lox.Proofs.Session.Resting
import Lox.Proofs.Session.Joining
import Lox.Proofs.Evaluation.Parts
import Lox.Proofs.Evaluation.Control
import Lox.Proofs.Evaluation.CallLimit
import Lox.Proofs.Syntax.Routines
import Lox.Proofs.Store.Origins
import Lox.Proofs.Evaluation.Stages
import Lox.Proofs.Evaluation.Origins
import Lox.Proofs.Evaluation.Termination
import Lox.Proofs.Session.Termination
import Lox.Proofs.Evaluation.Persistence
import Lox.Proofs.Evaluation.Places
import Lox.Proofs.Evaluation.Dispatch
import Lox.Proofs.Session.Moments
import Lox.Proofs.Session.Dispatch
import Lox.Proofs.Token.Lexing
import Lox.Proofs.Session.Respanning
import Lox.Proofs.Session.Layout
import Lox.Proofs.Scope.Steps
import Lox.Proofs.Scope.Balance
import Lox.Proofs.Scope.Anchors
import Lox.Proofs.Session.Anchors
import Lox.Proofs.Store.Links
import Lox.Proofs.Evaluation.Links
import Lox.Proofs.Session.Links
import Lox.Proofs.Grammar.Progress
import Lox.Proofs.Grammar.Totality
import Lox.Proofs.Grammar.Counting
import Lox.Proofs.Session.Numbers
import Lox.Proofs.Grammar.Nesting
import Lox.Proofs.Grammar.Unparsing
import Lox.Proofs.Scope.Padding
import Lox.Proofs.Scope.Wrapping
import Lox.Proofs.Store.Padding
import Lox.Proofs.Evaluation.Padding
import Lox.Proofs.Evaluation.PaddedRuns
import Lox.Proofs.Session.Wrapping
import Lox.Proofs.Evaluation.Raising
import Lox.Proofs.Store.Searching
import Lox.Proofs.Token.Places
import Lox.Proofs.Token.Scanning
import Lox.Proofs.Token.Respacing
import Lox.Proofs.Evaluation.Instances
import Lox.Proofs.Session.Construction
import Lox.Proofs.Grammar.FaultOrder
import Lox.Proofs.Number.Rounding
import Lox.Proofs.Number.Shortest
import Lox.Proofs.Number.Fidelity
