import Scriptlet.CommandLine
import Scriptlet.Fibonacci
import Scriptlet.Lookahead
import Scriptlet.Main
import Scriptlet.Proofs.Token.Spelling
import Scriptlet.Proofs.Token.Stream
import Scriptlet.Proofs.Token.RoundTrip
import Scriptlet.Proofs.Token.Comment
import Scriptlet.Proofs.Expr.Grammar
import Scriptlet.Proofs.Number.Numeral
import Scriptlet.Proofs.Arithmetic
import Scriptlet.Proofs.Evaluation.Depth
import Scriptlet.Proofs.Evaluation.Equivalence
import Scriptlet.Proofs.Expr.Regular
import Scriptlet.Proofs.Folding.Soundness
import Scriptlet.Proofs.Folding.Rejection
import Scriptlet.Proofs.Folding.Idempotence
import Scriptlet.Proofs.Source.Term
import Scriptlet.Proofs.Source.Object
import Scriptlet.Proofs.Source.Program
import Scriptlet.Proofs.Expr.Statements
import Scriptlet.Proofs.Source.RoundTrip
import Scriptlet.Proofs.Source.Path
import Scriptlet.Proofs.Source.Property
import Scriptlet.Proofs.Expr.Production
import Scriptlet.Proofs.Expr.Derivation
import Scriptlet.Proofs.Expr.Fuel
import Scriptlet.Proofs.Expr.Seam
import Scriptlet.Proofs.Expr.Separation
import Scriptlet.Proofs.Evaluation.History
import Scriptlet.Proofs.Evaluation.Operations
import Scriptlet.Proofs.Evaluation.Refusal
import Scriptlet.Proofs.Evaluation.Course
import Scriptlet.Proofs.Store
import Scriptlet.Proofs.Evaluation.Scoping
import Scriptlet.Proofs.Evaluation.Stability
import Scriptlet.Proofs.Evaluation.Shadowing
import Scriptlet.Proofs.Evaluation.Returning
import Scriptlet.Proofs.Evaluation.Inclusion
import Scriptlet.Proofs.Expr.Contents
import Scriptlet.Proofs.Expr.Termination
import Scriptlet.Proofs.Expr.Ending
import Scriptlet.Proofs.Source.Separation
import Scriptlet.Proofs.Expr.Climbing
import Scriptlet.Proofs.Value.Renumber
import Scriptlet.Proofs.Value.Address
import Scriptlet.Proofs.Evaluation.Link
import Scriptlet.Proofs.Evaluation.Lockstep
import Scriptlet.Proofs.Evaluation.Pairing
import Scriptlet.Proofs.Evaluation.Simulation
import Scriptlet.Proofs.Evaluation.Indifference
import Scriptlet.Proofs.Evaluation.Placement
import Scriptlet.Proofs.Evaluation.Branching
import Scriptlet.Proofs.Evaluation.Parameters
import Scriptlet.Proofs.Evaluation.Insulation
import Scriptlet.Proofs.Evaluation.Writing
import Scriptlet.Proofs.Expr.Positions
import Scriptlet.Proofs.Token.Report
import Scriptlet.Proofs.Session.Lines
import Scriptlet.Proofs.Session.Independence
import Scriptlet.Proofs.Fibonacci
