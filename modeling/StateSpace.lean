import StateSpace.Analysis
import StateSpace.Asked
import StateSpace.Certificate.Check
import StateSpace.Certificate.Environment
import StateSpace.Certificate.Oracle
import StateSpace.Certificate.Progress
import StateSpace.Certificate.Property
import StateSpace.Certificate.Remaining
import StateSpace.Certificate.Session
import StateSpace.Certificate.Step
import StateSpace.Certificate.Table
import StateSpace.Certificate.Violation
import StateSpace.Configuration.Basic
import StateSpace.Configuration.Error
import StateSpace.Configuration.Files
import StateSpace.Configuration.Line
import StateSpace.Configuration.Load
import StateSpace.Configuration.Path
import StateSpace.Configuration.Seconds
import StateSpace.Configuration.Value
import StateSpace.Domain.Basic
import StateSpace.Domain.Cell
import StateSpace.Domain.Composite
import StateSpace.Domain.Error
import StateSpace.Domain.Transfer
import StateSpace.Duration
import StateSpace.Fault
import StateSpace.Graph.Basic
import StateSpace.Graph.Build
import StateSpace.Graph.Covering
import StateSpace.Invariant.Formula
import StateSpace.Invariant.Generation
import StateSpace.Invariant.Supplier
import StateSpace.Limit
import StateSpace.Number.Binary64
import StateSpace.Number.Integer
import StateSpace.Number.Literal
import StateSpace.Number.Power
import StateSpace.Number.Shortest
import StateSpace.Portfolio.Options
import StateSpace.Portfolio.Podium
import StateSpace.Portfolio.Race
import StateSpace.Portfolio.Reference
import StateSpace.Portfolio.Rehearsal
import StateSpace.Portfolio.Script
import StateSpace.Portfolio.Setup
import StateSpace.Portfolio.Supervision
import StateSpace.Reached
import StateSpace.Scope
import StateSpace.Status
import StateSpace.Text.Blank
import StateSpace.Text.Extending
import StateSpace.Text.Quoted
import StateSpace.Text.Ranges
import StateSpace.Text.Split
import StateSpace.Text.Unprintable
import StateSpace.Proofs.Graph.Basic
import StateSpace.Proofs.Graph.Covering
import StateSpace.Proofs.Certificate.Bookkeeping
import StateSpace.Proofs.Certificate.Evidence
import StateSpace.Proofs.Certificate.Examined
import StateSpace.Proofs.Certificate.Soundness
import StateSpace.Proofs.Certificate.Semantics
import StateSpace.Proofs.Certificate.Exactness
import StateSpace.Proofs.Portfolio.Race
import StateSpace.Proofs.Portfolio.Accounting
import StateSpace.Proofs.Portfolio.Outcome
import StateSpace.Proofs.Certificate.Passes
import StateSpace.Proofs.Certificate.Work
import StateSpace.Proofs.Certificate.Rejection
import StateSpace.Proofs.Graph.SameClaims
import StateSpace.Proofs.Certificate.Reordering
import StateSpace.Proofs.Invariant.Exchange
import StateSpace.Proofs.Portfolio.Patience
import StateSpace.Proofs.Portfolio.Notices
import StateSpace.Proofs.Certificate.Renaming
import StateSpace.Proofs.Certificate.Admission
import StateSpace.Proofs.Cancellation
import StateSpace.Proofs.Discovery
import StateSpace.Proofs.Configuration.Nesting
import StateSpace.Proofs.Portfolio.Seating
import StateSpace.Proofs.Portfolio.Isolation
import StateSpace.Proofs.Certificate.Interruption
import StateSpace.Proofs.Invariant.Pooling
import StateSpace.Proofs.Portfolio.Reference
import StateSpace.Proofs.Configuration.Seconds
import StateSpace.Proofs.Graph.Refusal
import StateSpace.Proofs.Domain.Nesting
import StateSpace.Proofs.Certificate.SuccessorSets
import StateSpace.Proofs.Portfolio.Precedence
import StateSpace.Proofs.Configuration.Grammar
import StateSpace.Proofs.Configuration.Comments
import StateSpace.Proofs.Certificate.Lookups
import StateSpace.Proofs.Certificate.Collections
import StateSpace.Proofs.Graph.CoveringTrail
