import AccessPolicy.Session
import AccessPolicy.Main
import AccessPolicy.Proofs.Grammar
import AccessPolicy.Proofs.Check
import AccessPolicy.Proofs.Readings
import AccessPolicy.Proofs.Acceptance
import AccessPolicy.Proofs.Symbols
import AccessPolicy.Proofs.Closers
import AccessPolicy.Proofs.Preference
import AccessPolicy.Proofs.Nesting
import AccessPolicy.Proofs.Greedy
import AccessPolicy.Proofs.LeftNested
import AccessPolicy.Proofs.Rendering
import AccessPolicy.Proofs.Evaluation
import AccessPolicy.Proofs.Replacement
import AccessPolicy.Proofs.Congruence
import AccessPolicy.Proofs.RoundTrip
import AccessPolicy.Proofs.Grouping
import AccessPolicy.Proofs.Checkers
import AccessPolicy.Proofs.Depth
import AccessPolicy.Proofs.Acyclic
import AccessPolicy.Proofs.Knowledge
import AccessPolicy.Proofs.Strict
import AccessPolicy.Proofs.Inlining
import AccessPolicy.Proofs.Independence
import AccessPolicy.Proofs.WrittenOut
import AccessPolicy.Proofs.Failures
import AccessPolicy.Proofs.Stored
import AccessPolicy.Proofs.Words
import AccessPolicy.Proofs.Updates
import AccessPolicy.Proofs.History
import AccessPolicy.Proofs.Layers
import AccessPolicy.Proofs.Places
import AccessPolicy.Proofs.Pairs
import AccessPolicy.Proofs.Calls
import AccessPolicy.Proofs.Keys
import AccessPolicy.Proofs.Standard
import AccessPolicy.Proofs.Commands
import AccessPolicy.Proofs.Options
import AccessPolicy.Proofs.Lookahead
import AccessPolicy.Proofs.Progress
import AccessPolicy.Proofs.Completion
import AccessPolicy.Proofs.ErrorPlace
import AccessPolicy.Proofs.BulkUpdates
import AccessPolicy.Proofs.Dialogue
import AccessPolicy.Proofs.PostOrder
import AccessPolicy.Proofs.Advance
import AccessPolicy.Proofs.Coordinates
import AccessPolicy.Proofs.Shapes
import AccessPolicy.Proofs.Sections
