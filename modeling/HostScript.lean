import HostScript.Session.Shell
import HostScript.Session.Worker
import HostScript.Host.Behavior
import HostScript.Value.Registry
import HostScript.Main
import HostScript.Proofs.Run.Ensures
import HostScript.Proofs.Run.Places
import HostScript.Proofs.Run.Confined
import HostScript.Proofs.Run.Natives
import HostScript.Proofs.Run.Evaluation
import HostScript.Proofs.Run.Frame
import HostScript.Proofs.Syntax.ScanSpans
import HostScript.Proofs.Syntax.Names
import HostScript.Proofs.Syntax.ParseSpans
import HostScript.Proofs.Syntax.RoundTrip
import HostScript.Proofs.Session.Blame
import HostScript.Proofs.Run.Steps
import HostScript.Proofs.Session.Reports
import HostScript.Proofs.Value.Nesting
import HostScript.Proofs.Session.Ending
import HostScript.Proofs.Session.DeepValue
import HostScript.Proofs.Run.Returning
import HostScript.Proofs.Session.Interleaving
import HostScript.Proofs.Syntax.Lexemes
import HostScript.Proofs.Syntax.Layout
import HostScript.Proofs.Number.Packing
import HostScript.Proofs.Number.Rounding
import HostScript.Proofs.Number.Decimals
import HostScript.Proofs.Number.Digits
import HostScript.Proofs.Number.Shortest
import HostScript.Proofs.Json.Numerals
import HostScript.Proofs.Json.Strings
import HostScript.Proofs.Json.Documents
import HostScript.Proofs.Value.Depictions
import HostScript.Proofs.Run.Serialization
import HostScript.Proofs.Depth.Agreement
import HostScript.Proofs.Depth.Parsing
import HostScript.Proofs.Depth.Documents
import HostScript.Proofs.Depth.Running
import HostScript.Proofs.Depth.Sessions
import HostScript.Proofs.Likeness.Trees
import HostScript.Proofs.Likeness.Values
import HostScript.Proofs.Likeness.Heaps
import HostScript.Proofs.Likeness.Lockstep
import HostScript.Proofs.Likeness.Natives
import HostScript.Proofs.Likeness.Evaluation
import HostScript.Proofs.Likeness.Renaming
import HostScript.Proofs.Likeness.Sessions
import HostScript.Proofs.Likeness.Parsing
import HostScript.Proofs.Syntax.Joining
import HostScript.Proofs.Likeness.Splitting
import HostScript.Proofs.Grammar.Derivations
import HostScript.Proofs.Grammar.Eager
import HostScript.Proofs.Grammar.Crossing
import HostScript.Proofs.Grammar.Accepted
import HostScript.Proofs.Grammar.Parsed
import HostScript.Proofs.Grammar.Sentences
import HostScript.Proofs.Json.Wire
import HostScript.Proofs.Number.Integers
import HostScript.Proofs.Host.Serving
import HostScript.Proofs.Host.Outcomes
import HostScript.Proofs.Http.Outcomes
import HostScript.Proofs.Run.Accounts
import HostScript.Proofs.Host.Invocations
import HostScript.Proofs.Session.Tracing
import HostScript.Proofs.Bootstrap.Counting
import HostScript.Proofs.Bootstrap.ForEach
import HostScript.Proofs.Bootstrap.Start
import HostScript.Proofs.Bootstrap.Library
import HostScript.Proofs.Host.Carrying
import HostScript.Proofs.Config.Precedence
import HostScript.Proofs.Session.Interaction
import HostScript.Proofs.Session.Pointing
import HostScript.Proofs.Text.Wrapping
import HostScript.Proofs.Number.Truncation
import HostScript.Proofs.Text.Windows
import HostScript.Proofs.Json.Remainders
import HostScript.Proofs.Host.Answers
import HostScript.Proofs.Http.Retrying
import HostScript.Proofs.Text.Fitting
import HostScript.Proofs.Syntax.Lines
import HostScript.Proofs.Number.Reading
import HostScript.Proofs.Syntax.Writing
import HostScript.Proofs.Syntax.Pairing
import HostScript.Proofs.Syntax.LineBreaks
import HostScript.Proofs.Value.Unfolding
import HostScript.Proofs.Run.SelfReference
import HostScript.Proofs.Library.Arrays
import HostScript.Proofs.Syntax.Verdicts
import HostScript.Proofs.Syntax.Faults
import HostScript.Proofs.Run.Indexing
import HostScript.Proofs.Library.Footprints
import HostScript.Proofs.Run.Stages
import HostScript.Proofs.Run.Invariants
import HostScript.Proofs.Session.Invariants
import HostScript.Proofs.Value.KeyOrder
import HostScript.Proofs.Session.KeyOrder
import HostScript.Proofs.Run.Rooted
import HostScript.Proofs.Run.Bindings
import HostScript.Proofs.Session.Bindings
import HostScript.Proofs.Text.Lines
import HostScript.Proofs.Library.Merging
import HostScript.Proofs.Number.Naturals
import HostScript.Proofs.Host.Buffers
import HostScript.Proofs.Run.Endings
import HostScript.Proofs.Session.Environments
import HostScript.Proofs.Run.Scoping
