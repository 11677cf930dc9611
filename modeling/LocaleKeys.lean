import LocaleKeys.Main
import LocaleKeys.Store.Lemmas
import LocaleKeys.Proofs.KeyTree.Addressing
import LocaleKeys.Proofs.Json.Strings
import LocaleKeys.Proofs.Json.RoundTrip
import LocaleKeys.Proofs.Json.Distinct
import LocaleKeys.Proofs.Text.Utf8
import LocaleKeys.Proofs.KeyTree.Printing
import LocaleKeys.Proofs.KeyTree.Reporting
import LocaleKeys.Proofs.KeyTree.Below
import LocaleKeys.Proofs.Artifact.Blocks
import LocaleKeys.Proofs.Document.Loading
import LocaleKeys.Proofs.Run.Generation
import LocaleKeys.Proofs.Path.Joining
import LocaleKeys.Proofs.Path.Normal
import LocaleKeys.Proofs.Path.Nameable
import LocaleKeys.Proofs.Store.Walk
import LocaleKeys.Proofs.Store.Children
import LocaleKeys.Proofs.Store.Fresh
import LocaleKeys.Proofs.Store.Agreement
import LocaleKeys.Proofs.Store.Replacement
import LocaleKeys.Proofs.Store.Refusals
import LocaleKeys.Proofs.Store.Atomicity
import LocaleKeys.Proofs.Store.Formatting
import LocaleKeys.Proofs.Document.Selection
import LocaleKeys.Proofs.Document.Rejection
import LocaleKeys.Proofs.Artifact.Writing
import LocaleKeys.Proofs.Artifact.Emission
import LocaleKeys.Proofs.Artifact.Sequence
import LocaleKeys.Proofs.Artifact.Skipping
import LocaleKeys.Proofs.Artifact.Verification
import LocaleKeys.Proofs.Artifact.Encoding
import LocaleKeys.Proofs.Run.Stages
import LocaleKeys.Proofs.Artifact.Comparison
import LocaleKeys.Proofs.Run.Formatting
import LocaleKeys.Proofs.Run.Emission
import LocaleKeys.Proofs.Run.Drift
import LocaleKeys.Proofs.Run.DryRun
import LocaleKeys.Proofs.Run.Idempotence
import LocaleKeys.Proofs.Run.Failure
import LocaleKeys.Proofs.Run.Atomicity
import LocaleKeys.Proofs.Artifact.Staging
import LocaleKeys.Proofs.Artifact.Classification
import LocaleKeys.Proofs.Run.Comparing
import LocaleKeys.Proofs.Run.Placement
import LocaleKeys.Proofs.Run.Outcome
import LocaleKeys.Proofs.Document.Defects
import LocaleKeys.Proofs.Run.Defects
import LocaleKeys.Proofs.Run.Classification
import LocaleKeys.Proofs.Config.Layers
import LocaleKeys.Proofs.Config.Fields
import LocaleKeys.Proofs.Config.Strictness
import LocaleKeys.Proofs.Config.Entries
import LocaleKeys.Proofs.Run.Unwrapping
import LocaleKeys.Proofs.Log.Calls
import LocaleKeys.Proofs.Log.Delivery
import LocaleKeys.Proofs.Log.Upkeep
import LocaleKeys.Proofs.Locale.Filling
import LocaleKeys.Proofs.Locale.Lookup
import LocaleKeys.Proofs.Locale.Defects
import LocaleKeys.Proofs.Locale.Calls
import LocaleKeys.Proofs.Run.Interruption
import LocaleKeys.Proofs.Run.Journal
import LocaleKeys.Proofs.Run.Isolation
import LocaleKeys.Proofs.Run.Tolerance
import LocaleKeys.Proofs.CommandLine.Telling
import LocaleKeys.Proofs.CommandLine.Contract
import LocaleKeys.Proofs.Config.Rejection
import LocaleKeys.Proofs.Text.Trimming
import LocaleKeys.Proofs.Path.Canonical
import LocaleKeys.Proofs.Path.Resolution
import LocaleKeys.Proofs.Json.Stored
import LocaleKeys.Proofs.Config.FixedPoint
