import PipelineRuns.Main
import PipelineRuns.Proofs.Text
import PipelineRuns.Proofs.Spans
import PipelineRuns.Proofs.Order
import PipelineRuns.Proofs.Cells
import PipelineRuns.Proofs.Columns
import PipelineRuns.Proofs.Escapes
import PipelineRuns.Proofs.Actions
import PipelineRuns.Proofs.Entries
import PipelineRuns.Proofs.Variables
import PipelineRuns.Proofs.Trees
import PipelineRuns.Proofs.Questions
import PipelineRuns.Proofs.Generation
import PipelineRuns.Proofs.Answers
import PipelineRuns.Proofs.Consent
import PipelineRuns.Proofs.Faults
import PipelineRuns.Proofs.Contexts
import PipelineRuns.Proofs.Namespaces
import PipelineRuns.Proofs.Descriptions
import PipelineRuns.Proofs.Manifests
import PipelineRuns.Proofs.Credentials
import PipelineRuns.Proofs.Secrets
import PipelineRuns.Proofs.Bundles
import PipelineRuns.Proofs.Selections
import PipelineRuns.Proofs.Sessions
import PipelineRuns.Proofs.Durations
import PipelineRuns.Proofs.Ages
import PipelineRuns.Proofs.Instants
import PipelineRuns.Proofs.Endings
import PipelineRuns.Proofs.Refusals
import PipelineRuns.Proofs.Documents
import PipelineRuns.Proofs.Placeholders
import PipelineRuns.Proofs.Tokens
import PipelineRuns.Proofs.Substitutions
import PipelineRuns.Proofs.Switches
import PipelineRuns.Proofs.QuotedScalars
import PipelineRuns.Proofs.PlainScalars
import PipelineRuns.Proofs.Scanning
import PipelineRuns.Proofs.RoundTrip
import PipelineRuns.Proofs.ResourceNames
import PipelineRuns.Proofs.StarterRun
import PipelineRuns.Proofs.LineFeeds
import PipelineRuns.Proofs.TokenVariable
import PipelineRuns.Proofs.Arrangements
import PipelineRuns.Proofs.Choices
import PipelineRuns.Proofs.Addresses
import PipelineRuns.Proofs.Repetitions
import PipelineRuns.Proofs.NormalNames
import PipelineRuns.Proofs.Doubles
import PipelineRuns.Proofs.NearestSeconds
import PipelineRuns.Proofs.Listings
import PipelineRuns.Proofs.CertificateData
import PipelineRuns.Proofs.FetchedNamespaces
import PipelineRuns.Proofs.ShownStates
import PipelineRuns.Proofs.NegativeSpans
import PipelineRuns.Proofs.FieldLines
import PipelineRuns.Proofs.EventNames
import PipelineRuns.Proofs.Channels
import PipelineRuns.Proofs.Formats
import PipelineRuns.Proofs.Setups
