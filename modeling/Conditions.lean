import Conditions.Main
import Conditions.Proofs.Evaluation.DepthLimit
import Conditions.Proofs.Evaluation.Meaning
import Conditions.Proofs.Evaluation.Preorder
import Conditions.Proofs.Evaluation.Segments
import Conditions.Proofs.Evaluation.Trace
import Conditions.Proofs.Evaluation.Edits
import Conditions.Proofs.Results
import Conditions.Proofs.Resolution.Tables
import Conditions.Proofs.Resolution.Aliases
import Conditions.Proofs.Resolution.Strictness
import Conditions.Proofs.Resolution.Capitals
import Conditions.Proofs.Number.Rounding
import Conditions.Proofs.Number.Nearest
import Conditions.Proofs.Number.Values
import Conditions.Proofs.Number.Scaling
import Conditions.Proofs.Text.Trimming
import Conditions.Proofs.Number.Decimals
import Conditions.Proofs.Number.Radix
import Conditions.Proofs.Number.Numerals
import Conditions.Proofs.Number.Shortest
import Conditions.Proofs.Json.Numerals
import Conditions.Proofs.Json.Numbers
import Conditions.Proofs.Json.Texts
import Conditions.Proofs.Json.Reading
import Conditions.Proofs.Json.Grammar
import Conditions.Proofs.Json.Trees
import Conditions.Proofs.Json.Nesting
import Conditions.Proofs.Json.Contents
import Conditions.Proofs.Json.Scalars
import Conditions.Proofs.Condition.RoundTrip
import Conditions.Proofs.Evaluation.Negation
import Conditions.Proofs.Evaluation.Polarity
import Conditions.Proofs.Evaluation.Interchange
import Conditions.Proofs.Evaluation.Flattening
import Conditions.Proofs.Evaluation.Reads
import Conditions.Proofs.Evaluation.Ordering
import Conditions.Proofs.Text.Units
import Conditions.Proofs.Text.Blocks
import Conditions.Proofs.Comparison.Standing
import Conditions.Proofs.Comparison.Chains
import Conditions.Proofs.Condition.Acceptance
import Conditions.Proofs.Condition.Members
import Conditions.Proofs.Condition.Presentations
import Conditions.Proofs.Record.Members
import Conditions.Proofs.Evaluation.Equality
import Conditions.Proofs.Settings.Overrides
import Conditions.Proofs.Yaml.Shapes
import Conditions.Proofs.Settings.Defaults
import Conditions.Proofs.CommandLine.Variables
import Conditions.Proofs.CommandLine.Stages
import Conditions.Proofs.Settings.Texts
import Conditions.Proofs.Settings.Overlays
import Conditions.Proofs.Settings.DepthLimits
import Conditions.Proofs.Evaluation.WholeNumbers
import Conditions.Proofs.Yaml.Members
import Conditions.Proofs.Yaml.Scalars
import Conditions.Proofs.Evaluation.YamlScalars
import Conditions.Proofs.Json.Values
import Conditions.Proofs.Json.Derivations
import Conditions.Proofs.Record.Histories
