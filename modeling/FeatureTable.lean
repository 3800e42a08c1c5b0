import FeatureTable.Config.Error
import FeatureTable.Config.Field
import FeatureTable.Config.UnknownField
import FeatureTable.Csv.Record
import FeatureTable.Csv.Table
import FeatureTable.Dataset.Create
import FeatureTable.Dataset.Layout
import FeatureTable.Decimal.Binary
import FeatureTable.Decimal.Plain
import FeatureTable.Decimal.Read
import FeatureTable.Decimal.Shortest
import FeatureTable.Decimal.Significant
import FeatureTable.Expression.Basic
import FeatureTable.Expression.Evaluate
import FeatureTable.Expression.Json
import FeatureTable.Expression.Kernel
import FeatureTable.Expression.OfYaml
import FeatureTable.Failure
import FeatureTable.Feature.Basic
import FeatureTable.Feature.Generate
import FeatureTable.Feature.OfYaml
import FeatureTable.FileSystem
import FeatureTable.Json
import FeatureTable.Main
import FeatureTable.Operator
import FeatureTable.Path
import FeatureTable.Proofs.Config.Field
import FeatureTable.Proofs.Config.Suggestion
import FeatureTable.Proofs.Config.UnknownField
import FeatureTable.Proofs.Csv.Reading
import FeatureTable.Proofs.Csv.Records
import FeatureTable.Proofs.Csv.RoundTrip
import FeatureTable.Proofs.Dataset
import FeatureTable.Proofs.Dataset.FirstFault
import FeatureTable.Proofs.Dataset.Law
import FeatureTable.Proofs.Dataset.Row
import FeatureTable.Proofs.Decimal.Binary64
import FeatureTable.Proofs.Decimal.Nearest
import FeatureTable.Proofs.Decimal.ReadBack
import FeatureTable.Proofs.Decimal.Round
import FeatureTable.Proofs.Decimal.Shortest
import FeatureTable.Proofs.Decimal.Whole
import FeatureTable.Proofs.Expression.Exchange
import FeatureTable.Proofs.Expression.FirstFault
import FeatureTable.Proofs.Expression.Frame
import FeatureTable.Proofs.Expression.FunctionsFit
import FeatureTable.Proofs.Expression.Grammar
import FeatureTable.Proofs.Expression.Kernel
import FeatureTable.Proofs.Expression.Live
import FeatureTable.Proofs.Expression.Outcome
import FeatureTable.Proofs.Expression.Reading
import FeatureTable.Proofs.Expression.Rendering
import FeatureTable.Proofs.Expression.Rowwise
import FeatureTable.Proofs.Expression.Stored
import FeatureTable.Proofs.Expression.Substitute
import FeatureTable.Proofs.Feature.Edit
import FeatureTable.Proofs.Feature.Effect
import FeatureTable.Proofs.Feature.Failures
import FeatureTable.Proofs.Feature.Grammar
import FeatureTable.Proofs.Feature.Inline
import FeatureTable.Proofs.Feature.Reading
import FeatureTable.Proofs.Feature.Reorder
import FeatureTable.Proofs.Feature.Rerun
import FeatureTable.Proofs.Feature.RowLocality
import FeatureTable.Proofs.Feature.Run
import FeatureTable.Proofs.Feature.Unread
import FeatureTable.Proofs.FileSystem
import FeatureTable.Proofs.FileSystem.Growth
import FeatureTable.Proofs.FirstAt
import FeatureTable.Proofs.Run.Agreement
import FeatureTable.Proofs.Run.AllOrNothing
import FeatureTable.Proofs.Run.Artifact
import FeatureTable.Proofs.Run.Artifacts
import FeatureTable.Proofs.Run.Directories
import FeatureTable.Proofs.Run.Loaded
import FeatureTable.Proofs.Run.Names
import FeatureTable.Proofs.Run.Overrides
import FeatureTable.Proofs.Run.Saved
import FeatureTable.Proofs.Run.Source
import FeatureTable.Proofs.Run.Steps
import FeatureTable.Proofs.Table.Append
import FeatureTable.Proofs.Table.Build
import FeatureTable.Proofs.Table.Calls
import FeatureTable.Proofs.Table.Columns
import FeatureTable.Proofs.Table.Insert
import FeatureTable.Proofs.Table.OfColumns
import FeatureTable.Proofs.Table.OfRows
import FeatureTable.Proofs.Table.Order
import FeatureTable.Proofs.Table.Parts
import FeatureTable.Proofs.Table.Projection
import FeatureTable.Proofs.Table.Repeat
import FeatureTable.Proofs.Table.Rows
import FeatureTable.Proofs.Table.Select
import FeatureTable.Proofs.Table.Transpose
import FeatureTable.Proofs.Table.Update
import FeatureTable.Proofs.Text.Order
import FeatureTable.Proofs.Text.Utf8
import FeatureTable.Proofs.Traced
import FeatureTable.Run.Arguments
import FeatureTable.Run.Command
import FeatureTable.Run.Directory
import FeatureTable.Run.DotEnv
import FeatureTable.Run.Error
import FeatureTable.Run.Host
import FeatureTable.Run.Overrides
import FeatureTable.Run.Settings
import FeatureTable.Run.Stages
import FeatureTable.Table.Basic
import FeatureTable.Table.Json
import FeatureTable.Table.Update
import FeatureTable.Text.Alphanumeric
import FeatureTable.Text.Blank
import FeatureTable.Text.ByteOrderMark
import FeatureTable.Text.EditDistance
import FeatureTable.Text.Quoted
import FeatureTable.Traced
import FeatureTable.Yaml.Cursor
import FeatureTable.Yaml.Document
import FeatureTable.Yaml.Error
import FeatureTable.Yaml.Node.Basic
import FeatureTable.Yaml.Node.Link
import FeatureTable.Yaml.Node.OfTokens
import FeatureTable.Yaml.Scalar
import FeatureTable.Yaml.Tag
import FeatureTable.Yaml.Token.Basic
import FeatureTable.Yaml.Token.Block
import FeatureTable.Yaml.Token.Directive
import FeatureTable.Yaml.Token.Gap
import FeatureTable.Yaml.Token.Name
import FeatureTable.Yaml.Token.Plain
import FeatureTable.Yaml.Token.Quoted
import FeatureTable.Yaml.Token.Scan
import FeatureTable.Yaml.Value.Basic
import FeatureTable.Yaml.Value.Same
