import Reshape.Text.Basic
import Reshape.Text.Quoted
import Reshape.Entries
import Reshape.Number.Basic
import Reshape.Json.Printer
import Reshape.Json.Reader
import Reshape.Calendar.Reader
import Reshape.Value.Json
import Reshape.Value.Describe
import Reshape.Context.Describe
import Reshape.Reference.Basic
import Reshape.Projection.Document
import Reshape.Engine
import Reshape.Run.Basic
import Reshape.Evaluate.Level
import Reshape.Run.Eval
import Reshape.Run.Exec
import Reshape.Shape
import Reshape.Projector
import Reshape.Main
import Reshape.Proofs.Evaluate.Limit
import Reshape.Proofs.Evaluate.Depth
import Reshape.Proofs.Evaluate.Substitution
import Reshape.Proofs.Evaluate.Selection
import Reshape.Proofs.Projection.Beside
import Reshape.Proofs.Run.Satisfies
import Reshape.Proofs.Evaluate.Output
import Reshape.Proofs.Evaluate.Again
import Reshape.Proofs.Evaluate.Contexts
import Reshape.Proofs.Evaluate.Compiled
import Reshape.Proofs.Evaluate.Transparent
import Reshape.Proofs.Evaluate.CompletionOrder
import Reshape.Proofs.Evaluate.Brought
import Reshape.Proofs.Run.Sequential
import Reshape.Proofs.Evaluate.Materialized
import Reshape.Proofs.Evaluate.Items
import Reshape.Proofs.Evaluate.Alternatives
import Reshape.Proofs.Evaluate.Returned
import Reshape.Proofs.Projection.Shallower
import Reshape.Proofs.Evaluate.Inlined
import Reshape.Proofs.Text.Padding
import Reshape.Proofs.Text.Pieces
import Reshape.Proofs.Reference.Tokens
import Reshape.Proofs.Reference.Written
import Reshape.Proofs.Reference.Quotes
import Reshape.Proofs.Evaluate.Pipelines
import Reshape.Proofs.Evaluate.Interpolated
import Reshape.Proofs.Context.Merged
import Reshape.Proofs.Evaluate.Assembled
import Reshape.Proofs.Evaluate.Positional
import Reshape.Proofs.Value.Dates
import Reshape.Proofs.Projection.Calls
import Reshape.Proofs.Projection.Loaded
import Reshape.Proofs.Projection.TagText
import Reshape.Proofs.Scope.Viewed
import Reshape.Proofs.Value.Views
