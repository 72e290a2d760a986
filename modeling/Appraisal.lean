import Appraisal.Assumption.Basic
import Appraisal.Assumption.Defaults
import Appraisal.Assumption.Registry
import Appraisal.Audit.Log
import Appraisal.Calculated
import Appraisal.Command.Arguments
import Appraisal.Command.Basic
import Appraisal.Command.Display
import Appraisal.Command.ExitCode
import Appraisal.Command.FileTree
import Appraisal.Command.Host
import Appraisal.Command.Path
import Appraisal.Command.Run
import Appraisal.Context
import Appraisal.CustomFormula.Basic
import Appraisal.CustomFormula.Document
import Appraisal.CustomFormula.Location
import Appraisal.CustomFormula.Store
import Appraisal.Decimal.Dyadic
import Appraisal.Decimal.Layout
import Appraisal.Decimal.Reader
import Appraisal.Decimal.Shortest
import Appraisal.Digest.Sha256
import Appraisal.Engine.Basic
import Appraisal.Engine.Checkpoint
import Appraisal.Engine.Error
import Appraisal.Engine.Evaluation
import Appraisal.Engine.Opportunity
import Appraisal.Engine.Simulation
import Appraisal.Expression.Basic
import Appraisal.Expression.Document
import Appraisal.Expression.Evaluation
import Appraisal.Expression.InputField
import Appraisal.Expression.Parser
import Appraisal.Expression.SyntaxError
import Appraisal.Expression.Token
import Appraisal.Expression.Validation
import Appraisal.Fingerprint
import Appraisal.Formula.Basic
import Appraisal.Formula.Standard
import Appraisal.Instant
import Appraisal.Json.Basic
import Appraisal.Json.Decode
import Appraisal.Json.Parser
import Appraisal.Json.Printer
import Appraisal.Json.Token
import Appraisal.Main
import Appraisal.Measure
import Appraisal.Number.Grouped
import Appraisal.Number.Rounding
import Appraisal.Random.ChaCha
import Appraisal.Random.Generator
import Appraisal.Random.Uuid
import Appraisal.Report.Assembly
import Appraisal.Report.Basic
import Appraisal.Report.Document
import Appraisal.Report.Ranking
import Appraisal.Report.Scoring
import Appraisal.Report.Uncertainty
import Appraisal.Research.Basic
import Appraisal.Research.Document
import Appraisal.Research.Problem
import Appraisal.Research.Validation
import Appraisal.Settings.Basic
import Appraisal.Settings.File
import Appraisal.Simulation.Sampling
import Appraisal.Simulation.Summary
import Appraisal.Simulation.Variable
import Appraisal.Text.Blank
import Appraisal.Text.Hex
import Appraisal.Text.Invisible
import Appraisal.Text.Parsed
import Appraisal.Text.Quoted
import Appraisal.Text.Ranges
import Appraisal.Text.Split
import Appraisal.Text.Uppercase
import Appraisal.Text.Width
import Appraisal.Toml.Document
import Appraisal.Toml.Line
import Appraisal.Toml.Scalar
import Appraisal.Workbench.Assumptions
import Appraisal.Workbench.Basic
import Appraisal.Workbench.CustomFormulas
import Appraisal.Workbench.Document
import Appraisal.Workbench.Error
import Appraisal.Workbench.Reports
import Appraisal.Workbench.Request
import Appraisal.Workbench.Response
import Appraisal.Proofs.Assumption.FormulaContext
import Appraisal.Proofs.Assumption.Registry
import Appraisal.Proofs.Audit.Entries
import Appraisal.Proofs.Audit.Order
import Appraisal.Proofs.Context
import Appraisal.Proofs.CustomFormula.ReadingBack
import Appraisal.Proofs.CustomFormula.Statements
import Appraisal.Proofs.CustomFormula.Versions
import Appraisal.Proofs.Decimal.Layout
import Appraisal.Proofs.Decimal.Shortest
import Appraisal.Proofs.Engine.Assumptions
import Appraisal.Proofs.Engine.Benefits
import Appraisal.Proofs.Engine.BulkEdits
import Appraisal.Proofs.Engine.Checkpoint
import Appraisal.Proofs.Engine.Fingerprint
import Appraisal.Proofs.Engine.FurtherVariables
import Appraisal.Proofs.Engine.Import
import Appraisal.Proofs.Engine.Logging
import Appraisal.Proofs.Engine.Observation
import Appraisal.Proofs.Engine.Outcomes
import Appraisal.Proofs.Engine.Recomputation
import Appraisal.Proofs.Engine.Recording
import Appraisal.Proofs.Engine.Replay
import Appraisal.Proofs.Engine.RoundTrip
import Appraisal.Proofs.Engine.Run
import Appraisal.Proofs.Engine.Scores
import Appraisal.Proofs.Engine.Success
import Appraisal.Proofs.Engine.Sums
import Appraisal.Proofs.Engine.Values
import Appraisal.Proofs.Except
import Appraisal.Proofs.Expression.Bindings
import Appraisal.Proofs.Expression.DepthLimit
import Appraisal.Proofs.Expression.Evaluation
import Appraisal.Proofs.Expression.Grammar
import Appraisal.Proofs.Expression.Parsing
import Appraisal.Proofs.Expression.Scanning
import Appraisal.Proofs.Expression.Shape
import Appraisal.Proofs.Expression.Undefined
import Appraisal.Proofs.Expression.Validation
import Appraisal.Proofs.Fingerprint
import Appraisal.Proofs.Float
import Appraisal.Proofs.Float.Exact
import Appraisal.Proofs.Float.Root
import Appraisal.Proofs.Float.Rounding
import Appraisal.Proofs.Formula.Registration
import Appraisal.Proofs.Formula.Registry
import Appraisal.Proofs.Instant
import Appraisal.Proofs.Json.Printer
import Appraisal.Proofs.Number.Bounds
import Appraisal.Proofs.Number.Order
import Appraisal.Proofs.Number.Whole
import Appraisal.Proofs.Report.Assembly
import Appraisal.Proofs.Report.Flaws
import Appraisal.Proofs.Report.Frame
import Appraisal.Proofs.Report.Maturity
import Appraisal.Proofs.Report.Opportunities
import Appraisal.Proofs.Report.Overrides
import Appraisal.Proofs.Report.PointEstimates
import Appraisal.Proofs.Report.Ranking
import Appraisal.Proofs.Report.Scores
import Appraisal.Proofs.Report.Spreads
import Appraisal.Proofs.Report.Trail
import Appraisal.Proofs.Research.Completeness
import Appraisal.Proofs.Research.Rules
import Appraisal.Proofs.Research.Validation
import Appraisal.Proofs.Simulation.Draws
import Appraisal.Proofs.Workbench.Analysis
import Appraisal.Proofs.Workbench.AuditTrail
import Appraisal.Proofs.Workbench.BulkEdits
import Appraisal.Proofs.Workbench.Flaws
import Appraisal.Proofs.Workbench.Refusals
import Appraisal.Proofs.Workbench.Reports
import Appraisal.Proofs.Workbench.Scores
import Appraisal.Proofs.Workbench.SharedNumbers
import Appraisal.Proofs.Workbench.StoredFormulas
import Appraisal.Proofs.Engine.Simulation
import Appraisal.Proofs.Engine.PointVariables
import Appraisal.Proofs.Float.Undefined
import Appraisal.Proofs.Formula.Strictness
import Appraisal.Proofs.Engine.MissingInputs
import Appraisal.Proofs.Command.ExitCodes
import Appraisal.Proofs.Simulation.Gamma
import Appraisal.Proofs.Simulation.Range
import Appraisal.Proofs.Expression.Spacing
import Appraisal.Proofs.Expression.Progress
import Appraisal.Proofs.Text.Width
import Appraisal.Proofs.Number.Grouped
