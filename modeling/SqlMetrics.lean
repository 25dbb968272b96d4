import SqlMetrics.Main
import SqlMetrics.Proofs.Lossless
import SqlMetrics.Proofs.Plain.Counts
import SqlMetrics.Proofs.SpellingTokens
import SqlMetrics.Proofs.Acceptance
import SqlMetrics.Proofs.Height
import SqlMetrics.Proofs.Balanced
import SqlMetrics.Proofs.DerivedTable
import SqlMetrics.Proofs.Opaque
import SqlMetrics.Proofs.Batches
import SqlMetrics.Proofs.ReportTables
import SqlMetrics.Proofs.Runs
import SqlMetrics.Proofs.ResultTables
import SqlMetrics.Proofs.ClauseTables
import SqlMetrics.Proofs.OutermostCalls
import SqlMetrics.Proofs.JoinWords
import SqlMetrics.Proofs.ConditionOperators
import SqlMetrics.Proofs.StatementWords
import SqlMetrics.Proofs.ClauseColumns
import SqlMetrics.Proofs.LineBreaks
import SqlMetrics.Proofs.Histograms
import SqlMetrics.Proofs.Csv.QueryColumn
import SqlMetrics.Proofs.MatchedBrackets
import SqlMetrics.Proofs.DefaultNames
import SqlMetrics.Proofs.Scores
import SqlMetrics.Proofs.QueryTables
import SqlMetrics.Proofs.WeightFiles
import SqlMetrics.Proofs.Merging
import SqlMetrics.Proofs.FeatureTexts
