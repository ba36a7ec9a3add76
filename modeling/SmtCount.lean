import SmtCount.Aggregator.Interleaving
import SmtCount.Proofs.Aggregator.Counts
import SmtCount.Proofs.Aggregator.Deliveries
import SmtCount.Proofs.ModelText
import SmtCount.Query
import SmtCount.Report
import SmtCount.Simulation
import SmtCount.Solver.Basic
import SmtCount.Proofs.Rendering
import SmtCount.Proofs.QueryText
import SmtCount.Proofs.Aggregator.References
import SmtCount.Proofs.Aggregator.Events
import SmtCount.Proofs.Aggregator.Memoization
import SmtCount.Proofs.Aggregator.Histories
import SmtCount.Proofs.Aggregator.Isolation
import SmtCount.Proofs.Aggregator.ContextUse
import SmtCount.Proofs.Reuse
import SmtCount.Proofs.Symbols
import SmtCount.Proofs.CoreText
import SmtCount.Proofs.Aggregator.Strays
import SmtCount.Proofs.Solver.TimeLimit
import SmtCount.Proofs.JoinedLines
import SmtCount.Proofs.Aggregator.FinalCheck
import SmtCount.Proofs.Atoms
import SmtCount.Proofs.Words
import SmtCount.Proofs.Unambiguous
import SmtCount.Proofs.SimilarForms
import SmtCount.Proofs.Respacing
import SmtCount.Proofs.RespacedModels
import SmtCount.Proofs.Spellings
import SmtCount.Proofs.StableFactors
import SmtCount.Proofs.FormSpans
import SmtCount.Proofs.NestedForms
import SmtCount.Proofs.IntegerValues
import SmtCount.Proofs.RealValues
import SmtCount.Proofs.RowOrders
import SmtCount.Proofs.Solver.Times
import SmtCount.Proofs.Forests
import SmtCount.Proofs.Walks
