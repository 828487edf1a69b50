import DateSpan.Datum.Making
import DateSpan.Range.Order
import DateSpan.Selection
import DateSpan.Settings.Memory
import DateSpan.Settings.Message
import DateSpan.Settings.Record
import DateSpan.Settings.Workspace
import DateSpan.Spec.Coercion
import DateSpan.Proofs.Calendar.Reading
import DateSpan.Proofs.Version.Reading
import DateSpan.Proofs.Expr.Grammar
import DateSpan.Proofs.Expr.Lexeme
import DateSpan.Proofs.Expr.Tokens
import DateSpan.Proofs.Expr.Scanning
import DateSpan.Proofs.Expr.Values
import DateSpan.Proofs.Expr.Alternatives
import DateSpan.Proofs.Expr.LongNumbers
import DateSpan.Proofs.Expr.Reading
import DateSpan.Proofs.Expr.Tabs
import DateSpan.Proofs.Range.Intersection
import DateSpan.Proofs.Expr.Briefs
import DateSpan.Proofs.Range.Comparison
import DateSpan.Proofs.Range.Writing
import DateSpan.Proofs.Spec.Writing
import DateSpan.Proofs.Range.Members
import DateSpan.Proofs.Settings.Session
import DateSpan.Proofs.Settings.Reading
import DateSpan.Proofs.Datum.Merging
import DateSpan.Proofs.Settings.Keeping
import DateSpan.Proofs.Settings.Steps
import DateSpan.Proofs.Settings.Coherence
import DateSpan.Proofs.Settings.Copies
import DateSpan.Proofs.Settings.Separation
import DateSpan.Proofs.Settings.Precedence
import DateSpan.Proofs.Settings.Recall
import DateSpan.Proofs.Spec.Joining
import DateSpan.Proofs.Spec.Agreement
import DateSpan.Proofs.Version.Faults
import DateSpan.Proofs.Expr.Faults
import DateSpan.Proofs.Calendar.Months
import DateSpan.Proofs.Calendar.Offsets
import DateSpan.Proofs.Version.Moves
import DateSpan.Proofs.Expr.Spans
import DateSpan.Proofs.Expr.Modes
import DateSpan.Proofs.Range.Extension
import DateSpan.Proofs.Text.FixedWidth
import DateSpan.Proofs.Version.Order
import DateSpan.Proofs.Version.Encodings
import DateSpan.Proofs.Range.Order
import DateSpan.Proofs.Range.Containment
import DateSpan.Proofs.Datum.Escapes
import DateSpan.Proofs.Datum.Constructions
import DateSpan.Proofs.Version.Shifts
import DateSpan.Proofs.Version.Totals
import DateSpan.Proofs.Range.Between
import DateSpan.Proofs.Range.Counting
import DateSpan.Proofs.Range.Extremes
import DateSpan.Proofs.Spec.Selection
import DateSpan.Proofs.Duration.Writing
import DateSpan.Proofs.Expr.Surplus
import DateSpan.Proofs.Settings.Layers
