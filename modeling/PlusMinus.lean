import PlusMinus.Main
import PlusMinus.Session
import PlusMinus.Proofs.Stream.RoundTrip
import PlusMinus.Proofs.Tree.Arithmetic
import PlusMinus.Proofs.Propagation.Solve
import PlusMinus.Proofs.Double.Sign
import PlusMinus.Proofs.Expression.Number
import PlusMinus.Proofs.Expression.Agreement
import PlusMinus.Proofs.Interval.Contains
import PlusMinus.Proofs.Expression.Name
import PlusMinus.Proofs.Interval.Enclosure
import PlusMinus.Proofs.Numeral.Denoted
import PlusMinus.Proofs.Stream.WellFormed
import PlusMinus.Proofs.Fault
import PlusMinus.Proofs.Propagation.Enclosed
import PlusMinus.Proofs.Stream.Rows
import PlusMinus.Proofs.Double.Range
import PlusMinus.Proofs.Checked.Double
import PlusMinus.Proofs.Decimal.Rounded
import PlusMinus.Proofs.Checked.Decimal
import PlusMinus.Proofs.Checked.Measure
import PlusMinus.Proofs.Checked.Propagation
import PlusMinus.Proofs.Checked.Display
import PlusMinus.Proofs.Expression.Balanced
import PlusMinus.Proofs.Checked.Explanation
import PlusMinus.Proofs.Checked.Calculation
import PlusMinus.Proofs.Propagation.Uncertainty
import PlusMinus.Proofs.Expression.Printed
import PlusMinus.Proofs.Extremes.Corner
import PlusMinus.Proofs.Extremes.Enclosed
import PlusMinus.Proofs.Propagation.Terms
import PlusMinus.Proofs.Propagation.Progress
import PlusMinus.Proofs.Numeral.Separator
import PlusMinus.Proofs.Stream.Pieces
import PlusMinus.Proofs.Stream.Splice
import PlusMinus.Proofs.Propagation.FreeText
import PlusMinus.Proofs.Propagation.Trace
import PlusMinus.Proofs.Decimal.Exponent
import PlusMinus.Proofs.Decimal.Fixed
import PlusMinus.Proofs.Propagation.Precision
import PlusMinus.Proofs.Display.Settled
import PlusMinus.Proofs.Display.Aligned
import PlusMinus.Proofs.Display.Exact
import PlusMinus.Proofs.Display.InRange
import PlusMinus.Proofs.Display.Ordered
import PlusMinus.Proofs.Propagation.Innermost
import PlusMinus.Proofs.Propagation.Spliced
import PlusMinus.Proofs.Propagation.Exact
import PlusMinus.Proofs.Stream.Accepted
import PlusMinus.Proofs.Measure.Order
import PlusMinus.Proofs.Numeral.Written
import PlusMinus.Proofs.CommandLine.Prompt
import PlusMinus.Proofs.Session
