import Uncertainty.Expr.Printer
import Uncertainty.Expr.Schema
import Uncertainty.Value.Schema
import Uncertainty.Measurement.Margin
import Uncertainty.Measurement.Operand
import Uncertainty.Document.Json.Reader
import Uncertainty.Document.Yaml.Printer
import Uncertainty.Document.Yaml.Reader
import Uncertainty.Main
import Uncertainty.Proofs.Expr.Grammar
import Uncertainty.Proofs.Expr.Reading
import Uncertainty.Proofs.Expr.Parsing
import Uncertainty.Proofs.Evaluation.Meaning
import Uncertainty.Proofs.Expr.RoundTrip
import Uncertainty.Proofs.Binary64.Arithmetic
import Uncertainty.Proofs.Evaluation.WellFormed
import Uncertainty.Proofs.Expr.WellFormed
import Uncertainty.Proofs.Calculation.Outcome
import Uncertainty.Proofs.Evaluation.Sign
import Uncertainty.Proofs.Evaluation.Center
import Uncertainty.Proofs.Expr.Contract
import Uncertainty.Proofs.Expr.Depth
import Uncertainty.Proofs.Expr.Place
import Uncertainty.Proofs.Expr.Viability
import Uncertainty.Proofs.Calculation.Offsets
import Uncertainty.Proofs.Token.Respelling
import Uncertainty.Proofs.Calculation.Respelling
import Uncertainty.Proofs.Document.Order
import Uncertainty.Proofs.Document.Json.Spelling
import Uncertainty.Proofs.Document.Json.RoundTrip
import Uncertainty.Proofs.Expr.Serialization
import Uncertainty.Proofs.Expr.Readability
import Uncertainty.Proofs.Expr.Schema
import Uncertainty.Proofs.Binary64.Monotone
import Uncertainty.Proofs.Evaluation.Spread
import Uncertainty.Proofs.Document.Yaml.Scalar
import Uncertainty.Proofs.Document.Yaml.Lexing
import Uncertainty.Proofs.Document.Yaml.Parsing
import Uncertainty.Proofs.Document.Yaml.RoundTrip
import Uncertainty.Proofs.Document.Yaml.Quoting
import Uncertainty.Proofs.Expr.Yaml
import Uncertainty.Proofs.Binary64.Negation
import Uncertainty.Proofs.Value.Signs
import Uncertainty.Proofs.Binary64.Finite
import Uncertainty.Proofs.Evaluation.Exact
import Uncertainty.Proofs.Evaluation.NegativeBase
import Uncertainty.Proofs.Binary64.Accuracy
import Uncertainty.Proofs.Evaluation.PlainOperand
import Uncertainty.Proofs.Token.Concatenation
import Uncertainty.Proofs.Expr.Ending
import Uncertainty.Proofs.Literal.Figures
import Uncertainty.Proofs.Expr.Nesting
import Uncertainty.Proofs.Calculation.Flat
