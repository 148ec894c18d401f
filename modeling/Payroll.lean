import Payroll.Calendar.Bytes
import Payroll.Calendar.Date
import Payroll.Calendar.Period
import Payroll.Collaborators
import Payroll.Commit
import Payroll.Commit.Race
import Payroll.Concept
import Payroll.Configuration
import Payroll.Context
import Payroll.Coverage
import Payroll.Decimal.Arithmetic
import Payroll.Decimal.Basic
import Payroll.Decimal.Double
import Payroll.Decimal.Rounding
import Payroll.Decimal.Text
import Payroll.Document
import Payroll.Document.Catalog
import Payroll.Document.Policy
import Payroll.Document.Rows
import Payroll.Document.Runs
import Payroll.Document.Scalar
import Payroll.Document.Staff
import Payroll.Engine
import Payroll.Error
import Payroll.Formula
import Payroll.Formula.Expr
import Payroll.Formula.Machine
import Payroll.Formula.Message
import Payroll.Formula.Parser
import Payroll.Formula.Token
import Payroll.Formula.Tokens
import Payroll.Line
import Payroll.Numeral
import Payroll.Plan
import Payroll.Policy
import Payroll.Power
import Payroll.Proofs.Bytes
import Payroll.Proofs.Calendar.Period
import Payroll.Proofs.Calendar.Tenure
import Payroll.Proofs.Calendar.Text
import Payroll.Proofs.Commit.Acceptance
import Payroll.Proofs.Commit.AllOrNothing
import Payroll.Proofs.Commit.Checks
import Payroll.Proofs.Commit.EarlyCheck
import Payroll.Proofs.Commit.Moves
import Payroll.Proofs.Commit.Outcome
import Payroll.Proofs.Commit.Race
import Payroll.Proofs.Commit.Rows
import Payroll.Proofs.Commit.Totals
import Payroll.Proofs.Context
import Payroll.Proofs.Decimal.Amount
import Payroll.Proofs.Decimal.Cents
import Payroll.Proofs.Decimal.Exact
import Payroll.Proofs.Decimal.Money
import Payroll.Proofs.Decimal.Nearest
import Payroll.Proofs.Decimal.Places
import Payroll.Proofs.Decimal.Quotient
import Payroll.Proofs.Decimal.Text
import Payroll.Proofs.Document.Parts
import Payroll.Proofs.Document.RoundTrip
import Payroll.Proofs.Engine.Agreement
import Payroll.Proofs.Engine.Consistency
import Payroll.Proofs.Engine.Preview
import Payroll.Proofs.Except
import Payroll.Proofs.Formula.Agreement
import Payroll.Proofs.Formula.Allowlist
import Payroll.Proofs.Formula.Bookkeeping
import Payroll.Proofs.Formula.Chain
import Payroll.Proofs.Formula.Dependence
import Payroll.Proofs.Formula.Exactness
import Payroll.Proofs.Formula.Failures
import Payroll.Proofs.Formula.Grammar
import Payroll.Proofs.Formula.Lexing
import Payroll.Proofs.Formula.Machine
import Payroll.Proofs.Formula.Names
import Payroll.Proofs.Formula.Nesting
import Payroll.Proofs.Formula.Parsing
import Payroll.Proofs.Formula.Places
import Payroll.Proofs.Formula.Readers
import Payroll.Proofs.Formula.Respelling
import Payroll.Proofs.Formula.Restatement
import Payroll.Proofs.Formula.Size
import Payroll.Proofs.Formula.Unambiguity
import Payroll.Proofs.Formula.Values
import Payroll.Proofs.Line.Balance
import Payroll.Proofs.Line.Deletion
import Payroll.Proofs.Line.Isolation
import Payroll.Proofs.Line.Percentage
import Payroll.Proofs.Line.Recorded
import Payroll.Proofs.Line.Reserved
import Payroll.Proofs.Line.Restatement
import Payroll.Proofs.Line.Shape
import Payroll.Proofs.Numeral
import Payroll.Proofs.Plan.Sequence
import Payroll.Proofs.Run.Outcome
import Payroll.Proofs.Run.Partition
import Payroll.Proofs.Run.Preview
import Payroll.Proofs.Run.Totals
import Payroll.Proofs.Sorting
import Payroll.Proofs.Store.History
import Payroll.Proofs.Store.Integrity
import Payroll.Proofs.Store.Moves
import Payroll.Proofs.Store.Reassembly
import Payroll.Proofs.Table
import Payroll.Run
import Payroll.RunId
import Payroll.Store
import Payroll.Store.Backend
import Payroll.Store.Rows
import Payroll.Store.Session
import Payroll.Table
import Payroll.Text
import Payroll.Text.Bytes
import Payroll.Text.Extending
import Payroll.Text.Unprinted
import Payroll.Variables
import Payroll.Worker
import Payroll.Yaml
import Payroll.Yaml.Cursor
import Payroll.Yaml.Scalar
import Payroll.Yaml.Tokens
