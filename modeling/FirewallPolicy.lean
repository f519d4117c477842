import FirewallPolicy.Address.Basic
import FirewallPolicy.Address.Colon
import FirewallPolicy.Address.Dotted
import FirewallPolicy.Address.Network
import FirewallPolicy.Command.Equivalence
import FirewallPolicy.Command.Options
import FirewallPolicy.Command.Output
import FirewallPolicy.Command.Query
import FirewallPolicy.Dump.Cell
import FirewallPolicy.Dump.Fault
import FirewallPolicy.Dump.Header
import FirewallPolicy.Dump.Record
import FirewallPolicy.Failure
import FirewallPolicy.Firewall.Basic
import FirewallPolicy.Firewall.Load
import FirewallPolicy.Formula.Basic
import FirewallPolicy.Formula.Eval
import FirewallPolicy.Formula.Restrict
import FirewallPolicy.Invalid
import FirewallPolicy.Log
import FirewallPolicy.Main
import FirewallPolicy.Packet
import FirewallPolicy.Query
import FirewallPolicy.Rule.Basic
import FirewallPolicy.Rule.Protocol
import FirewallPolicy.Rule.Range
import FirewallPolicy.Search
import FirewallPolicy.Solver.Cells
import FirewallPolicy.Solver.Choice
import FirewallPolicy.Solver.Exact
import FirewallPolicy.Solver.Model
import FirewallPolicy.Solver.Session
import FirewallPolicy.Solver.View
import FirewallPolicy.Text.Blank
import FirewallPolicy.Text.Capital
import FirewallPolicy.Text.Count
import FirewallPolicy.Text.DecimalDigit
import FirewallPolicy.Text.Json
import FirewallPolicy.Text.Lines
import FirewallPolicy.Text.Markup
import FirewallPolicy.Text.Numeral
import FirewallPolicy.Text.Printable
import FirewallPolicy.Text.Quoted
import FirewallPolicy.Text.Split
import FirewallPolicy.Text.Utf8
import FirewallPolicy.Timeout
import FirewallPolicy.Proofs.Address.Colon
import FirewallPolicy.Proofs.Address.Dotted
import FirewallPolicy.Proofs.Command.Answer
import FirewallPolicy.Proofs.Command.ExitCode
import FirewallPolicy.Proofs.Command.Verdict
import FirewallPolicy.Proofs.Dump.Address
import FirewallPolicy.Proofs.Dump.Cell
import FirewallPolicy.Proofs.Dump.Columns
import FirewallPolicy.Proofs.Dump.Network
import FirewallPolicy.Proofs.Dump.Record
import FirewallPolicy.Proofs.Dump.Recovery
import FirewallPolicy.Proofs.Dump.RoundTrip
import FirewallPolicy.Proofs.Dump.Spelling
import FirewallPolicy.Proofs.Firewall.Agreement
import FirewallPolicy.Proofs.Firewall.File
import FirewallPolicy.Proofs.Firewall.Insertion
import FirewallPolicy.Proofs.Firewall.Rearrangement
import FirewallPolicy.Proofs.Firewall.Splitting
import FirewallPolicy.Proofs.Firewall.Usable
import FirewallPolicy.Proofs.Meaning
import FirewallPolicy.Proofs.Query.Decision
import FirewallPolicy.Proofs.Query.Exact
import FirewallPolicy.Proofs.Query.Replay
import FirewallPolicy.Proofs.Query.Wording
import FirewallPolicy.Proofs.Reading
import FirewallPolicy.Proofs.Rule.Protocol
import FirewallPolicy.Proofs.Search.Classes
import FirewallPolicy.Proofs.Search.Completion
import FirewallPolicy.Proofs.Search.Coverage
import FirewallPolicy.Proofs.Search.Ending
import FirewallPolicy.Proofs.Search.Lifecycle
import FirewallPolicy.Proofs.Search.Limit
import FirewallPolicy.Proofs.Search.Reports
import FirewallPolicy.Proofs.Search.Stopping
import FirewallPolicy.Proofs.Solver.Calls
import FirewallPolicy.Proofs.Solver.Decision
import FirewallPolicy.Proofs.Text.Decimal
import FirewallPolicy.Proofs.Text.Numeral
import FirewallPolicy.Proofs.Text.Pieces
import FirewallPolicy.Proofs.Text.Utf8
import FirewallPolicy.Proofs.Words
