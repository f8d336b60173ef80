import CallOrder.Automaton.Graphviz
import CallOrder.Check
import CallOrder.Json.Dfa
import CallOrder.Json.Occurrence
import CallOrder.Json.Pattern
import CallOrder.Json.Printer
import CallOrder.Json.Settings
import CallOrder.Program
import CallOrder.Proofs.Automaton.Closure
import CallOrder.Proofs.Automaton.Drawing
import CallOrder.Proofs.Automaton.Workbench
import CallOrder.Proofs.Bases
import CallOrder.Proofs.Cache
import CallOrder.Proofs.Consistency
import CallOrder.Proofs.EndMark
import CallOrder.Proofs.Failures
import CallOrder.Proofs.Growth
import CallOrder.Proofs.Index
import CallOrder.Proofs.Json.RoundTrip
import CallOrder.Proofs.Limits
import CallOrder.Proofs.Listing
import CallOrder.Proofs.Numbering
import CallOrder.Proofs.Ordered
import CallOrder.Proofs.OwnBindings
import CallOrder.Proofs.Pairing
import CallOrder.Proofs.Partition
import CallOrder.Proofs.Presentation
import CallOrder.Proofs.Questions
import CallOrder.Proofs.Reachability
import CallOrder.Proofs.Readability
import CallOrder.Proofs.Recording
import CallOrder.Proofs.Regrouping
import CallOrder.Proofs.RuleDocument
import CallOrder.Proofs.Settings
import CallOrder.Proofs.Stance
import CallOrder.Proofs.TraceGrowth
import CallOrder.Proofs.Widening
import CallOrder.RuleDocument.Yaml
import CallOrder.Settings.Document
