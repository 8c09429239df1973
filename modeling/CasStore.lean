import CasStore.Backend
import CasStore.Basic
import CasStore.Batch.Engine
import CasStore.Batch.Outcome
import CasStore.CommandLine
import CasStore.CommandLine.Invocation
import CasStore.CommandLine.Records
import CasStore.CommandLine.Screen
import CasStore.CommandLine.Words
import CasStore.Counter
import CasStore.Decimal.Shortest
import CasStore.Document
import CasStore.Fault
import CasStore.Journal
import CasStore.Json
import CasStore.Json.Reader
import CasStore.Logging
import CasStore.Main
import CasStore.Network
import CasStore.Network.Completion
import CasStore.Network.Session
import CasStore.Network.Wire
import CasStore.Numeral
import CasStore.Program
import CasStore.Program.Chain
import CasStore.Program.Command
import CasStore.Program.Execute
import CasStore.Program.Job
import CasStore.Program.Pipeline
import CasStore.Proofs.Accounting
import CasStore.Proofs.Agreement
import CasStore.Proofs.Atomicity
import CasStore.Proofs.BatchTurns
import CasStore.Proofs.Blindness
import CasStore.Proofs.Bucket
import CasStore.Proofs.BulkCreation
import CasStore.Proofs.Clients
import CasStore.Proofs.CompareAndSwap
import CasStore.Proofs.Composition
import CasStore.Proofs.Connections
import CasStore.Proofs.Containment
import CasStore.Proofs.Correlation
import CasStore.Proofs.CounterGrammar
import CasStore.Proofs.CounterSums
import CasStore.Proofs.CounterTexts
import CasStore.Proofs.Counting
import CasStore.Proofs.Custody
import CasStore.Proofs.DriverOutcomes
import CasStore.Proofs.Effects
import CasStore.Proofs.Endings
import CasStore.Proofs.ErrorContexts
import CasStore.Proofs.Evaluation
import CasStore.Proofs.FirstSignal
import CasStore.Proofs.FlatStack
import CasStore.Proofs.Isolation
import CasStore.Proofs.JsonText
import CasStore.Proofs.Memory
import CasStore.Proofs.Modification
import CasStore.Proofs.Noninterference
import CasStore.Proofs.Numerals
import CasStore.Proofs.OddItems
import CasStore.Proofs.OneSidedCourses
import CasStore.Proofs.Outcomes
import CasStore.Proofs.Recovery
import CasStore.Proofs.Resumption
import CasStore.Proofs.RoundTrip
import CasStore.Proofs.Separation
import CasStore.Proofs.SequenceKey
import CasStore.Proofs.Sessions
import CasStore.Proofs.Splitting
import CasStore.Proofs.Traversal
import CasStore.Proofs.Versions
import CasStore.Result
import CasStore.Rounded
import CasStore.Run
import CasStore.Server
import CasStore.Server.Script
import CasStore.Settings
import CasStore.Settings.Assignment
import CasStore.Settings.Load
import CasStore.Settings.Number
import CasStore.Store
import CasStore.Store.Backend
import CasStore.Table
import CasStore.Text.Blank
import CasStore.Text.Capital
import CasStore.Text.Digit
import CasStore.Text.Lines
import CasStore.Text.Pattern
import CasStore.Text.Printable
import CasStore.Text.Quoted
import CasStore.Text.Utf8
import CasStore.Typed
import CasStore.Typed.User
import CasStore.Value
import CasStore.Value.Order
import CasStore.Value.Text
