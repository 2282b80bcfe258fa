import QuantumKernel.CommandLine.Directory
import QuantumKernel.CommandLine.Options
import QuantumKernel.CommandLine.Report
import QuantumKernel.CompileError
import QuantumKernel.Compiler
import QuantumKernel.Frontend.Basic
import QuantumKernel.Frontend.Bracketed
import QuantumKernel.Frontend.GateList
import QuantumKernel.Frontend.Scripted
import QuantumKernel.Frontend.Unfinished
import QuantumKernel.Frontend.Uppercase
import QuantumKernel.Ir
import QuantumKernel.Kernel.Fault
import QuantumKernel.Kernel.Gate
import QuantumKernel.Kernel.Grammar
import QuantumKernel.Kernel.Line
import QuantumKernel.Kernel.Program
import QuantumKernel.Kernel.Qubit
import QuantumKernel.Kernel.Reading
import QuantumKernel.Log
import QuantumKernel.Main
import QuantumKernel.Pipeline.Basic
import QuantumKernel.Pipeline.Session
import QuantumKernel.Proofs.Cleaning
import QuantumKernel.Proofs.Concatenation
import QuantumKernel.Proofs.Denotation
import QuantumKernel.Proofs.Edits
import QuantumKernel.Proofs.Outcome
import QuantumKernel.Proofs.Reading
import QuantumKernel.Proofs.RoundTrip
import QuantumKernel.Proofs.Spelling
import QuantumKernel.Proofs.Threshold
import QuantumKernel.Proofs.WellFormed
import QuantumKernel.Registry.Basic
import QuantumKernel.Registry.Builtin
import QuantumKernel.Registry.Client
import QuantumKernel.Registry.Display
import QuantumKernel.Registry.Session
import QuantumKernel.Target
import QuantumKernel.Text.Basic
import QuantumKernel.Text.Blank
import QuantumKernel.Text.CaseTable
import QuantumKernel.Text.Control
import QuantumKernel.Text.Decimal
import QuantumKernel.Text.Lines
import QuantumKernel.Text.Quoted
import QuantumKernel.Text.Search
import QuantumKernel.Text.Uppercase
import QuantumKernel.Proofs.Latest
import QuantumKernel.Proofs.Isolation
import QuantumKernel.Proofs.Observation
import QuantumKernel.Proofs.Account
import QuantumKernel.Proofs.Normalization
import QuantumKernel.Proofs.Arguments
import QuantumKernel.Proofs.Verbosity
import QuantumKernel.Proofs.Verdict
import QuantumKernel.Proofs.FirstFault
import QuantumKernel.Proofs.FactoryRuns
import QuantumKernel.Proofs.Capitals
import QuantumKernel.Proofs.Cut
import QuantumKernel.Proofs.Operand
import QuantumKernel.Proofs.Paths
import QuantumKernel.Proofs.Verbatim
