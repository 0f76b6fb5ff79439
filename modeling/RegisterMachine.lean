import RegisterMachine.Text.Quoted
import RegisterMachine.Double.Text
import RegisterMachine.Wire.Format
import RegisterMachine.Run.Rendering
import RegisterMachine.Run.Operands
import RegisterMachine.Machine.Execution
import RegisterMachine.Opcodes.Standard
import RegisterMachine.Opcodes.Probe
import RegisterMachine.Demo
import RegisterMachine.CommandLine.Answer
import RegisterMachine.Main
import RegisterMachine.Proofs.CallReturn
import RegisterMachine.Proofs.Coroutines
import RegisterMachine.Proofs.Faults
import RegisterMachine.Proofs.Resumption
import RegisterMachine.Proofs.RoundTrip
import RegisterMachine.Proofs.Termination
import RegisterMachine.Proofs.Isolation
import RegisterMachine.Proofs.Locality
import RegisterMachine.Proofs.Generators
import RegisterMachine.Proofs.WellFormed
import RegisterMachine.Proofs.Safety
import RegisterMachine.Proofs.Linkage
import RegisterMachine.Proofs.DepthLimit
import RegisterMachine.Proofs.Output
import RegisterMachine.Proofs.Positions
import RegisterMachine.Proofs.LastStore
import RegisterMachine.Proofs.Aftermath
import RegisterMachine.Proofs.Footprint
import RegisterMachine.Proofs.Expansion
import RegisterMachine.Proofs.Truthful
import RegisterMachine.Proofs.Preparing
import RegisterMachine.Proofs.Dispatch
import RegisterMachine.Proofs.Factorial
import RegisterMachine.Proofs.Resolution
import RegisterMachine.Proofs.Counter
import RegisterMachine.Proofs.Arithmetic
import RegisterMachine.Proofs.Comparison
import RegisterMachine.Proofs.Narrowing
import RegisterMachine.Proofs.Truncation
import RegisterMachine.Proofs.Spelling
import RegisterMachine.Proofs.Methods
import RegisterMachine.Proofs.Delivering
import RegisterMachine.Proofs.Directory
