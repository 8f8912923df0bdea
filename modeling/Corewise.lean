import Corewise.CoreSignature.Grammar
import Corewise.CoreSignature.Json
import Corewise.Main
import Corewise.World
import Corewise.Kernel.Stock
import Corewise.Loop.Team
import Corewise.Scalar.Exact
import Corewise.Proofs.Shape
import Corewise.Proofs.Shape.Broadcast
import Corewise.Proofs.Buffer
import Corewise.Proofs.Effect
import Corewise.Proofs.Memory
import Corewise.Proofs.Loop.Plan
import Corewise.Proofs.Loop.Iteration
import Corewise.Proofs.Loop.Team
import Corewise.Proofs.Loop.Trace
import Corewise.Proofs.Loop.Independence
import Corewise.Proofs.Loop.Outcome
import Corewise.Proofs.Loop.Reference
import Corewise.Proofs.Kernel
import Corewise.Proofs.Compiler
import Corewise.Proofs.Dispatch
import Corewise.Proofs.Lowering.Trampoline
import Corewise.Proofs.Loop.Binding
import Corewise.Proofs.Registry
import Corewise.Proofs.Lowering.Conversion
import Corewise.Proofs.Registry.Scan
import Corewise.Proofs.Registry.Layout
import Corewise.Proofs.Registry.Compatible
import Corewise.Proofs.Registry.Resolve
import Corewise.Proofs.Compiler.Synthesis
import Corewise.Proofs.Registry.Twins
import Corewise.Proofs.LoopTable
import Corewise.Proofs.LoopTable.Growth
import Corewise.Proofs.Loop.Handed
import Corewise.Proofs.Loop.Converted
import Corewise.Proofs.DynamicFunction
import Corewise.Proofs.DynamicFunction.Failure
import Corewise.Proofs.DynamicFunction.Compiling
import Corewise.Proofs.DynamicFunction.Frozen
import Corewise.Proofs.DynamicFunction.Fixed
import Corewise.Proofs.LoopTable.Recall
import Corewise.Proofs.DynamicFunction.History
import Corewise.Proofs.DynamicFunction.Typed
import Corewise.Proofs.DynamicFunction.Observation
import Corewise.Proofs.DynamicFunction.Alike
import Corewise.Proofs.DynamicFunction.Launch
import Corewise.Proofs.DynamicFunction.Halted
import Corewise.Proofs.DynamicFunction.Unwritten
import Corewise.Proofs.DynamicFunction.Widened
import Corewise.Proofs.CoreSignature.Reading
import Corewise.Proofs.CoreSignature.Parser
import Corewise.Proofs.CoreSignature.Grammar
import Corewise.Proofs.CoreSignature.Render
import Corewise.Proofs.DynamicFunction.Restored
import Corewise.Proofs.World.Moves
import Corewise.Proofs.World
import Corewise.Proofs.LoopTable.Twins
import Corewise.Proofs.DynamicFunction.Twins
import Corewise.Proofs.Loop.Interleaving
import Corewise.Proofs.DynamicFunction.Protected
import Corewise.Proofs.DynamicFunction.Renewal
import Corewise.Proofs.DynamicFunction.Memo
import Corewise.Proofs.Json.Leaf
import Corewise.Proofs.Json.Reader
import Corewise.Proofs.Json.Decode
import Corewise.Proofs.OperandType.Json
import Corewise.Proofs.Snapshot.Json
import Corewise.Proofs.Loop.WellShaped
import Corewise.Proofs.LoopTable.Implicit
import Corewise.Proofs.Context
import Corewise.Proofs.World.Request
import Corewise.Proofs.World.Saved
import Corewise.Proofs.World.Hooks
import Corewise.Proofs.World.Handles
import Corewise.Proofs.Shape.Common
import Corewise.Proofs.CoreSignature.Viable
import Corewise.Proofs.CoreSignature.Offending
import Corewise.Proofs.Casting
import Corewise.Proofs.Loop.Served
import Corewise.Proofs.DynamicFunction.Delivered
import Corewise.Proofs.Buffer.Cells
import Corewise.Proofs.Memory.Arrays
import Corewise.Proofs.Shape.RowMajor
import Corewise.Proofs.Loop.Addresses
import Corewise.Proofs.Lowering.Module
import Corewise.Proofs.Lowering.Pass
