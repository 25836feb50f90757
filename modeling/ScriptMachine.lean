import ScriptMachine.Assembler.Body
import ScriptMachine.Assembler.Declaration
import ScriptMachine.Assembler.Draft
import ScriptMachine.Binary.LittleEndian
import ScriptMachine.CommandLine
import ScriptMachine.Config.Basic
import ScriptMachine.Config.Json
import ScriptMachine.Enumeration
import ScriptMachine.Error
import ScriptMachine.Execution.Answer
import ScriptMachine.Execution.Basic
import ScriptMachine.Execution.Call
import ScriptMachine.Execution.Dispatch
import ScriptMachine.Execution.Loop
import ScriptMachine.Execution.Routine
import ScriptMachine.Flags
import ScriptMachine.Host.Argument
import ScriptMachine.Host.Query
import ScriptMachine.Host.Routine
import ScriptMachine.Host.Typed
import ScriptMachine.Host.View
import ScriptMachine.Instance.Handle
import ScriptMachine.Instance.Registry
import ScriptMachine.Instance.Tag
import ScriptMachine.Instruction
import ScriptMachine.Kind
import ScriptMachine.Listing.Basic
import ScriptMachine.Listing.Yaml
import ScriptMachine.Machine.Allocation
import ScriptMachine.Machine.Basic
import ScriptMachine.Machine.Call
import ScriptMachine.Machine.Execute
import ScriptMachine.Machine.Log
import ScriptMachine.Machine.Operator
import ScriptMachine.Machine.Registration
import ScriptMachine.Machine.Stack
import ScriptMachine.Main
import ScriptMachine.Memory.Basic
import ScriptMachine.Memory.Instances
import ScriptMachine.Memory.Members
import ScriptMachine.Number.Shortest
import ScriptMachine.Number.Single
import ScriptMachine.Opcode
import ScriptMachine.Proofs.Access
import ScriptMachine.Proofs.Activation
import ScriptMachine.Proofs.Addressing
import ScriptMachine.Proofs.Allocation
import ScriptMachine.Proofs.Ancestry
import ScriptMachine.Proofs.Arity
import ScriptMachine.Proofs.Assembly
import ScriptMachine.Proofs.Binding
import ScriptMachine.Proofs.Bodies
import ScriptMachine.Proofs.Budget
import ScriptMachine.Proofs.CallDepth
import ScriptMachine.Proofs.CallStack
import ScriptMachine.Proofs.Calls
import ScriptMachine.Proofs.Cells
import ScriptMachine.Proofs.Change
import ScriptMachine.Proofs.Codec
import ScriptMachine.Proofs.Computation
import ScriptMachine.Proofs.Conversion
import ScriptMachine.Proofs.Declared
import ScriptMachine.Proofs.Decoding
import ScriptMachine.Proofs.Delivery
import ScriptMachine.Proofs.Dispatch
import ScriptMachine.Proofs.Emission
import ScriptMachine.Proofs.Evaluation
import ScriptMachine.Proofs.Expression
import ScriptMachine.Proofs.Extension
import ScriptMachine.Proofs.Extent
import ScriptMachine.Proofs.Field
import ScriptMachine.Proofs.Generation
import ScriptMachine.Proofs.Handles
import ScriptMachine.Proofs.Index
import ScriptMachine.Proofs.Instruction
import ScriptMachine.Proofs.Invariant
import ScriptMachine.Proofs.Layout
import ScriptMachine.Proofs.Ledger
import ScriptMachine.Proofs.Liveness
import ScriptMachine.Proofs.Mirror
import ScriptMachine.Proofs.Naming
import ScriptMachine.Proofs.Offset
import ScriptMachine.Proofs.Operation
import ScriptMachine.Proofs.Override
import ScriptMachine.Proofs.Parallel
import ScriptMachine.Proofs.Parameters
import ScriptMachine.Proofs.Permission
import ScriptMachine.Proofs.Poison
import ScriptMachine.Proofs.Popping
import ScriptMachine.Proofs.Possession
import ScriptMachine.Proofs.Prologue
import ScriptMachine.Proofs.Reading
import ScriptMachine.Proofs.Reentry
import ScriptMachine.Proofs.Registration
import ScriptMachine.Proofs.Registry
import ScriptMachine.Proofs.Relaxation
import ScriptMachine.Proofs.Returned
import ScriptMachine.Proofs.Run
import ScriptMachine.Proofs.Shape
import ScriptMachine.Proofs.Signature
import ScriptMachine.Proofs.Slots
import ScriptMachine.Proofs.StackDepth
import ScriptMachine.Proofs.Sweep
import ScriptMachine.Proofs.SymbolTable
import ScriptMachine.Proofs.Trail
import ScriptMachine.Proofs.Transcription
import ScriptMachine.Proofs.Usable
import ScriptMachine.Proofs.Variable
import ScriptMachine.Proofs.View
import ScriptMachine.Proofs.Word
import ScriptMachine.Schema.All
import ScriptMachine.Schema.Basic
import ScriptMachine.Schema.Character
import ScriptMachine.Schema.Dialogue
import ScriptMachine.Schema.Enumeration
import ScriptMachine.Schema.Item
import ScriptMachine.Schema.Menu
import ScriptMachine.Schema.Player
import ScriptMachine.Schema.Sound
import ScriptMachine.Schema.VisualEffect
import ScriptMachine.Script.Basic
import ScriptMachine.Script.Index
import ScriptMachine.Script.Loader
import ScriptMachine.Script.Reader
import ScriptMachine.Storage
import ScriptMachine.Symbol
import ScriptMachine.Text.Blank
import ScriptMachine.Text.CharSet
import ScriptMachine.Text.CodePage
import ScriptMachine.Text.Digits
import ScriptMachine.Text.Encoding
import ScriptMachine.Text.GraphemeExtend
import ScriptMachine.Text.Name
import ScriptMachine.Text.NonGraphic
import ScriptMachine.Text.Path
import ScriptMachine.Text.Quoted
import ScriptMachine.Text.Utf16
import ScriptMachine.Text.Utf8
import ScriptMachine.Text.YamlNumber
import ScriptMachine.Text.YamlScalar
import ScriptMachine.Trace.Event
import ScriptMachine.Trace.Mask
import ScriptMachine.Value
