import Mos6502.Configuration.Document
import Mos6502.Main
import Mos6502.Memory.Picture
import Mos6502.Memory.Shared
import Mos6502.Run.Rehearsal
import Mos6502.Proofs.Processor.Tick
import Mos6502.Proofs.Reference.Table
import Mos6502.Proofs.Reference.View
import Mos6502.Proofs.Reference.Refinement
import Mos6502.Proofs.Processor.Status
import Mos6502.Proofs.Execution.Footprint
import Mos6502.Proofs.Processor.PopPolicy
import Mos6502.Proofs.Run.Record
import Mos6502.Proofs.Run.Steps
import Mos6502.Proofs.Execution.Failure
import Mos6502.Proofs.Execution.Report
import Mos6502.Proofs.Processor.Confinement
import Mos6502.Proofs.Run.Command
import Mos6502.Proofs.Run.Trace
import Mos6502.Proofs.Run.Stop
import Mos6502.Proofs.Run.Protocol
import Mos6502.Proofs.Execution.CallStack
import Mos6502.Proofs.Run.Random
import Mos6502.Proofs.Run.Monitored
import Mos6502.Proofs.Memory.Shared
import Mos6502.Proofs.Memory.Dump
import Mos6502.Proofs.Memory.Picture
import Mos6502.Proofs.Multibyte
import Mos6502.Proofs.Execution.StackPage
import Mos6502.Proofs.Processor.StraightLine
import Mos6502.Proofs.Processor.Lifecycle
import Mos6502.Proofs.Monitor.Word
import Mos6502.Proofs.Processor.TraceLine
import Mos6502.Proofs.Processor.Snapshot
import Mos6502.Proofs.Configuration
import Mos6502.Proofs.Memory.Overflow
import Mos6502.Proofs.Processor.Layout
import Mos6502.Proofs.Branch
import Mos6502.Proofs.Run.Delay
