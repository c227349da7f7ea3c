import NesMachine.Bus.Flat
import NesMachine.Bus.Traffic
import NesMachine.Console.Query
import NesMachine.Console.TestStatus
import NesMachine.Main
import NesMachine.Processor.Query
import NesMachine.Processor.Step
import NesMachine.Runner.Report
import NesMachine.Proofs.Bus.Requests
import NesMachine.Proofs.Bus.StaleBytes
import NesMachine.Proofs.Processor.Effects
import NesMachine.Proofs.Processor.ActionEffects
import NesMachine.Proofs.Processor.StepEffects
import NesMachine.Proofs.Processor.InstructionDependence
import NesMachine.Proofs.Processor.CycleAccounting
import NesMachine.Proofs.Processor.StepTraffic
import NesMachine.Proofs.Processor.DisassemblyLockstep
import NesMachine.Proofs.Processor.InterruptReturn
import NesMachine.Proofs.Processor.Interruptions
import NesMachine.Proofs.Processor.Commands
import NesMachine.Proofs.Console.AddressTable
import NesMachine.Proofs.Cartridge.Images
import NesMachine.Proofs.Console.StatusProtocol
import NesMachine.Proofs.Console.BoundedRuns
import NesMachine.Proofs.Processor.Jams
import NesMachine.Proofs.Console.JamReports
import NesMachine.Proofs.Cartridge.Acceptance
import NesMachine.Proofs.Console.ResetPresses
import NesMachine.Proofs.Processor.Tracing
import NesMachine.Proofs.Console.FlatRuns
import NesMachine.Proofs.Console.FaultLatch
import NesMachine.Proofs.Console.CheckedSessions
import NesMachine.Proofs.Processor.JammedRuns
import NesMachine.Proofs.Processor.OwnedParts
import NesMachine.Proofs.Processor.EffectiveAddress
import NesMachine.Proofs.Runner.IndependentReports
import NesMachine.Proofs.Processor.IntegerArithmetic
import NesMachine.Proofs.Processor.CarryChains
import NesMachine.Proofs.Processor.ShiftChains
import NesMachine.Proofs.Processor.CombinedInstructions
import NesMachine.Proofs.Processor.MaskedStores
import NesMachine.Proofs.Processor.DecimalFlag
import NesMachine.Proofs.Processor.SubroutineReturn
import NesMachine.Proofs.Processor.StackDiscipline
import NesMachine.Proofs.Processor.TraceColumns
import NesMachine.Proofs.Processor.LinearSweep
import NesMachine.Proofs.Console.PictureHistory
import NesMachine.Proofs.Cartridge.BoardMemory
import NesMachine.Proofs.Runner.NestestVerdicts
import NesMachine.Proofs.Console.MessageText
import NesMachine.Proofs.Runner.ArgumentGrammar
import NesMachine.Proofs.Console.AddressQueries
import NesMachine.Proofs.Bus.LoadedBytes
