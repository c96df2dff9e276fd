import Bmboot.Lib.StepSystem
import Bmboot.Lib.Routine
import Bmboot.Lib.Client
import Bmboot.Lib.CircularBuffer
import Bmboot.Lib.Channel
import Bmboot.Lib.Mailbox
import Bmboot.Lib.RegisterBank
import Bmboot.Lib.SharedBank
import Bmboot.Lib.ActiveStack
import Bmboot.Lib.ByteCodec
import Bmboot.Lib.Elf64
import Bmboot.Lib.ByteMemory
import Bmboot.Lib.A64
import Bmboot.Lib.Crc
import Bmboot.Lib.Stdio
import Bmboot.Lib.Stage1
import Bmboot.Lib.SetWay
import Bmboot.Lib.CLayout
import Bmboot.Ipc
import Bmboot.Stdout.Ring
import Bmboot.Stdout.Fifo
import Bmboot.Stdout.Launch
import Bmboot.Stdout.Positions
import Bmboot.Stdout.RunConsole
import Bmboot.Gic.Distributor
import Bmboot.Gic.InterruptController
import Bmboot.Gic.KillInterrupt
import Bmboot.Gic.OneInterrupt
import Bmboot.Gic.CpuInterface
import Bmboot.Stdout.ConsoleThreads
import Bmboot.Monitor.Smc
import Bmboot.Monitor.CrashInfo
import Bmboot.Monitor.Killable
import Bmboot.Monitor.Teardown
import Bmboot.Monitor.KillTaken
import Bmboot.Monitor.InterruptLine
import Bmboot.Monitor.Isolation
import Bmboot.Monitor.SharedConfigure
import Bmboot.Monitor.SharedConfigureRuns
import Bmboot.Monitor.RegisterBounds
import Bmboot.Monitor.Crc32
import Bmboot.Monitor.Validate
import Bmboot.Payload.FpuContext
import Bmboot.Payload.InterruptSetup
import Bmboot.Payload.PeriodicTimer
import Bmboot.Payload.Sleep
import Bmboot.Payload.Preemption
import Bmboot.Payload.Handlers
import Bmboot.System.State
import Bmboot.System.ManagerStep
import Bmboot.System.Step
import Bmboot.System.Frame
import Bmboot.System.StateWord
import Bmboot.System.LifeCycle
import Bmboot.System.KillIpi
import Bmboot.System.Commands
import Bmboot.System.Parameters
import Bmboot.System.Calls
import Bmboot.System.Rejection
import Bmboot.System.Calm
import Bmboot.System.Loading
import Bmboot.System.CrashReport
import Bmboot.System.Refusal
import Bmboot.System.Terminate
import Bmboot.System.Ready
import Bmboot.System.OwnInterrupts
import Bmboot.System.Recovery
import Bmboot.System.Succession
import Bmboot.Boot.BootCore
import Bmboot.Boot.Startup
import Bmboot.Boot.PowerCycle
import Bmboot.Boot.CacheInvalidation
import Bmboot.Boot.TranslationTable
import Bmboot.Boot.PayloadEntry
import Bmboot.Loader.ElfPayload
import Bmboot.Loader.Segments
import Bmboot.Loader.FlatImage
import Bmboot.Loader.Corruption
import Bmboot.Loader.Startable
import Bmboot.Loader.NextProcess
import Bmboot.Dump.CoreDump
import Bmboot.Dump.RoundTrip
import Bmboot.Dump.DumpCore
import Bmboot.Dump.WriteFailures
import Bmboot.Dump.Capture
import Bmboot.Ipc.Layout
import Bmboot.Vectors.Instructions
import Bmboot.Vectors.FpuLayout
import Bmboot.Vectors.SavedRegisters
import Bmboot.Vectors.IrqFrame
import Bmboot.Vectors.FpAccess
import Bmboot.Vectors.NestedIrq
