import Linux011.Library.ByteMemory
import Linux011.Library.SharedRefs
import Linux011.Mm.Allocator
import Linux011.Mm.Boot
import Linux011.Mm.Fault
import Linux011.Kernel.OutOfMemory
import Linux011.Kernel.Counts
import Linux011.Kernel.Identity
import Linux011.Kernel.Isolation
import Linux011.Kernel.Pick
import Linux011.Library.Linked
import Linux011.Library.Rounds
import Linux011.Kernel.Quantum
import Linux011.Kernel.Scheduler
import Linux011.Kernel.WaitQueue
import Linux011.Kernel.SystemCall
import Linux011.Library.Ring
import Linux011.ChrDrv.Queue
import Linux011.ChrDrv.Refines
import Linux011.ChrDrv.Controller
import Linux011.ChrDrv.Translation
import Linux011.Kernel.Interrupts
import Linux011.Library.Printf
import Linux011.Kernel.Format
import Linux011.Library.Numeral
import Linux011.Library.RealMode
import Linux011.Library.Floppy
import Linux011.Kernel.Number
import Linux011.Kernel.Selection
import Linux011.Kernel.Descriptors
import Linux011.Kernel.WriteFault
import Linux011.Kernel.FirstFork
import Linux011.ChrDrv.Bounds
import Linux011.ChrDrv.Locks
import Linux011.ChrDrv.Wait
import Linux011.Kernel.Traps
import Linux011.Mm.TableLoops
import Linux011.Mm.CopyWindow
import Linux011.Mm.Undo
import Linux011.Boot.Build
import Linux011.Boot.Load
import Linux011.Boot.Arrives
import Linux011.Library.StringInstr
import Linux011.Library.FirstDifference
import Linux011.Library.Runs
import Linux011.Library.SubRegisters
import Linux011.Lib.StringC
import Linux011.Lib.Copies
import Linux011.Lib.Blocks
import Linux011.Lib.Compare
import Linux011.Lib.Search
import Linux011.Lib.Strtok
import Linux011.Lib.Spans
import Linux011.Kernel.Segments
import Linux011.Kernel.Dispatch
import Linux011.Kernel.Parts
import Linux011.Kernel.Directives
import Linux011.Boot.Transfers
import Linux011.Boot.Accept
import Linux011.Kernel.TaskSwitch
import Linux011.Kernel.Sharing
import Linux011.Kernel.TimeSharing
import Linux011.Kernel.Capacity
import Linux011.Kernel.MainProgram
import Linux011.Kernel.Reach
import Linux011.Kernel.Cached
import Linux011.Kernel.AddressSpace
import Linux011.Kernel.EagerCopy
import Linux011.Kernel.Irq
import Linux011.Lib.Finds
