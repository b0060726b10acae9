import HermitLocal.Ahci.Erase
import HermitLocal.Ahci.Registration
import HermitLocal.Usb.EventQueue
import HermitLocal.Usb.Commands
import HermitLocal.Usb.Partition
import HermitLocal.Usb.EndpointIndex
import HermitLocal.Usb.GgufChoice
import HermitLocal.Usb.Probe
import HermitLocal.Keyboard.Input
import HermitLocal.Scheduler.Idle
import HermitLocal.Scheduler.Join
import HermitLocal.Scheduler.WakeupSafety
import HermitLocal.BitNet.TensorBounds
import HermitLocal.BitNet.Calls
import HermitLocal.Usb.CommandBuffers
import HermitLocal.Ahci.CommandSlot
import HermitLocal.Runtime.Realloc
import HermitLocal.Runtime.PthreadWakeups
import HermitLocal.RamShell.Meaning
import HermitLocal.RamShell.Forget
import HermitLocal.RamShell.Trim
import HermitLocal.Console.Output
import HermitLocal.Scheduler.Fpu
import HermitLocal.Boot.Reservations
import HermitLocal.Net.Rtl8152
import HermitLocal.Time.Sleep
import HermitLocal.Scheduler.ThreadStorage
import HermitLocal.Fd.Poll
import HermitLocal.Fd.EventFd
import HermitLocal.Ahci.EntryMap
import HermitLocal.Fs.RamFile
