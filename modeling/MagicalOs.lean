import MagicalOs.Kernel.HardwareTasks
import MagicalOs.Kernel.SegmentSelectors
import MagicalOs.Kernel.HeapRuns
import MagicalOs.Kernel.HeapMapping
import MagicalOs.Kernel.TaskIsolation
import MagicalOs.Devices.BlockReads
import MagicalOs.Kernel.KernelHeap
import MagicalOs.Kernel.PageAllocation
import MagicalOs.Library.SentinelList
import MagicalOs.Kernel.TaskFields
import MagicalOs.Kernel.StepEffects
import MagicalOs.Kernel.EventWakeups
import MagicalOs.Kernel.SleepTimes
import MagicalOs.Kernel.TimeSlices
import MagicalOs.Console.KeyboardQueue
import MagicalOs.Console.Printk
import MagicalOs.Console.ScreenBounds
import MagicalOs.Console.LineInput
import MagicalOs.Apps.ShellStrings
import MagicalOs.Apps.Shell
import MagicalOs.Devices.Ata
import MagicalOs.Devices.AtaDevice
import MagicalOs.Devices.AtaRoundTrip
import MagicalOs.Devices.AtaAddressing
import MagicalOs.Devices.AtaCapacity
import MagicalOs.FileSystem.Image
import MagicalOs.Kernel.CommonRoutines
import MagicalOs.Library.HeadedRing
import MagicalOs.Kernel.ListQueue
import MagicalOs.FileSystem.Files
import MagicalOs.FileSystem.Execution
import MagicalOs.Devices.BlockDrivers
import MagicalOs.Devices.Pci
import MagicalOs.Devices.PciScan
import MagicalOs.Devices.PciCompleteness
import MagicalOs.Console.LineEditing
import MagicalOs.Console.CursorColumns
import MagicalOs.Kernel.FailedCreation
import MagicalOs.Kernel.CreationStores
import MagicalOs.Kernel.StaleFields
import MagicalOs.Kernel.BootMemory
import MagicalOs.Devices.AtaTranscripts
import MagicalOs.Devices.SectorTransfers
import MagicalOs.Devices.IdentifyDevice
import MagicalOs.Devices.AtaReplay
import MagicalOs.Console.NumberConversions
import MagicalOs.Apps.HexNumbers
import MagicalOs.Console.TextCells
import MagicalOs.Console.PositionedText
import MagicalOs.Apps.HexDumps
import MagicalOs.Apps.WriteCommands
import MagicalOs.Console.FormatStrings
import MagicalOs.Console.FormattedOutput
import MagicalOs.Devices.DriverTermination
import MagicalOs.Kernel.TimerWaits
import MagicalOs.Kernel.StringComparison
import MagicalOs.Kernel.StringCopies
import MagicalOs.Devices.PciRegisters
import MagicalOs.Kernel.WakeupVisits
import MagicalOs.Kernel.HeapAccesses
import MagicalOs.Kernel.QueueTraversals
import MagicalOs.Kernel.CriticalSections
import MagicalOs.Kernel.GateDescriptors
import MagicalOs.Boot.Loader
import MagicalOs.Kernel.Fairness
import MagicalOs.Kernel.InterruptDelivery
import MagicalOs.Boot.FloppyImage
import MagicalOs.Kernel.Handlers
import MagicalOs.Kernel.Multitasking
import MagicalOs.Apps.ShellSessions
import MagicalOs.Apps.Uptime
import MagicalOs.Console.KeyboardReaders
import MagicalOs.Devices.AtaStore
import MagicalOs.Boot.KernelHead
