import ArduinoOS.Assembler.Addresses
import ArduinoOS.Assembler.Meaning
import ArduinoOS.Emulator.Agreement
import ArduinoOS.Emulator.Ticks
import ArduinoOS.Minifs.MountSafe
import ArduinoOS.Minifs.Resort
import ArduinoOS.Kernel.Owner
import ArduinoOS.Kernel.CircBuf
import ArduinoOS.Kernel.Calls
import ArduinoOS.Kernel.FatFollows
import ArduinoOS.Kernel.FatDecoding
import ArduinoOS.Kernel.FatExact
import ArduinoOS.Kernel.FatSafety
import ArduinoOS.Kernel.FatGeometry
import ArduinoOS.Kernel.FileSizes
import ArduinoOS.Kernel.KStrOffsets
import ArduinoOS.Kernel.KTime
import ArduinoOS.Kernel.Lookups
import ArduinoOS.Kernel.MountTable
import ArduinoOS.Kernel.Partition
import ArduinoOS.Kernel.PathMeaning
import ArduinoOS.Hardware.SdCache
import ArduinoOS.Hardware.PinRuns
import ArduinoOS.Hardware.SdMounting
import ArduinoOS.Hardware.Tty
import ArduinoOS.Procman.Compare
import ArduinoOS.Procman.Encoding
import ArduinoOS.Procman.Memmove
import ArduinoOS.Procman.ExecStrings
import ArduinoOS.Procman.Replace
import ArduinoOS.Procman.SignalDelivery
import ArduinoOS.Procman.Streams
import ArduinoOS.Procman.Transparent
import ArduinoOS.Procman.Waitpid
import ArduinoOS.Procman.Counters
import ArduinoOS.Procman.Loader
import ArduinoOS.Procman.LocalFdRuns
import ArduinoOS.Procman.Growth
import ArduinoOS.Procman.Int32Exact
import ArduinoOS.Procman.KernelRuns
import ArduinoOS.Lib.Bisection
import ArduinoOS.Tools.MinifsBuilder
