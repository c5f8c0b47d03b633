import RevPiModbus.Lib.Enumeration
import RevPiModbus.Lib.PeriodicQueue
import RevPiModbus.Lib.Backlog
import RevPiModbus.Lib.Image
import RevPiModbus.Fault
import RevPiModbus.ModbusConfig
import RevPiModbus.Timespec
import RevPiModbus.Scheduler
import RevPiModbus.Schedule
import RevPiModbus.MasterTiming
import RevPiModbus.Host
import RevPiModbus.ComAndDataProcessor
import RevPiModbus.Coils
import RevPiModbus.PiProcessImageAccess
import RevPiModbus.ModbusSlaveThread
import RevPiModbus.Lib.Transition
import RevPiModbus.PiModbusMaster
import RevPiModbus.Lib.Latch
import RevPiModbus.ModbusMasterThread
import RevPiModbus.StatusLatch
import RevPiModbus.Json
import RevPiModbus.Lib.Collect
import RevPiModbus.PiConfigParser
import RevPiModbus.PiConfigDevices
import RevPiModbus.ActionList
import RevPiModbus.ExecutableActions
import RevPiModbus.DeviceList
import RevPiModbus.DaemonLifecycle
import RevPiModbus.ProductTypes
import RevPiModbus.RoundTrip
import RevPiModbus.TcpSlaveLoop
import RevPiModbus.SlaveDataFlow
import RevPiModbus.VariablePosition
import RevPiModbus.MasterStatusOffsets
import RevPiModbus.Lib.TwoRuns
import RevPiModbus.WrittenData
import RevPiModbus.ActionNumbers
import RevPiModbus.MasterTimeout
import RevPiModbus.EventOffset
import RevPiModbus.SlaveBits
import RevPiModbus.DeviceParameters
import RevPiModbus.ProcessImageSpan
import RevPiModbus.SlaveWindows
import RevPiModbus.VariableLookup
import RevPiModbus.ContextLifecycle
import RevPiModbus.DescriptorOwnership
import RevPiModbus.EventAllocation
import RevPiModbus.ContextMutex
import RevPiModbus.Fairness
import RevPiModbus.LoopProgress
import RevPiModbus.MasterConnection
import RevPiModbus.Lib.Interleaving
import RevPiModbus.MasterProgram
import RevPiModbus.MasterIsolation
import RevPiModbus.MasterDataFlow
import RevPiModbus.ActionRequest
import RevPiModbus.Lib.Slice
import RevPiModbus.ModbusFrames
import RevPiModbus.TwoDevices
import RevPiModbus.Hyperperiod
import RevPiModbus.Lib.Overload
import RevPiModbus.MasterOverload
import RevPiModbus.SlaveIsolation
