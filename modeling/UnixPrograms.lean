import UnixPrograms.Foundation.Program
import UnixPrograms.Foundation.Contract
import UnixPrograms.Foundation.Annotation
import UnixPrograms.Foundation.Transition
import UnixPrograms.Foundation.Callers
import UnixPrograms.Foundation.ForkTree
import UnixPrograms.Foundation.Tally
import UnixPrograms.Foundation.Descriptors
import UnixPrograms.Foundation.Lifo
import UnixPrograms.Foundation.CString
import UnixPrograms.Foundation.Decimal
import UnixPrograms.Foundation.Strtok
import UnixPrograms.Foundation.Tokenizer
import UnixPrograms.Foundation.Accesses
import UnixPrograms.Foundation.Formatting
import UnixPrograms.Foundation.Directory
import UnixPrograms.Foundation.Records
import UnixPrograms.Foundation.Bits
import UnixPrograms.Foundation.Plan
import UnixPrograms.Foundation.LittleEndian
import UnixPrograms.Foundation.Separated
import UnixPrograms.Foundation.Ring
import UnixPrograms.Ipc.Kernel
import UnixPrograms.Ipc.Calls
import UnixPrograms.Stack.Code
import UnixPrograms.Stack.Points
import UnixPrograms.Stack.Attach
import UnixPrograms.Stack.Sequential
import UnixPrograms.Stack.System
import UnixPrograms.Stack.Simulation
import UnixPrograms.Stack.Lock
import UnixPrograms.Stack.Linearizability
import UnixPrograms.Stack.Session
import UnixPrograms.Stack.Leftovers
import UnixPrograms.Stack.ClearKey
import UnixPrograms.Stack.Isolation
import UnixPrograms.Stack.Guarantees
import UnixPrograms.Stack.Deferral
import UnixPrograms.Stack.Destruction
import UnixPrograms.Stack.Creation
import UnixPrograms.Stack.Slots
import UnixPrograms.Stack.Waiting
import UnixPrograms.StackOld.Code
import UnixPrograms.StackOld.Order
import UnixPrograms.StackOld.Lost
import UnixPrograms.Socket.Lib
import UnixPrograms.Socket.Client
import UnixPrograms.Socket.UdpMaster
import UnixPrograms.Socket.UdpTable
import UnixPrograms.Socket.UdpRouting
import UnixPrograms.Socket.Tcp
import UnixPrograms.Socket.TcpFraming
import UnixPrograms.Socket.TcpDialogue
import UnixPrograms.Socket.UdpSlave
import UnixPrograms.Socket.UdpCommands
import UnixPrograms.Socket.UdpQuit
import UnixPrograms.Socket.UdpOutput
import UnixPrograms.Socket.UdpResponse
import UnixPrograms.Socket.UdpRequest
import UnixPrograms.Socket.UdpFailures
import UnixPrograms.Socket.Arguments
import UnixPrograms.Socket.TcpEnding
import UnixPrograms.Socket.ClientLoop
import UnixPrograms.Socket.Terminators
import UnixPrograms.Socket.HeaderFields
import UnixPrograms.Socket.Log
import UnixPrograms.Socket.UdpConversation
import UnixPrograms.Socket.UdpSides
import UnixPrograms.Socket.UdpAnswers
import UnixPrograms.Socket.UdpService
import UnixPrograms.Socket.UdpClients
import UnixPrograms.SignalCopy.Signals
import UnixPrograms.SignalCopy.Code
import UnixPrograms.SignalCopy.Points
import UnixPrograms.SignalCopy.Transfer
import UnixPrograms.SignalCopy.Schedule
import UnixPrograms.SignalCopy.Strangers
import UnixPrograms.SignalCopy.Crowd
import UnixPrograms.SignalCopy.Pacing
import UnixPrograms.SignalCopy.RoundTrip
import UnixPrograms.SignalCopy.Interrupt
import UnixPrograms.SignalCopy.Farewell
import UnixPrograms.Backuper.Events
import UnixPrograms.Backuper.Decoding
import UnixPrograms.Backuper.Code
import UnixPrograms.Backuper.Names
import UnixPrograms.Backuper.Tree
import UnixPrograms.Backuper.Watch
import UnixPrograms.Backuper.Convergence
import UnixPrograms.Backuper.Disk
import UnixPrograms.Backuper.InitialCopy
import UnixPrograms.Backuper.Kinds
import UnixPrograms.Backuper.KindTree
import UnixPrograms.Backuper.ScanPath
import UnixPrograms.Backuper.EventPath
import UnixPrograms.Backuper.Daemon
import UnixPrograms.Backuper.PathBuffers
import UnixPrograms.Backuper.PathLengths
import UnixPrograms.Backuper.Family
import UnixPrograms.Backuper.Watchers
import UnixPrograms.Backuper.Conduct
import UnixPrograms.Backuper.Tidiness
import UnixPrograms.Backuper.OneEach
import UnixPrograms.BizzBuzz.Code
import UnixPrograms.BizzBuzz.Rewriting
import UnixPrograms.BizzBuzz.Token
import UnixPrograms.BizzBuzz.Loop
import UnixPrograms.BizzBuzz.FinalNewline
import UnixPrograms.BizzBuzz.Composition
import UnixPrograms.BizzBuzz.Main
import UnixPrograms.BizzBuzz.Reading
import UnixPrograms.BizzBuzz.Destination
import UnixPrograms.OperatorStick.Code
import UnixPrograms.OperatorStick.System
import UnixPrograms.OperatorStick.Commands
import UnixPrograms.OperatorStick.Parsing
import UnixPrograms.OperatorStick.FinalNewline
import UnixPrograms.OperatorStick.Blocks
import UnixPrograms.OperatorStick.Wiring
import UnixPrograms.SimplePrograms.IntrusiveList
import UnixPrograms.SimplePrograms.SharedLibrary
import UnixPrograms.SimplePrograms.Addition
import UnixPrograms.SimplePrograms.Registry
