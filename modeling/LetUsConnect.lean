import LetUsConnect.Lib.Transition
import LetUsConnect.Lib.CString
import LetUsConnect.Lib.LexicalPath
import LetUsConnect.Lib.Readers
import LetUsConnect.Lib.Reception
import LetUsConnect.Lib.Threads
import LetUsConnect.Lib.Blocks
import LetUsConnect.Lib.Chains
import LetUsConnect.Lib.Comparators
import LetUsConnect.Lib.ExchangeSort
import LetUsConnect.DataStructures.BinarySearchTree
import LetUsConnect.DataStructures.Dictionary
import LetUsConnect.DataStructures.TreeOrder
import LetUsConnect.DataStructures.LinkedList
import LetUsConnect.DataStructures.LinkedList.Pointers
import LetUsConnect.DataStructures.LinkedList.Sequence
import LetUsConnect.DataStructures.LinkedList.Search
import LetUsConnect.DataStructures.LinkedList.Sorting
import LetUsConnect.DataStructures.Queue
import LetUsConnect.DataStructures.HeapDictionary
import LetUsConnect.DataStructures.BinarySearchTree.Pointers
import LetUsConnect.DataStructures.Dictionary.Pointers
import LetUsConnect.DataStructures.KeyList
import LetUsConnect.Parser
import LetUsConnect.Parser.RoundTrip
import LetUsConnect.Parser.NormalForm
import LetUsConnect.Parser.HeapRequest
import LetUsConnect.Parser.FormFields
import LetUsConnect.Network.Response
import LetUsConnect.Network.SendLoops
import LetUsConnect.Network.FifoQueue
import LetUsConnect.Network.FifoQueue.Order
import LetUsConnect.Network.ThreadPool
import LetUsConnect.Network.ThreadPool.Delivery
import LetUsConnect.Network.ThreadPool.Completion
import LetUsConnect.Network.ThreadPool.Startup
import LetUsConnect.Network.ThreadPool.Handshake
import LetUsConnect.Network.ThreadPool.Destroy
import LetUsConnect.Network.ThreadPool.Termination
import LetUsConnect.Network.ThreadPool.Shutdown
import LetUsConnect.Network.ThreadPool.Accounts
import LetUsConnect.Network.ThreadPool.Rest
import LetUsConnect.Network.ThreadPool.Drop
import LetUsConnect.Logger
import LetUsConnect.Logger.Steps
import LetUsConnect.Logger.LifeCycle
import LetUsConnect.Logger.Atomic
import LetUsConnect.Handler
import LetUsConnect.Handler.AccessLog
import LetUsConnect.Handler.Answers
import LetUsConnect.Handler.LogRecords
import LetUsConnect.Handler.OpenFiles
import LetUsConnect.Handler.PathContainment
import LetUsConnect.Handler.ServedFile
import LetUsConnect.Handler.ResponseHeads
import LetUsConnect.Handler.PostData
import LetUsConnect.Handler.PostRecords
import LetUsConnect.Connection
import LetUsConnect.Network.ThreadPool.Cancel
import LetUsConnect.Network.ThreadPool.HardShutdown
import LetUsConnect.Connection.Segmentation
import LetUsConnect.Connection.Framing
import LetUsConnect.Connection.Pipelining
import LetUsConnect.Connection.Persistence
import LetUsConnect.Connection.WirePrefix
import LetUsConnect.Connection.HeadRequests
import LetUsConnect.Connection.Client
import LetUsConnect.Connection.Session
import LetUsConnect.Connection.Validation
import LetUsConnect.Connection.Storage
import LetUsConnect.Server
import LetUsConnect.Server.Flight
import LetUsConnect.Server.WorkerSteps
import LetUsConnect.Server.ReactorSteps
import LetUsConnect.Server.Ownership
import LetUsConnect.Server.ReactorMoves
import LetUsConnect.Server.Tasks
import LetUsConnect.Server.Isolation
import LetUsConnect.Server.LastActivity
import LetUsConnect.Server.BufferBounds
import LetUsConnect.Server.Accounting
import LetUsConnect.Server.Connections
import LetUsConnect.Server.Conservation
import LetUsConnect.Server.Descriptors
import LetUsConnect.Server.IdleTimeout
import LetUsConnect.Server.Answering
import LetUsConnect.Server.Service
import LetUsConnect.Server.Rounds
import LetUsConnect.Server.Progress
import LetUsConnect.Server.Closing
