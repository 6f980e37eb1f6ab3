import PCProject.Lib.Transition
import PCProject.Lib.WaitSet
import PCProject.Lib.LinkedCells
import PCProject.Lib.Layout
import PCProject.Queue
import PCProject.QueueShape
import PCProject.QueueFifo
import PCProject.QueueCapacity
import PCProject.QueueRuns
import PCProject.QueueRelease
import PCProject.QueueMonitor
import PCProject.QueueWakeups
import PCProject.ProducerWakeups
import PCProject.StrandedProducer
import PCProject.Lib.ThreadSum
import PCProject.WorkerPool
import PCProject.WorkerPoolMoves
import PCProject.WorkerPoolInvariant
import PCProject.WorkerPoolEnd
import PCProject.StopTokens
import PCProject.PoolEndState
import PCProject.PoolProgress
import PCProject.PoolQuiescence
import PCProject.Lib.CString
import PCProject.SongServer
import PCProject.SongRequest
import PCProject.ChatServer
import PCProject.ChatMoves
import PCProject.AcceptWakeups
import PCProject.ConnectionAccounting
import PCProject.SongStreaming
import PCProject.Matrix
import PCProject.SubMultiplication
import PCProject.PoolTasks
import PCProject.ProductCells
import PCProject.SequentialProduct
import PCProject.InitOperand
import PCProject.MatrixSetUp
import PCProject.MatrixSize
import PCProject.MatrixArray
import PCProject.ChunkedProduct
import PCProject.TaskProduct
import PCProject.ParallelProduct
import PCProject.SongAccept
import PCProject.SongDirectory
import PCProject.SongStartUp
import PCProject.SongMoves
import PCProject.SongNetwork
import PCProject.SongSlots
import PCProject.SongLostSlots
import PCProject.SongStop
import PCProject.SongPaths
import PCProject.TankCopies
import PCProject.TankUsage
import PCProject.TankCost
import PCProject.ChatNotices
import PCProject.ChatInterleaving
import PCProject.ChatRoom
import PCProject.ChatNames
import PCProject.ChatPointers
import PCProject.ChatDelivery
import PCProject.ChatLines
import PCProject.ChatOrder
import PCProject.ChatEvents
import PCProject.ChatHearing
import PCProject.ChatFraming
import PCProject.ChatReceive
import PCProject.Lib.PyText
import PCProject.MatrixLog
import PCProject.CheckAnswers
import PCProject.TruncatedLog
import PCProject.PlacedProduct
import PCProject.RangeProduct
import PCProject.TaskRun
import PCProject.ChatOptions
import PCProject.ChatInactivity
import PCProject.ChatLineSenders
import PCProject.TankRoom
import PCProject.LockedCounter
import PCProject.ChunkPartition
import PCProject.Lib.Potential
import PCProject.PoolEffort
import PCProject.PoolRest
import PCProject.PoolRelease
import PCProject.ParallelEffort
import PCProject.VerifiedLog
import PCProject.MatrixProgram
import PCProject.Lib.LineInput
import PCProject.SongPlayer
import PCProject.SongSession
import PCProject.SongSessionEnd
import PCProject.SongService
import PCProject.ChatClient
import PCProject.ChatSession
import PCProject.SongHeldSlots
