import GaiaNet.Mem.CondVar
import GaiaNet.Mem.Narrowing
import GaiaNet.Mem.Receivable
import GaiaNet.Mem.SpinFifo
import GaiaNet.Mem.KeyUsers
import GaiaNet.Grpc.SendRetry
import GaiaNet.Grpc.RecvRetry
import GaiaNet.Grpc.FlushRetry
import GaiaNet.Grpc.FailedReconnect
import GaiaNet.Grpc.RedisKeys
import GaiaNet.Grpc.HandOver
import GaiaNet.Grpc.StreamLife
import GaiaNet.Grpc.Delivery
import GaiaNet.Grpc.LinkRuns
import GaiaNet.Grpc.Ownership
import GaiaNet.Grpc.ControlFrames
import GaiaNet.Grpc.ControlRounds
import GaiaNet.Grpc.ControlHidden
import GaiaNet.Grpc.Decompress
import GaiaNet.Grpc.AckOrder
import GaiaNet.Grpc.ShortFrames
import GaiaNet.Grpc.PollBudget
import GaiaNet.Grpc.SeqWrap
import GaiaNet.Grpc.SamePacket
import GaiaNet.Grpc.AckJoin
import GaiaNet.Grpc.UsageReport
import GaiaNet.Grpc.RecvDepth
import GaiaNet.Pool.Conservation
import GaiaNet.Pool.Shutdown
import GaiaNet.Pool.WakeUp
import GaiaNet.Names
import GaiaNet.Thread.Waiters
import GaiaNet.Mem.ChunkMismatch
import GaiaNet.Mem.SpinLive
import GaiaNet.Grpc.LinkLoss
import GaiaNet.Pool.Settle
import GaiaNet.Pool.Rest
import GaiaNet.Pool.Drain
import GaiaNet.Pool.Retire
import GaiaNet.Lib.Linearize
import GaiaNet.Thread.Atomic
import GaiaNet.Thread.Rest
import GaiaNet.Mem.CondDuplex
