/-! The part of `IChannel` every channel inherits: the transfer counters. -/

namespace GaiaNet

abbrev Bytes := List UInt8

/-- The four `std::size_t` counters of ichannel.h. -/
structure Statistics where
  bytesSend : UInt64
  bytesRecv : UInt64
  packetSend : UInt64
  packetRecv : UInt64
  deriving DecidableEq, Repr

namespace Statistics

def zero : Statistics := ⟨0, 0, 0, 0⟩

def statisticsSend (stats : Statistics) (nbytes : UInt64) : Statistics :=
  { stats with bytesSend := stats.bytesSend + nbytes, packetSend := stats.packetSend + 1 }

def statisticsRecv (stats : Statistics) (nbytes : UInt64) : Statistics :=
  { stats with bytesRecv := stats.bytesRecv + nbytes, packetRecv := stats.packetRecv + 1 }

end Statistics

end GaiaNet
