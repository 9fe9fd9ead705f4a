import UsbHost.DeviceId
import UsbHost.Frame.Scheduler

/-!
Transaction stages: what a host channel is started for.
-/

namespace UsbHost.Frame

structure Stage (α : Type) where
  request : α
  owner : DeviceId
  scheduler : Option Scheduler
  /-- Polling interval of the endpoint in frames, for periodic stages. -/
  interval : UInt16
  deriving DecidableEq, Inhabited

namespace Stage

variable {α : Type}

/-- A stage with the scheduler that its shape asks for. -/
def make (request : α) (owner : DeviceId) (shape : TransferShape) (interval : UInt16) : Stage α :=
  ⟨request, owner, Scheduler.select shape, interval⟩

def isSplit (s : Stage α) : Bool := s.scheduler.any Scheduler.isSplit

/-- Frames from one service interval to the next, if they are less than half the frame range;
high-speed intervals count microframes. -/
def delayFrames? (s : Stage α) (highSpeed : Bool) : Option UInt16 :=
  let frames := if highSpeed then s.interval.toNat * microframesPerFrame else s.interval.toNat
  if frames < (maxNumber / 2).toNat then some (UInt16.ofNat frames) else none

end Stage

end UsbHost.Frame
