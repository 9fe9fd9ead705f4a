import UsbHost.Dma.Buffer
import UsbHost.Endpoint.InFlight
import UsbHost.Ring.Event

/-!
Events. An event TRB is for the endpoint of a transfer, for the command that waits, or for the root
hub; events of the controller about itself, and events of unknown type, are for nobody.
-/

namespace UsbHost

/-- The segment table that tells the controller where the event ring lies. -/
structure SegmentTable where
  buffer : Dma.BufferId
  /-- Bus address and TRB count of the only segment. -/
  base : UInt64
  count : UInt32
  deriving DecidableEq, Inhabited

namespace SegmentTable

/-- Bytes of a table of one entry. -/
def byteSize : Nat := 16

end SegmentTable

structure EventQueue where
  ring : EventRing
  segments : SegmentTable
  /-- Bus address of the segment table. -/
  segmentsAddress : UInt64
  /-- Events handled per interrupt at most. -/
  maxEvents : Nat
  deriving Inhabited

/-- The controller has written an event that nobody has handled. -/
def EventQueue.hasPending (q : EventQueue) : Bool := q.ring.peek?.isSome

/-- An event, by whom it is for. -/
inductive Event
  | transfer (event : TransferEvent)
  | command (address : UInt64) (code : CompletionCode) (slot : UInt8)
  | port (number : UInt8)
  | other
  deriving DecidableEq, Inhabited

def Event.ofTrb (t : Trb) : Event :=
  match t.kind? with
  | some .transferEvent => transfer (.ofTrb t)
  | some .commandCompletion => command t.parameter t.completionCode t.slot
  | some .portStatusChange => port t.port
  | _ => other

end UsbHost
