/-!
Interrupt status of a host channel, reported for a transaction that has just finished. A status is
a set of flags; bits without a flag carry no meaning and are dropped on entry.
-/

namespace UsbHost.Frame

structure ChannelStatus where
  bits : UInt32
  deriving DecidableEq, Inhabited

namespace ChannelStatus

def transferComplete : ChannelStatus := ⟨0x001⟩
def halted : ChannelStatus := ⟨0x002⟩
def ahbError : ChannelStatus := ⟨0x004⟩
def stall : ChannelStatus := ⟨0x008⟩
def nak : ChannelStatus := ⟨0x010⟩
def ack : ChannelStatus := ⟨0x020⟩
def nyet : ChannelStatus := ⟨0x040⟩
def transactionError : ChannelStatus := ⟨0x080⟩
def babbleError : ChannelStatus := ⟨0x100⟩
def frameOverrun : ChannelStatus := ⟨0x200⟩
def dataToggleError : ChannelStatus := ⟨0x400⟩

/-- Every flag with the name it has in the register description, lowest bit first. -/
def named : List (String × ChannelStatus) :=
  [("XFER_COMPLETE", transferComplete), ("HALTED", halted), ("AHB_ERROR", ahbError),
   ("STALL", stall), ("NAK", nak), ("ACK", ack), ("NYET", nyet),
   ("XACT_ERROR", transactionError), ("BABBLE_ERROR", babbleError),
   ("FRAME_OVERRUN", frameOverrun), ("DATA_TOGGLE_ERROR", dataToggleError)]

/-- The status that a register value stands for; undefined bits are dropped. -/
def ofBits (bits : UInt32) : ChannelStatus := ⟨bits &&& 0x7ff⟩

def union (s t : ChannelStatus) : ChannelStatus := ⟨s.bits ||| t.bits⟩

/-- Every flag of `t` is set in `s`. -/
def contains (s t : ChannelStatus) : Bool := s.bits &&& t.bits == t.bits

/-- Some flag of `t` is set in `s`. -/
def intersects (s t : ChannelStatus) : Bool := s.bits &&& t.bits != 0

/-- Names of the flags that are set, lowest bit first. -/
def names (s : ChannelStatus) : List String :=
  (named.filter fun entry => s.contains entry.2).map (·.1)

/-- The form diagnostics print: the names joined by bars, or a zero when none is set. -/
def text (s : ChannelStatus) : String :=
  match s.names with
  | [] => "ChannelStatus(0x0)"
  | names => "ChannelStatus(" ++ " | ".intercalate names ++ ")"

end ChannelStatus

end UsbHost.Frame
