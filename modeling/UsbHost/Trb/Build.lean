import UsbHost.Request.Setup
import UsbHost.Trb.Basic

/-!
TRBs that the driver writes. The cycle bit is left to the ring that takes the TRB.
-/

namespace UsbHost.Trb

/-- Transfer type of a Setup Stage TRB: is there a data stage, and which way does it go. -/
def noDataStage : UInt32 := 0
def outDataStage : UInt32 := 2
def inDataStage : UInt32 := 3

/-- Status word of a data TRB: the length, and the number of TRBs that follow in the TD, which
its field holds up to 31. -/
def dataStatus (length remaining : UInt32) : UInt32 := length ||| (min remaining 31) <<< 17

/-- Bulk and interrupt data. -/
def normal (buffer : UInt64) (length remaining : UInt32) (flags : Flags) : Trb :=
  ⟨buffer, dataStatus length remaining, Kind.normal.controlBits ||| flags.bits⟩

/-- One isochronous packet. -/
def isoch (buffer : UInt64) (length remaining : UInt32) (flags : Flags) : Trb :=
  ⟨buffer, dataStatus length remaining, Kind.isoch.controlBits ||| flags.bits⟩

/-- The setup packet travels in the parameter. -/
def setupStage (setup : Setup) (transferType : UInt32) (flags : Flags) : Trb :=
  ⟨setup.packed, Setup.byteSize,
    Kind.setupStage.controlBits ||| (Flags.immediateData ||| flags).bits |||
      transferType <<< 16⟩

def dataStage (buffer : UInt64) (length : UInt32) (isIn : Bool) (flags : Flags) : Trb :=
  ⟨buffer, length, Kind.dataStage.controlBits ||| (flags.set .directionIn isIn).bits⟩

def statusStage (isIn : Bool) (flags : Flags) : Trb :=
  ⟨0, 0, Kind.statusStage.controlBits ||| (flags.set .directionIn isIn).bits⟩

/-- Link to the base of a ring; the cycle state flips there. -/
def link (target : UInt64) : Trb :=
  ⟨target, 0, Kind.link.controlBits ||| Flags.toggleCycle.bits⟩

def command (kind : Kind) (parameter : UInt64) (slot : UInt8) (flags : Flags) : Trb :=
  ⟨parameter, 0, kind.controlBits ||| flags.bits ||| slot.toUInt32 <<< 24⟩

end UsbHost.Trb
