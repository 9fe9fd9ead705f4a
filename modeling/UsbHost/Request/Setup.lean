/-!
Setup packets: the eight bytes that open a control transfer.
-/

namespace UsbHost

structure Setup where
  requestType : UInt8
  request : UInt8
  value : UInt16
  index : UInt16
  length : UInt16
  deriving DecidableEq, Inhabited

namespace Setup

/-- Bytes of a setup packet. -/
def byteSize : UInt32 := 8

/-- Request type bit of transfers from the device to the host. -/
def deviceToHost : UInt8 := 0x80

/-- Standard request for descriptor `kind`, number `index`. -/
def getDescriptor (kind : UInt16) (index : UInt8) (length : UInt16) : Setup where
  requestType := deviceToHost
  request := 6
  value := kind <<< 8 ||| index.toUInt16
  index := 0
  length := length

/-- The data stage, if there is one, goes from the device to the host. -/
def isIn (s : Setup) : Bool := s.requestType &&& deviceToHost != 0

/-- The packet as a little-endian number, the form that a Setup Stage TRB carries. -/
def packed (s : Setup) : UInt64 :=
  s.requestType.toUInt64 ||| s.request.toUInt64 <<< 8 ||| s.value.toUInt64 <<< 16 |||
    s.index.toUInt64 <<< 32 ||| s.length.toUInt64 <<< 48

end Setup

end UsbHost
