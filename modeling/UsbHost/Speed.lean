/-!
Bus speeds, and what the speed of a device fixes before any descriptor has been read.
-/

namespace UsbHost

inductive Speed
  | low
  | full
  | high
  | super
  deriving DecidableEq, Inhabited

namespace Speed

/-- The word that diagnostics use for a speed. -/
def name : Speed → String
  | low => "Low"
  | full => "Full"
  | high => "High"
  | super => "Super"

/-- Protocol speed ID, as a slot context holds it. -/
def protocolId : Speed → UInt32
  | full => 1
  | low => 2
  | high => 3
  | super => 4

/-- Packet size of the control endpoint until the device descriptor is known. -/
def controlPacketSize : Speed → UInt16
  | low | full => 8
  | high => 64
  | super => 512

/-- High speed and above divide a frame into microframes. -/
def usesMicroframes : Speed → Bool
  | low | full => false
  | high | super => true

end Speed

end UsbHost
