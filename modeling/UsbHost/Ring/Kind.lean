/-!
The three rings of a controller. Transfer and command rings are produced by software and read by
the controller; the event ring runs the other way.
-/

namespace UsbHost.Ring

inductive Kind
  | transfer
  | command
  | event
  deriving DecidableEq, Inhabited

namespace Kind

/-- Software writes the TRBs and the controller reads them. -/
def isProducer : Kind → Bool
  | transfer | command => true
  | event => false

/-- The word that diagnostics use for the ring. -/
def name : Kind → String
  | transfer => "Transfer"
  | command => "Command"
  | event => "Event"

end Kind

end UsbHost.Ring
