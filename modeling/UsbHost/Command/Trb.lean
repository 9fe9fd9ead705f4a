import UsbHost.Trb.Build

/-!
Command TRBs.
-/

namespace UsbHost.Command

def enableSlot : Trb := .command .enableSlot 0 0 .none

def disableSlot (slot : UInt8) : Trb := .command .disableSlot 0 slot .none

/-- Without `setAddress` the controller prepares the slot and sends nothing to the device. -/
def addressDevice (slot : UInt8) (input : UInt64) (setAddress : Bool) : Trb :=
  .command .addressDevice input slot (if setAddress then .none else .blockSetAddress)

def configureEndpoint (slot : UInt8) (input : UInt64) (deconfigure : Bool) : Trb :=
  .command .configureEndpoint input slot (if deconfigure then .deconfigure else .none)

def evaluateContext (slot : UInt8) (input : UInt64) : Trb :=
  .command .evaluateContext input slot .none

/-- Name an endpoint in a command. -/
def forEndpoint (t : Trb) (endpoint : UInt8) : Trb :=
  { t with control := t.control ||| endpoint.toUInt32 <<< 16 }

def resetEndpoint (slot endpoint : UInt8) : Trb :=
  forEndpoint (.command .resetEndpoint 0 slot .none) endpoint

/-- Bit of Stop Endpoint that leaves the endpoint suspended. -/
def suspendFlag : UInt32 := 0x800000

def stopEndpoint (slot endpoint : UInt8) (suspend : Bool) : Trb :=
  let t := forEndpoint (.command .stopEndpoint 0 slot .none) endpoint
  { t with control := if suspend then t.control ||| suspendFlag else t.control }

def noOp : Trb := .command .noOpCommand 0 0 .none

end UsbHost.Command
