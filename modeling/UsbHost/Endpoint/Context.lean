import UsbHost.Context.Device
import UsbHost.Endpoint.Basic

/-!
What the controller is told about an endpoint, as contexts.
-/

namespace UsbHost.Endpoint

variable {ρ : Type}

/-- A flag word with bit `id` alone. -/
def contextFlag (id : UInt8) : UInt32 := 1 <<< id.toUInt32

/-- Dequeue pointer of a ring nobody has read from. -/
def initialDequeue (e : Endpoint ρ) : UInt64 := e.ring.base ||| Context.Endpoint.dequeueCycle

/-- Fields that depend on the kind of transfer: the interval, the average length of a TRB and the
bytes per service interval. -/
def fillByKind (e : Endpoint ρ) (c : Context.Endpoint) : Context.Endpoint :=
  match e.kind with
  | .control => c.setAverageLength 8
  | .bulk => c.setAverageLength 256
  | .interrupt =>
    ((c.setInterval e.traits.interval).setAverageLength 16).setMaxPayload e.maxPacketSize
  | .isochronous =>
    ((c.setInterval e.traits.interval).setAverageLength e.maxPacketSize).setMaxPayload
      e.maxPacketSize

/-- The endpoint context for Configure Endpoint. -/
def fillContext (e : Endpoint ρ) (c : Context.Endpoint) : Context.Endpoint :=
  let c := (c.setDequeue e.initialDequeue).setKind e.traits.contextKind
  let c := (c.setMaxPacketSize e.maxPacketSize).setMaxBurst 0
  e.fillByKind (c.setErrorCount 3)

/-- Ask in `input` for the endpoint to be configured; an old configuration is dropped first. -/
def configureIn (e : Endpoint ρ) (input : Context.Input) : Except Fault Context.Input :=
  { input with
    addFlags := input.addFlags ||| contextFlag e.id
    dropFlags := input.dropFlags ||| contextFlag e.id }.updateEndpoint e.id e.fillContext

/-- Input context for Evaluate Context after the packet size of the control endpoint of a device
with context `current` has been set. -/
def packetSizeInput (e : Endpoint ρ) (current : Context.Device) : Except Fault Context.Input :=
  { dropFlags := contextFlag controlEndpointId
    addFlags := contextFlag controlEndpointId
    device := current : Context.Input }.updateEndpoint controlEndpointId
      (·.setMaxPacketSize e.maxPacketSize)

end UsbHost.Endpoint
