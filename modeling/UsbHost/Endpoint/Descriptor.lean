import UsbHost.Error
import UsbHost.Context.Endpoint
import UsbHost.Context.Interval

/-!
Endpoint descriptors and what follows from them: the endpoint ID, the kind of transfer, and the
settings that the controller is told.
-/

namespace UsbHost

inductive TransferKind
  | control
  | isochronous
  | bulk
  | interrupt
  deriving DecidableEq, Inhabited

/-- The kind that the low two attribute bits of a descriptor name. -/
def TransferKind.ofAttributes (attributes : UInt8) : TransferKind :=
  match attributes &&& 3 with
  | 0 => control
  | 1 => isochronous
  | 2 => bulk
  | _ => interrupt

/-- The word that diagnostics use for a kind. -/
def TransferKind.name : TransferKind → String
  | control => "Control"
  | isochronous => "Isochronous"
  | bulk => "Bulk"
  | interrupt => "Interrupt"

/-- The attribute bits of a kind. -/
def TransferKind.attributes : TransferKind → UInt8
  | control => 0
  | isochronous => 1
  | bulk => 2
  | interrupt => 3

structure EndpointDescriptor where
  /-- Number in bits 0 to 3, direction IN in bit 7. -/
  address : UInt8
  attributes : UInt8
  maxPacketSize : UInt16
  interval : UInt8
  deriving DecidableEq, Inhabited

namespace EndpointDescriptor

def number (d : EndpointDescriptor) : UInt8 := d.address &&& 0x0f

def isIn (d : EndpointDescriptor) : Bool := d.address &&& 0x80 != 0

/-- Index of the endpoint's context: twice the number, plus one for IN. -/
def endpointId (d : EndpointDescriptor) : UInt8 := d.number * 2 + if d.isIn then 1 else 0

def kind (d : EndpointDescriptor) : TransferKind := .ofAttributes d.attributes

end EndpointDescriptor

/-- Endpoint ID of the default control endpoint. -/
def controlEndpointId : UInt8 := 1

/-- Settings of an endpoint that do not change while it exists, and its initial packet size. -/
structure EndpointTraits where
  id : UInt8
  kind : TransferKind
  /-- Type field of the endpoint context. -/
  contextKind : UInt8
  isIn : Bool
  /-- Exponent of the service interval. -/
  interval : UInt8
  maxPacketSize : UInt16
  deriving DecidableEq, Inhabited

namespace EndpointTraits

/-- The default control endpoint of a device. -/
def control (speed : Speed) : EndpointTraits where
  id := controlEndpointId
  kind := .control
  contextKind := Context.Endpoint.controlKind
  isIn := false
  interval := 0
  maxPacketSize := speed.controlPacketSize

/-- Periodic endpoints have a service interval. -/
def intervalFor (kind : TransferKind) (interval : UInt8) (speed : Speed) : UInt8 :=
  match kind with
  | .isochronous | .interrupt => Context.intervalExponent interval speed
  | .control | .bulk => 0

/-- Type field for a kind: the attribute bits, plus 4 for control and IN endpoints. -/
def contextKindFor (kind : TransferKind) (isIn : Bool) : UInt8 :=
  if kind = .control ∨ isIn then kind.attributes + 4 else kind.attributes

/-- The endpoint that a descriptor describes. Low speed knows no bulk transfers, but there are
low-speed devices with bulk endpoints; these are driven as interrupt endpoints with packets of at
most eight bytes. -/
def ofDescriptor (speed : Speed) (d : EndpointDescriptor) : Except Error EndpointTraits :=
  let packetSize := d.maxPacketSize &&& 0x7ff
  if d.number = 0 then
    .error (.invalidEndpoint 0)
  else if speed = .low ∧ d.kind = .bulk then
    .ok {
      id := d.endpointId
      kind := .interrupt
      contextKind := contextKindFor .interrupt d.isIn
      isIn := d.isIn
      interval := Context.intervalExponent 1 .low
      maxPacketSize := min packetSize 8 }
  else
    .ok {
      id := d.endpointId
      kind := d.kind
      contextKind := contextKindFor d.kind d.isIn
      isIn := d.isIn
      interval := intervalFor d.kind d.interval speed
      maxPacketSize := packetSize }

end EndpointTraits

end UsbHost
