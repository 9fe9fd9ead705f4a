import UsbHost.Context.Device
import UsbHost.Endpoint.Basic

/-!
Devices. A device sits in a slot, owns the output context that the controller keeps up to date, and
has a table of its endpoints.
-/

namespace UsbHost

/-- Transaction translator of a low- or full-speed device behind a high-speed hub. -/
structure Translator where
  hubSlot : UInt8
  hubPort : UInt8
  multi : Bool
  deriving DecidableEq, Inhabited

/-- Position of a device behind a hub. -/
structure HubRoute where
  routeString : UInt32
  translator : Option Translator
  deriving DecidableEq, Inhabited

/-- Names a device. -/
structure DeviceRef where
  index : Nat
  deriving DecidableEq, Inhabited

structure Device where
  owner : Owner
  rootPort : UInt8
  routeString : UInt32 := 0
  translator : Option Translator := none
  /-- Memory of the output context. -/
  contextBuffer : Dma.BufferId
  context : Context.Device := .zero
  endpoints : Vector (Option EndpointRef) Context.maxEndpoints :=
    .replicate Context.maxEndpoints none
  deriving Inhabited

namespace Device

def id (d : Device) : DeviceId := d.owner.device

/-- Place the device behind a hub. -/
def withRoute (d : Device) (route : HubRoute) : Device :=
  { d with routeString := route.routeString, translator := route.translator }

/-- The endpoint registered under `id`. -/
def endpoint? (d : Device) (id : UInt8) : Option EndpointRef :=
  if id = 0 then none else d.endpoints[id.toNat - 1]?.join

/-- Register an endpoint under `id`, in place of the one before it. -/
def register (d : Device) (id : UInt8) (endpoint : EndpointRef) : Except Error Device :=
  if h : 1 ≤ id.toNat ∧ id.toNat ≤ Context.maxEndpoints then
    .ok { d with
      endpoints := d.endpoints.set (id.toNat - 1) (some endpoint) (Context.index_lt id h) }
  else
    .error (.invalidEndpoint id)

/-- The registered endpoints, the control endpoint first. -/
def registered (d : Device) : List EndpointRef := d.endpoints.toList.filterMap (·)

/-- Empty the endpoint table; the result is what was in it. -/
def unregisterAll (d : Device) : List EndpointRef × Device :=
  (d.registered, { d with endpoints := .replicate Context.maxEndpoints none })

/-- The slot context for Address Device. -/
def slotContext (d : Device) : Context.Slot :=
  let c := (Context.Slot.zero.setRootHubPort d.rootPort).setRouteString d.routeString
  let c := (c.setSpeed d.owner.speed).setEntries 1
  d.translator.elim c fun t => c.setTranslator t.hubSlot t.hubPort t.multi

/-- The form diagnostics print. -/
def diagnostic (d : Device) : String :=
  "UsbDevice \x7b id: DeviceId(" ++ toString d.id.number ++ "), slot_id: " ++
    toString d.owner.slot ++ ", speed: " ++ d.owner.speed.name ++ ", root_port: " ++
    toString d.rootPort ++ ", .. \x7d"

end Device

end UsbHost
