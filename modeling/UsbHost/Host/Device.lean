import UsbHost.Device.Context
import UsbHost.Host.Transfer

/-!
Devices of a host: creation with the control endpoint, registration of endpoints, routing of
transfer events, and shutdown.
-/

namespace UsbHost.Host

open HostAttempt (lift)

variable {σ ρ : Type}

/-- Register an endpoint on a device, under its own ID. -/
def register (d : DeviceRef) (e : EndpointRef) : HostAttempt σ ρ Unit := do
  let endpoint ← lift (HostM.endpoint e)
  let device ← HostAttempt.ofExcept ((← lift (HostM.device d)).register endpoint.id e)
  lift (HostM.setDevice d device)

/-- Create a device and its control endpoint. -/
def newDevice (env : Env σ ρ) (owner : Owner) (rootPort : UInt8) (route : Option HubRoute)
    (config : Config) : HostAttempt σ ρ DeviceRef := do
  let control ← newEndpoint env owner (.control owner.speed) config
  let memory ← HostAttempt.onBus (BusAttempt.structureBuffer Context.Device.byteSize)
  let device : Device := { owner := owner, rootPort := rootPort, contextBuffer := memory }
  let d ← lift (HostM.addDevice (route.elim device device.withRoute))
  register d control
  return d

/-- The control endpoint of a device, unless the device has been shut down. -/
def controlEndpoint? (d : DeviceRef) : HostM σ ρ (Option EndpointRef) :=
  return (← HostM.device d).endpoint? controlEndpointId

/-- Input context for Address Device, in memory. -/
def addressInput (d : DeviceRef) : HostAttempt σ ρ Dma.BufferId := do
  let device ← lift (HostM.device d)
  match device.endpoint? controlEndpointId with
  | none => throw (.invalidEndpoint controlEndpointId)
  | some e =>
    let endpoint ← lift (HostM.endpoint e)
    HostAttempt.inputBuffer (← lift (HostM.ofExcept (device.addressInput endpoint)))

/-- Input context for Configure Endpoint adding `e`, in memory. -/
def configureInput (d : DeviceRef) (e : EndpointRef) : HostAttempt σ ρ Dma.BufferId := do
  let device ← lift (HostM.device d)
  let endpoint ← lift (HostM.endpoint e)
  HostAttempt.inputBuffer (← lift (HostM.ofExcept (device.configureInput endpoint)))

/-- Hand a transfer event to the endpoint it names. An event for an endpoint that the device does
not have is dropped. -/
def deviceEvent (env : Env σ ρ) (d : DeviceRef) (event : TransferEvent) : HostM σ ρ Unit := do
  if let some e := (← HostM.device d).endpoint? event.endpoint then
    transferEvent env e event

/-- Shut all endpoints of a device down, and count the requests dropped. -/
def shutdown (env : Env σ ρ) (d : DeviceRef) : HostM σ ρ Nat := do
  let (endpoints, device) := (← HostM.device d).unregisterAll
  HostM.setDevice d device
  return (← endpoints.mapM (invalidate env)).foldr (· + ·) 0

/-- Bind a device to a slot, and show the controller its output context. -/
def assign (env : Env σ ρ) (slot : UInt8) (d : DeviceRef) : HostAttempt σ ρ Unit := do
  let _ ← HostAttempt.ofExcept ((← lift HostM.controller).slots.index slot)
  let memory := (← lift (HostM.device d)).contextBuffer
  let context ← lift (HostM.translate env memory)
  let slots ← HostAttempt.ofExcept
    ((← lift HostM.controller).slots.assign slot d context)
  lift (HostM.setSlots slots)

/-- Unbind the device in a slot. -/
def freeSlot (slot : UInt8) : HostAttempt σ ρ (Option DeviceRef) := do
  let (device, slots) ← HostAttempt.ofExcept
    ((← lift HostM.controller).slots.free slot)
  lift (HostM.setSlots slots)
  return device

/-- Hand a transfer event to the device in its slot. Events for empty slots are leftovers of
devices that have gone; `false` says that nobody got the event. -/
def slotEvent (env : Env σ ρ) (event : TransferEvent) : HostM σ ρ Bool := do
  match (← HostM.controller).slots.device? event.slot with
  | some d =>
    deviceEvent env d event
    return true
  | none => return false

end UsbHost.Host
