import UsbHost.Host.Interrupt

/-!
Operations of a host controller: bring it up, attach and detach devices, configure their endpoints,
and let time pass.
-/

namespace UsbHost.Host

open HostAttempt (lift)

variable {σ ρ : Type}

/-- Allocate what a controller with the given settings needs, and program it. The controller must
be halted until then. -/
def create (env : Env σ ρ) (config : Config) : BusAttempt σ (World σ ρ) := do
  let controller ← BusAttempt.controller env.toPlatform config
  let completions ← match config.completionMode with
    | .immediate => pure none
    | .deferred => some <$> liftExcept (CompletionQueue.withCapacity config.completionQueueDepth)
  return { bus := ← get, controller := controller, completions := completions }

/-- Check that the running controller carries out commands. -/
def checkRunning (env : Env σ ρ) : HostAttempt σ ρ Unit := noOp env

/-- Where the requests of attached devices go when they are finished. -/
def sink (controller : Controller) : Sink :=
  match controller.config.completionMode with
  | .immediate => .immediate
  | .deferred => .deferred

/-- Give a slot back to the controller, whatever it answers. -/
def releaseSlot (env : Env σ ρ) (slot : UInt8) : HostM σ ρ Unit :=
  discard (disableSlot env slot).run

/-- An identity for a new device. -/
def newDeviceId : HostM σ ρ DeviceId :=
  modifyGet fun w => (⟨w.controller.nextDevice⟩,
    { w with controller.nextDevice := w.controller.nextDevice + 1 })

/-- Bind a device to its slot and give it an address. -/
def address (env : Env σ ρ) (slot : UInt8) (d : DeviceRef) : HostAttempt σ ρ Unit := do
  assign env slot d
  withInput (addressInput d) fun input => addressDevice env slot input true

/-- Empty a slot after its device could not be addressed. -/
def abandonSlot (env : Env σ ρ) (slot : UInt8) : HostM σ ρ Unit := do
  if let .ok (some d) := ← (freeSlot slot).run then
    let _ ← shutdown env d
  releaseSlot env slot

/-- Enable a slot for a device on a root port, possibly behind a hub, and address it. Whatever
fails, the slot is given back. -/
def attach (env : Env σ ρ) (rootPort : UInt8) (speed : Speed) (route : Option HubRoute) :
    HostAttempt σ ρ DeviceRef := do
  let slot ← enableSlot env
  let id ← lift newDeviceId
  let controller ← lift HostM.controller
  let owner : Owner := ⟨id, slot, speed, sink controller⟩
  match ← lift (newDevice env owner rootPort route controller.config).run with
  | .error error =>
    lift (releaseSlot env slot)
    throw error
  | .ok d =>
    match ← lift (address env slot d).run with
    | .error error =>
      lift (abandonSlot env slot)
      throw error
    | .ok () => return d

/-- Drop the parked requests of a device, and count them. -/
def flushParked (device : DeviceId) : HostM σ ρ Nat :=
  modifyGet fun w =>
    match w.completions with
    | none => (0, w)
    | some queue =>
      let (n, queue) := queue.flushOwner device
      (n, { w with completions := some queue })

/-- Remove a device. Its slot stops receiving events first; then its requests, in flight or parked,
are dropped without running their routines; last the slot is disabled. -/
def detach (env : Env σ ρ) (d : DeviceRef) : HostAttempt σ ρ Unit := do
  let owner := (← lift (HostM.device d)).owner
  let _ ← freeSlot owner.slot
  let _ ← lift (shutdown env d)
  let _ ← lift (flushParked owner.device)
  disableSlot env owner.slot

/-- Create the endpoint that a descriptor describes and configure it on the controller. -/
def configure (env : Env σ ρ) (d : DeviceRef) (descriptor : EndpointDescriptor) :
    HostAttempt σ ρ EndpointRef := do
  let owner := (← lift (HostM.device d)).owner
  let config := (← lift HostM.controller).config
  let e ← newEndpointFor env owner config descriptor
  withInput (configureInput d e) fun input => configureEndpoint env owner.slot input false
  register d e
  return e

/-- Input context that tells the controller the packet size of a control endpoint, in memory. -/
def packetSizeInput (d : DeviceRef) (e : EndpointRef) : HostAttempt σ ρ Dma.BufferId := do
  let endpoint ← lift (HostM.endpoint e)
  let current := (← lift (HostM.device d)).context
  HostAttempt.inputBuffer (← lift (HostM.ofExcept (endpoint.packetSizeInput current)))

/-- Record the packet size of the control endpoint, and tell the controller if it has to know. -/
def setMaxPacketSize (env : Env σ ρ) (d : DeviceRef) (size : UInt16) :
    HostAttempt σ ρ Unit := do
  match ← lift (controlEndpoint? d) with
  | none => throw (.endpointNotValid controlEndpointId)
  | some e =>
    let result ← lift (HostM.onEndpoint e fun endpoint => endpoint.setMaxPacketSize size)
    if ← HostAttempt.ofExcept result then
      let slot := (← lift (HostM.device d)).owner.slot
      withInput (packetSizeInput d e) (evaluateContext env slot)

/-- Let a halted endpoint go on. -/
def recoverEndpoint (env : Env σ ρ) (e : EndpointRef) : HostAttempt σ ρ Unit := do
  let endpoint ← lift (HostM.endpoint e)
  resetEndpoint env endpoint.owner.slot endpoint.id

/-- Run the routines of at most `limit` parked requests, and count them. -/
def processUpTo (env : Env σ ρ) : (limit : Nat) → HostM σ ρ Nat
  | 0 => return 0
  | limit + 1 => do
    match (← get).completions.bind CompletionQueue.dequeue with
    | none => return 0
    | some (request, queue) =>
      modify fun w => { w with completions := some queue }
      callRoutine env request
      return (← processUpTo env limit) + 1

/-- Requests that wait for task level. -/
def parked : HostM σ ρ Nat := return (← get).completions.elim 0 CompletionQueue.length

/-- Run the routines of all parked requests, and count them; in immediate mode there are none. A
routine may park further ones, up to the patience of the caller. -/
def processCompletions (env : Env σ ρ) : HostM σ ρ Nat := do
  processUpTo env ((← parked) + env.patience)

/-- Give back the requests of the device in a slot that have timed out, and count them. -/
def pollSlot (env : Env σ ρ) (now : UInt64) (slot : UInt8) : HostM σ ρ Nat := do
  match (← HostM.controller).slots.device? slot with
  | none => return 0
  | some d =>
    let endpoints := (← HostM.device d).registered
    return (← endpoints.mapM (pollEndpoint env now)).foldr (· + ·) 0

/-- Give back all requests that have timed out, slot by slot, and count them. -/
def pollTimeouts (env : Env σ ρ) : HostM σ ρ Nat := do
  let now ← HostM.now env
  let slots := List.range' 1 (← HostM.controller).slots.maxSlots.toNat
  return (← slots.mapM fun slot => pollSlot env now (UInt8.ofNat slot)).foldr (· + ·) 0

end UsbHost.Host
