import UsbHost.Ring.Basic
import UsbHost.Simulation.Controller
import UsbHost.Simulation.Step

/-!
What the steps of a script do. A step that names a handle which does not exist does nothing.
-/

namespace UsbHost.Simulation

open HostAttempt (lift)

variable {τ : Type}

/-- Operations of a script. -/
abbrev BenchM (τ : Type) := SimM (Bench τ) (Routine τ)

abbrev BenchAttempt (τ : Type) := HostAttempt (Machine (Bench τ)) (Routine τ)

abbrev BenchEnv (τ : Type) := Env (Machine (Bench τ)) (Routine τ)

def bench : BenchM τ (Bench τ) := return (← machine).user

def modifyBench (f : Bench τ → Bench τ) : BenchM τ Unit :=
  modifyMachine fun m => { m with user := f m.user }

/-! ### Handles -/

def withEndpoint (handle : Nat) (use : EndpointRef → BenchM τ (Answer τ)) :
    BenchM τ (Answer τ) := do
  match (← bench).endpoints[handle]? with
  | some e => use e
  | none => return .noHandle

def withDevice (handle : Nat) (use : DeviceRef → BenchM τ (Answer τ)) : BenchM τ (Answer τ) := do
  match (← bench).devices[handle]? with
  | some d => use d
  | none => return .noHandle

def addEndpoint (e : EndpointRef) : BenchM τ Nat := do
  let handle := (← bench).endpoints.size
  modifyBench fun b => { b with endpoints := b.endpoints.push e }
  return handle

def addRequest (id : RequestId) : BenchM τ (Answer τ) := do
  let handle := (← bench).requests.size
  modifyBench fun b => { b with requests := b.requests.push id }
  return .newRequest handle

def newEndpointAnswer (e : EndpointRef) : BenchM τ (Answer τ) :=
  return .newEndpoint (← addEndpoint e) (← HostM.endpoint e)

/-- A new device brings its control endpoint along. -/
def newDeviceAnswer (d : DeviceRef) : BenchM τ (Answer τ) := do
  let handle := (← bench).devices.size
  modifyBench fun b => { b with devices := b.devices.push d }
  let control ← match ← Host.controlEndpoint? d with
    | some e => some <$> addEndpoint e
    | none => pure none
  return .newDevice handle control (← HostM.device d)

def attempt {α : Type} (op : BenchAttempt τ α) (answer : α → BenchM τ (Answer τ)) :
    BenchM τ (Answer τ) := do
  match ← op.run with
  | .ok a => answer a
  | .error error => return .refused error

def attempt_ (op : BenchAttempt τ Unit) : BenchM τ (Answer τ) := attempt op fun _ => return .done

/-- The input context that `make` puts into memory; it is freed at once. -/
def showInput (make : BenchAttempt τ Dma.BufferId) : BenchM τ (Answer τ) :=
  attempt make fun id => do
    HostM.freeInput id
    return ((← get).input? id).elim .nothing fun b => .input b.content

/-! ### Addresses and events -/

def Place.resolve : Place → BenchM τ UInt64
  | absolute address => return address
  | onEndpoint handle index offset => do
    match (← bench).endpoints[handle]? with
    | some e => return (← HostM.endpoint e).ring.base + .ofNat (Trb.byteSize * index + offset)
    | none => return 0
  | onCommands index offset => do
    let base := (← HostM.controller).commands.ring.base
    return base + .ofNat (Trb.byteSize * index + offset)

/-- The event described; what is left out is zero. -/
def EventSpec.event (spec : EventSpec) : BenchM τ TransferEvent := do
  let address ← spec.place.elim (pure 0) Place.resolve
  return ⟨spec.code, spec.residual, spec.slot.getD 0, spec.endpoint.getD 0, address⟩

/-- The event described, for an endpoint. -/
def EventSpec.eventFor (spec : EventSpec) (e : EndpointRef) : BenchM τ TransferEvent := do
  let e ← HostM.endpoint e
  let place := Place.absolute (e.ring.base + UInt64.ofNat (Trb.byteSize * spec.index))
  { spec with
    slot := spec.slot.getD e.owner.slot
    endpoint := spec.endpoint.getD e.id
    place := spec.place.getD place }.event

/-! ### Requests -/

def hold (r : Request (Routine τ)) : BenchM τ Unit := modifyBench fun b => { b with held := some r }

/-- The request described: the one held, or a new one whose routine submits it again to `e`. -/
def makeRequest (spec : RequestSpec τ) (e : EndpointRef) :
    BenchAttempt τ (Request (Routine τ)) := do
  let b ← lift bench
  match b.held.filter fun _ => spec.held with
  | some r =>
    lift (modifyBench fun b => { b with held := none })
    return r
  | none =>
    let id ← lift (HostM.onBus BusM.allocate)
    let routine := spec.routine.map fun routine => { routine with endpoint := some e }
    HostAttempt.ofAttempt ({ spec with routine := routine }.build id)

/-- Submit a request; one that is refused is held. -/
def submit (env : BenchEnv τ) (e : EndpointRef) (r : Request (Routine τ)) (timeout : UInt64) :
    BenchM τ (Answer τ) := do
  match ← Host.transferAsync env e r timeout with
  | .ok id => addRequest id
  | .error rejected =>
    hold rejected.request
    return .rejected rejected.error rejected.request

/-- A completion routine records its call, and may submit the request again. -/
def complete (env : BenchEnv τ) (routine : Routine τ) (r : Request (Routine τ)) :
    BenchM τ Unit := do
  let b ← bench
  let completion : Completion τ := { tag := routine.tag, request := r }
  modifyBench fun b => { b with completed := b.completed.push completion }
  match routine.endpoint, routine.again with
  | some e, again + 1 =>
    let r := { r with routine := some { routine with again := again } }
    let answer ← match ← Host.transferAsync env e r 0 with
      | .ok id => addRequest id
      | .error rejected => pure (.refused rejected.error)
    modifyBench fun b' => { b' with
      completed := b'.completed.setIfInBounds b.completed.size
        { completion with resubmission := some answer } }
  | _, _ => return ()

/-- A synchronous transfer. -/
def transfer (env : BenchEnv τ) (e : EndpointRef) (r : Request (Routine τ)) (timeout : UInt64)
    (call : Bool) : BenchM τ (Answer τ) := do
  let result ← Host.transfer env e r timeout
  let r := match result with
    | .ok r => r
    | .error failure => failure.request
  if call then Host.callRoutine env r else hold r
  return .transferred result call

/-! ### The steps -/

def EndpointStep.play (env : BenchEnv τ) (e : EndpointRef) : EndpointStep τ → BenchM τ (Answer τ)
  | .submit spec timeout => attempt (makeRequest spec e) fun r => Simulation.submit env e r timeout
  | .transfer spec timeout call =>
    attempt (makeRequest spec e) fun r => Simulation.transfer env e r timeout call
  | cancel request => do
    match (← bench).requests[request]? with
    | some id => return .flag (← Host.cancel env e id)
    | none => return .noHandle
  | event spec => do
    Host.transferEvent env e (← spec.eventFor e)
    return .nothing
  | expire now => return .number (← Host.pollEndpoint env now e)
  | invalidate => return .number (← Host.invalidate env e)
  | state => return .state (.of (← HostM.endpoint e))
  | info => return .info (← HostM.endpoint e)
  | ring => return .trbs (Ring.producer (← HostM.endpoint e).ring).written
  | setMaxPacketSize size => do
    match ← HostM.onEndpoint e (·.setMaxPacketSize size) with
    | .ok changed => return .flag changed
    | .error error => return .refused error
  | configureInput => do
    return .input (← HostM.ofExcept ((← HostM.endpoint e).configureIn .zero))
  | packetSizeInput device => do
    let input (current : Context.Device) : BenchM τ (Answer τ) := do
      return .input (← HostM.ofExcept ((← HostM.endpoint e).packetSizeInput current))
    match device with
    | none => input .zero
    | some device => withDevice device fun d => do input (← HostM.device d).context
  | post spec => do
    Simulation.post (transferEvent (← spec.eventFor e))
    return .nothing
  | slotEvent spec => do return .flag (← Host.slotEvent env (← spec.eventFor e))
  | recover => attempt_ (Host.recoverEndpoint env e)
  | text => return .text (← HostM.endpoint e).diagnostic

def DeviceStep.play (env : BenchEnv τ) (d : DeviceRef) : DeviceStep → BenchM τ (Answer τ)
  | context => return .context (← HostM.device d).context
  | endpointIds => do
    let endpoints ← (← HostM.device d).registered.mapM HostM.endpoint
    return .numbers (endpoints.map fun e => e.id.toNat)
  | endpoint id => do
    match (← HostM.device d).endpoint? id with
    | some e => return .info (← HostM.endpoint e)
    | none => return .nothing
  | register handle => withEndpoint handle fun e => attempt_ (Host.register d e)
  | newEndpoint descriptor => do
    let owner := (← HostM.device d).owner
    attempt (Host.newEndpointFor env owner (← bench).config descriptor) newEndpointAnswer
  | addressInput => showInput (Host.addressInput d)
  | configureInput handle => withEndpoint handle fun e => showInput (Host.configureInput d e)
  | event spec => do
    Host.deviceEvent env d (← spec.event)
    return .nothing
  | shutdown => return .number (← Host.shutdown env d)
  | text => return .text (← HostM.device d).diagnostic
  | detach => attempt_ (Host.detach env d)
  | configure descriptor => attempt (Host.configure env d descriptor) newEndpointAnswer
  | setMaxPacketSize size => attempt_ (Host.setMaxPacketSize env d size)
  | assign slot => attempt_ (Host.assign env slot d)
  | addressCommand slot setAddress =>
    attempt_ (Host.withInput (Host.addressInput d) fun input =>
      Host.addressDevice env slot input setAddress)
  | configureCommand handle slot deconfigure => withEndpoint handle fun e =>
    attempt_ (Host.withInput (Host.configureInput d e) fun input =>
      Host.configureEndpoint env slot input deconfigure)

/-- Consume the signal of the bench. -/
def takeSignal : BenchM τ Bool := do
  let (raised, signal) := (← bench).signal.take
  modifyBench fun b => { b with signal := signal }
  return raised

/-- Take the lock of the bench, unless it is held. -/
def takeLock : BenchM τ Bool := do
  match (← bench).lock.tryTake? with
  | none => return false
  | some lock =>
    modifyBench fun b => { b with lock := lock }
    return true

/-- Add to the value behind the lock. -/
def addToLocked (addend : UInt64) : BenchM τ (Answer τ) := do
  modifyBench fun b => { b with lock.value := b.lock.value + addend }
  return .number (← bench).lock.value.toNat

def MachineStep.play (env : BenchEnv τ) : MachineStep → BenchM τ (Answer τ)
  | advance milliseconds => onMachine (·.advance milliseconds)
  | pause => onMachine fun m => { m with paused := true }
  | resume => do
    modifyMachine fun m => { m with paused := false }
    Simulation.run env
    return .nothing
  | run => do
    Simulation.run env
    return .nothing
  | holdInterrupts hold => onMachine fun m => { m with holdsInterrupts := hold }
  | reply r => onMachine fun m => { m with replies := m.replies ++ [r] }
  | nextSlot slot => onMachine fun m => { m with nextSlot := slot }
  | post event place => do
    let parameter ← place.elim (pure event.parameter) Place.resolve
    Simulation.post { event with parameter := parameter }
    return .nothing
  | newControl owner => do
    attempt (Host.newEndpoint env owner (.control owner.speed) (← bench).config) newEndpointAnswer
  | newEndpoint owner descriptor => do
    attempt (Host.newEndpointFor env owner (← bench).config descriptor) newEndpointAnswer
  | newDevice owner port route => do
    attempt (Host.newDevice env owner port route (← bench).config) newDeviceAnswer
  | newSlots maxSlots entry =>
    attempt (HostAttempt.onBus (BusAttempt.slotTable env.toPlatform maxSlots)) fun table => do
      return .slots table (← HostM.ofExcept (table.contextAt entry))
  | newContexts => do
    let output ← HostM.onBus (BusAttempt.structureBuffer Context.Device.byteSize).run
    let input ← HostM.onBus (BusAttempt.structureBuffer Context.Input.byteSize).run
    return .flags [output.isOk, input.isOk]
  | drain limit => return .number (← Host.processUpTo env limit)
  | flushParked device => return .number (← Host.flushParked device)
  | parked => return .number (← Host.parked)
  | raise => onBench fun b => { b with signal := b.signal.raise }
  | clear => onBench fun b => { b with signal := b.signal.clear }
  | take => return .flag (← takeSignal)
  | isRaised => return .flag (← bench).signal.raised
  | await timeout => return .flag (← Host.awaitSignal env takeSignal timeout)
  | lock addend => do
    Host.awaitLock env takeLock
    addToLocked addend
  | tryLock addend => do if ← takeLock then addToLocked addend else return .nothing
  | unlock => onBench fun b => { b with lock := b.lock.release }
  | isLocked => return .flag (← bench).lock.held
where
  onMachine (f : Machine (Bench τ) → Machine (Bench τ)) : BenchM τ (Answer τ) := do
    modifyMachine f
    return .nothing
  onBench (f : Bench τ → Bench τ) : BenchM τ (Answer τ) := do
    modifyBench f
    return .nothing

/-- The identity of a device, if there is one. -/
def deviceAnswer : Option DeviceRef → BenchM τ (Answer τ)
  | none => return .nothing
  | some d => return .number (← HostM.device d).id.number.toNat

def HostStep.play (env : BenchEnv τ) : HostStep → BenchM τ (Answer τ)
  | checkRunning => attempt_ (Host.checkRunning env)
  | attach port speed route => attempt (Host.attach env port speed route) newDeviceAnswer
  | interrupt => return (← Host.handleInterrupt env).elim .nothing .address
  | hasPending => return .flag (← HostM.controller).events.hasPending
  | processCompletions => return .number (← Host.processCompletions env)
  | pollTimeouts => return .number (← Host.pollTimeouts env)
  | listen => do
    HostM.modifyController fun c => { c with rootHub := true }
    return .nothing
  | noOp => attempt_ (Host.noOp env)
  | enableSlot => attempt (Host.enableSlot env) fun slot => return .number slot.toNat
  | disableSlot slot => attempt_ (Host.disableSlot env slot)
  | stopEndpoint slot endpoint suspend => attempt_ (Host.stopEndpoint env slot endpoint suspend)
  | resetEndpoint slot endpoint => attempt_ (Host.resetEndpoint env slot endpoint)
  | command trb => attempt (Host.doCommand env trb) fun report => return .report report
  | commandCompleted place code slot => do
    Host.commandCompleted (← place.resolve) code slot
    return .nothing
  | isBusy => return .flag (← HostM.controller).commands.isBusy
  | commandRing => return .trbs (Ring.producer (← HostM.controller).commands.ring).written
  | addresses => return .addresses (← HostM.controller)
  | free slot => attempt (Host.freeSlot slot) deviceAnswer
  | device slot => do deviceAnswer ((← HostM.controller).slots.device? slot)
  | assigned => return .number (← HostM.controller).slots.assigned
  | contextAt entry => do
    return .address (← HostM.ofExcept ((← HostM.controller).slots.contextAt entry))
  | setScratchpad pointer => do
    HostM.setSlots ((← HostM.controller).slots.setScratchpad pointer)
    return .nothing

def Step.play (env : BenchEnv τ) : Step τ → BenchM τ (Answer τ)
  | endpoint handle step => withEndpoint handle fun e => step.play env e
  | device handle step => withDevice handle fun d => step.play env d
  | machine step => step.play env
  | host step => step.play env
  | skip => return .nothing

end UsbHost.Simulation
