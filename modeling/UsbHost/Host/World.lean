import UsbHost.Command.Basic
import UsbHost.Event.Basic
import UsbHost.Queue.Completion
import UsbHost.Slot.Table

/-!
The state of a host, and the surroundings that it runs in.

A host owns objects that refer to each other: devices, their endpoints, tasks blocked in a
transfer, and the memory of input contexts. They live in the tables of a `World` and are named by
their place there, so that a device which has been detached, or an endpoint which has been shut
down, can still be asked. Nothing is ever taken out of a table.

The surroundings are an `Env`: the registers and the clock of the platform, what completion
routines do, and what the rest of the system does while a task is blocked. The platform has a state
of its own, of type `σ`. A blocked task yields until what it waits for has happened; `patience`
bounds how often, and a task that has used it up is stuck.
-/

namespace UsbHost

/-- A task blocked in a synchronous transfer, and where its request is put down for it. -/
structure Waiter (ρ : Type) where
  done : Signal := {}
  request : Option (Request ρ) := none
  deriving Inhabited

/-- Memory of an input context. A context that is no longer alive has been freed; the memory still
shows what was written last. -/
structure InputBuffer where
  id : Dma.BufferId
  content : Context.Input
  alive : Bool
  deriving Inhabited

/-- What lies beneath the host: the platform and the allocator of shared memory. -/
structure Bus (σ : Type) where
  platform : σ
  nextBuffer : Nat := 0
  deriving Inhabited

/-- The controller, as far as the host keeps track of it. -/
structure Controller where
  config : Config
  slots : SlotTable
  commands : CommandRing
  events : EventQueue
  /-- Somebody listens to port status changes. -/
  rootHub : Bool := false
  nextDevice : UInt32 := 1
  deriving Inhabited

structure World (σ ρ : Type) where
  bus : Bus σ
  controller : Controller
  devices : Array Device := #[]
  endpoints : Array (Endpoint ρ) := #[]
  waiters : Array (Waiter ρ) := #[]
  inputs : Array InputBuffer := #[]
  /-- Finished requests that wait for task level; absent in immediate mode. -/
  completions : Option (CompletionQueue (Request ρ)) := none

instance {σ ρ : Type} [Inhabited σ] : Inhabited (World σ ρ) :=
  ⟨{ bus := default, controller := default }⟩

/-- Registers and clock of a platform. -/
structure Platform (σ : Type) where
  /-- Monotonic time in milliseconds. -/
  now : σ → UInt64
  /-- The bus address of shared memory. -/
  busAddress : Dma.BufferId → σ → UInt64 × σ
  /-- Write a doorbell register; slot 0 is the command ring's. -/
  doorbell : UInt8 → UInt32 → σ → σ
  /-- Program the command ring: its base and first cycle state. -/
  setCommandRing : UInt64 → Bool → σ → σ
  /-- Program the event ring: address and contents of the segment table, and the dequeue pointer. -/
  setEventRing : UInt64 → SegmentTable → UInt64 → σ → σ
  /-- Tell the controller how far events have been handled. -/
  writeEventDequeue : UInt64 → σ → σ
  /-- Program the device context array and the number of slots. -/
  setContextArray : UInt64 → UInt8 → σ → σ

/-- Operations on what lies beneath the host. -/
abbrev BusM (σ : Type) := EStateM Fault (Bus σ)

/-- Operations on a host. A fault keeps what has been done up to it. -/
abbrev HostM (σ ρ : Type) := EStateM Fault (World σ ρ)

/-- The surroundings of a host. -/
structure Env (σ ρ : Type) extends Platform σ where
  /-- Let the rest of the system run for a while. -/
  yieldNow : HostM σ ρ Unit
  /-- Run a completion routine on the request that it belongs to. -/
  complete : ρ → Request ρ → HostM σ ρ Unit
  /-- Tell the root hub that the status of a port has changed. -/
  portChanged : UInt8 → HostM σ ρ Unit
  /-- How often a blocked task yields before it is stuck. -/
  patience : Nat

variable {σ ρ : Type}

/-! ### The bus -/

namespace BusM

/-- Change the state of the platform. -/
def onPlatform (f : σ → σ) : BusM σ Unit := modify fun b => { b with platform := f b.platform }

/-- A buffer identity that has not been used before. -/
def allocate : BusM σ Dma.BufferId :=
  modifyGet fun b => (⟨b.nextBuffer⟩, { b with nextBuffer := b.nextBuffer + 1 })

/-- The bus address of shared memory. -/
def translate (platform : Platform σ) (id : Dma.BufferId) : BusM σ UInt64 :=
  modifyGet fun b =>
    let (address, s) := platform.busAddress id b.platform
    (address, { b with platform := s })

end BusM

/-! ### Access to the world -/

namespace HostM

/-- A step that may fault but has no effect. -/
def ofExcept {α : Type} : Except Fault α → HostM σ ρ α
  | .ok a => pure a
  | .error f => throw f

/-- Run an operation on what lies beneath. -/
def onBus {α : Type} (op : BusM σ α) : HostM σ ρ α := fun w =>
  match op w.bus with
  | .ok a bus => .ok a { w with bus := bus }
  | .error f bus => .error f { w with bus := bus }

def onPlatform (f : σ → σ) : HostM σ ρ Unit := onBus (.onPlatform f)

def now (env : Env σ ρ) : HostM σ ρ UInt64 := return env.now (← get).bus.platform

def translate (env : Env σ ρ) (id : Dma.BufferId) : HostM σ ρ UInt64 :=
  onBus (.translate env.toPlatform id)

def endpoint (e : EndpointRef) : HostM σ ρ (Endpoint ρ) := do
  match (← get).endpoints[e.index]? with
  | some endpoint => return endpoint
  | none => throw .outOfBounds

def setEndpoint (e : EndpointRef) (endpoint : Endpoint ρ) : HostM σ ρ Unit :=
  modify fun w => { w with endpoints := w.endpoints.setIfInBounds e.index endpoint }

/-- Run a step of an endpoint. -/
def onEndpoint {α : Type} (e : EndpointRef)
    (step : Endpoint ρ → Except Fault (α × Endpoint ρ)) : HostM σ ρ α := do
  let (a, endpoint) ← ofExcept (step (← endpoint e))
  setEndpoint e endpoint
  return a

def addEndpoint (endpoint : Endpoint ρ) : HostM σ ρ EndpointRef :=
  modifyGet fun w => (⟨w.endpoints.size⟩, { w with endpoints := w.endpoints.push endpoint })

def device (d : DeviceRef) : HostM σ ρ Device := do
  match (← get).devices[d.index]? with
  | some device => return device
  | none => throw .outOfBounds

def setDevice (d : DeviceRef) (device : Device) : HostM σ ρ Unit :=
  modify fun w => { w with devices := w.devices.setIfInBounds d.index device }

def addDevice (device : Device) : HostM σ ρ DeviceRef :=
  modifyGet fun w => (⟨w.devices.size⟩, { w with devices := w.devices.push device })

def controller : HostM σ ρ Controller := return (← get).controller

def modifyController (f : Controller → Controller) : HostM σ ρ Unit :=
  modify fun w => { w with controller := f w.controller }

def setCommands (commands : CommandRing) : HostM σ ρ Unit :=
  modifyController fun c => { c with commands := commands }

def setSlots (slots : SlotTable) : HostM σ ρ Unit :=
  modifyController fun c => { c with slots := slots }

end HostM

/-- Operations on a host that may be refused. -/
abbrev HostAttempt (σ ρ : Type) := ExceptT Error (HostM σ ρ)

namespace HostAttempt

/-- An operation that is never refused. -/
def lift {α : Type} (op : HostM σ ρ α) : HostAttempt σ ρ α := .mk (.ok <$> op)

/-- A step that may be refused, or fault, but has no effect. -/
def ofAttempt {α : Type} (attempt : Attempt α) : HostAttempt σ ρ α :=
  .mk (HostM.ofExcept attempt.run)

def ofExcept {α : Type} (result : Except Error α) : HostAttempt σ ρ α := .mk (pure result)

end HostAttempt

end UsbHost
