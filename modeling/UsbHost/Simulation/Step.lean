import UsbHost.Host.Basic
import UsbHost.Simulation.Machine
import UsbHost.Simulation.Routine

/-!
Scripts of a simulation: the steps, what they answer, and what a script works with. Steps name
devices, endpoints and requests by handles, which count the objects of each kind in the order in
which steps have created them.
-/

namespace UsbHost.Simulation

/-- A bus address. -/
inductive Place
  | absolute (address : UInt64)
  /-- `offset` bytes above TRB `index` of the ring of an endpoint. -/
  | onEndpoint (endpoint index offset : Nat)
  /-- `offset` bytes above TRB `index` of the command ring. -/
  | onCommands (index offset : Nat)
  deriving DecidableEq, Inhabited

/-- A transfer event. What is left out is filled in from the endpoint concerned. -/
structure EventSpec where
  code : CompletionCode := .success
  residual : UInt32 := 0
  slot : Option UInt8 := none
  endpoint : Option UInt8 := none
  place : Option Place := none
  /-- The TRB of the endpoint's ring that the event is about, unless `place` names it. -/
  index : Nat := 0
  deriving DecidableEq, Inhabited

inductive EndpointStep (τ : Type)
  | submit (spec : RequestSpec τ) (timeout : UInt64)
  /-- A synchronous transfer. The routine is called afterwards, or the request is held. -/
  | transfer (spec : RequestSpec τ) (timeout : UInt64) (call : Bool)
  | cancel (request : Nat)
  | event (spec : EventSpec)
  | expire (now : UInt64)
  | invalidate
  | state
  | info
  | ring
  | setMaxPacketSize (size : UInt16)
  | configureInput
  | packetSizeInput (device : Option Nat)
  /-- Post a transfer event without an interrupt. -/
  | post (spec : EventSpec)
  /-- Hand a transfer event to the slot table. -/
  | slotEvent (spec : EventSpec)
  | recover
  | text
  deriving Inhabited

inductive DeviceStep
  | context
  | endpointIds
  | endpoint (id : UInt8)
  | register (endpoint : Nat)
  | newEndpoint (descriptor : EndpointDescriptor)
  | addressInput
  | configureInput (endpoint : Nat)
  | event (spec : EventSpec)
  | shutdown
  | text
  | detach
  | configure (descriptor : EndpointDescriptor)
  | setMaxPacketSize (size : UInt16)
  | assign (slot : UInt8)
  | addressCommand (slot : UInt8) (setAddress : Bool)
  | configureCommand (endpoint : Nat) (slot : UInt8) (deconfigure : Bool)
  deriving Inhabited

/-- Steps on the machine, and on what belongs to no device. -/
inductive MachineStep
  | advance (milliseconds : UInt64)
  | pause
  | resume
  | run
  | holdInterrupts (hold : Bool)
  | reply (reply : Reply)
  | nextSlot (slot : UInt8)
  | post (event : Trb) (place : Option Place)
  | newControl (owner : Owner)
  | newEndpoint (owner : Owner) (descriptor : EndpointDescriptor)
  | newDevice (owner : Owner) (port : UInt8) (route : Option HubRoute)
  | newSlots (maxSlots entry : UInt8)
  /-- Allocate an output context and an input context; the answer says which of them succeeded. -/
  | newContexts
  /-- Run the routines of at most so many parked requests. -/
  | drain (limit : Nat)
  | flushParked (device : DeviceId)
  | parked
  | raise
  | clear
  | take
  | isRaised
  | await (timeout : UInt64)
  /-- Take the lock and add to the value behind it. -/
  | lock (addend : UInt64)
  | tryLock (addend : UInt64)
  | unlock
  | isLocked
  deriving Inhabited

/-- Steps on the host controller. -/
inductive HostStep
  | checkRunning
  | attach (port : UInt8) (speed : Speed) (route : Option HubRoute)
  | interrupt
  | hasPending
  | processCompletions
  | pollTimeouts
  | listen
  | noOp
  | enableSlot
  | disableSlot (slot : UInt8)
  | stopEndpoint (slot endpoint : UInt8) (suspend : Bool)
  | resetEndpoint (slot endpoint : UInt8)
  | command (trb : Trb)
  | commandCompleted (place : Place) (code : CompletionCode) (slot : UInt8)
  | isBusy
  | commandRing
  | addresses
  | free (slot : UInt8)
  | device (slot : UInt8)
  | assigned
  | contextAt (entry : UInt8)
  | setScratchpad (pointer : UInt64)
  deriving Inhabited

inductive Step (τ : Type)
  | endpoint (handle : Nat) (step : EndpointStep τ)
  | device (handle : Nat) (step : DeviceStep)
  | machine (step : MachineStep)
  | host (step : HostStep)
  /-- Do nothing. -/
  | skip
  deriving Inhabited

/-! ### Answers -/

/-- State of an endpoint. -/
structure EndpointState where
  inFlight : Nat
  stage : ControlStage
  headIsTombstone : Bool
  valid : Bool
  deriving DecidableEq, Inhabited

def EndpointState.of {ρ : Type} (e : Endpoint ρ) : EndpointState :=
  ⟨e.inFlight.length, e.controlStage, e.headIsTombstone, e.valid⟩

inductive Answer (τ : Type)
  | nothing
  /-- A handle that the step names does not exist. -/
  | noHandle
  | done
  | refused (error : Error)
  | flag (value : Bool)
  | flags (values : List Bool)
  | number (value : Nat)
  | numbers (values : List Nat)
  | address (value : UInt64)
  | text (value : String)
  | trbs (written : List (Nat × Trb))
  | state (state : EndpointState)
  | info (endpoint : Endpoint (Routine τ))
  | context (context : Context.Device)
  | input (input : Context.Input)
  | report (report : CommandReport)
  | slots (table : SlotTable) (entry : UInt64)
  | addresses (controller : Controller)
  /-- An object has been created, and has this handle. -/
  | newRequest (handle : Nat)
  | newEndpoint (handle : Nat) (endpoint : Endpoint (Routine τ))
  | newDevice (handle : Nat) (control : Option Nat) (device : Device)
  | rejected (error : Error) (request : Request (Routine τ))
  | transferred (result : Except (TransferError (Routine τ)) (Request (Routine τ))) (called : Bool)

instance {τ : Type} : Inhabited (Answer τ) := ⟨.nothing⟩

/-- A call of a completion routine. -/
structure Completion (τ : Type) where
  tag : τ
  request : Request (Routine τ)
  /-- What became of the request if it was submitted again. -/
  resubmission : Option (Answer τ) := none
  deriving Inhabited

/-! ### The bench -/

/-- What a script works with: its settings, its handles, and objects of its own. -/
structure Bench (τ : Type) where
  config : Config
  /-- Where finished requests of endpoints go that steps create. -/
  sink : Sink
  completed : Array (Completion τ) := #[]
  /-- Answers of the steps taken while a task was blocked. -/
  yields : Array (Answer τ) := #[]
  /-- The steps for each further turn of a blocked task. -/
  turns : List (List (Step τ)) := []
  devices : Array DeviceRef := #[]
  endpoints : Array EndpointRef := #[]
  requests : Array RequestId := #[]
  /-- The request that was handed back last. -/
  held : Option (Request (Routine τ)) := none
  signal : Signal := {}
  lock : Lock UInt64 := { value := 0 }
  deriving Inhabited

end UsbHost.Simulation
