import UsbHost.Endpoint.Plan
import UsbHost.Ring.Producer

/-!
Requests in flight. A record follows one transfer descriptor from the ring to its last event. A
request that times out or is cancelled leaves a tombstone: the record stays, and keeps the data
buffer, until the controller has reported the TD, because until then it may still use the memory.
-/

namespace UsbHost

/-- A transfer event, as the event ring reports it. -/
structure TransferEvent where
  code : CompletionCode
  /-- Bytes of the reported TRB that were not transferred. -/
  residual : UInt32
  slot : UInt8
  endpoint : UInt8
  /-- Bus address of the TRB that the event is about. -/
  address : UInt64
  deriving DecidableEq, Inhabited

def TransferEvent.ofTrb (t : Trb) : TransferEvent :=
  ⟨t.completionCode, t.residual, t.slot, t.endpoint, t.parameter⟩

/-- Stage of a control transfer. -/
inductive ControlStage
  | idle
  | setup
  | data
  | status
  deriving DecidableEq, Inhabited

/-- The word that diagnostics use for a stage. -/
def ControlStage.name : ControlStage → String
  | idle => "Idle"
  | setup => "Setup"
  | data => "Data"
  | status => "Status"

/-- Names a submitted request on its endpoint. -/
structure RequestId where
  number : UInt64
  deriving DecidableEq, Inhabited

/-- A task blocked in a synchronous transfer. -/
structure WaiterId where
  index : Nat
  deriving DecidableEq, Inhabited

/-- Who is told that a request has finished. -/
inductive Notify
  /-- Its completion routine. -/
  | routine
  /-- The task that waits for it. -/
  | waiter (id : WaiterId)
  deriving DecidableEq, Inhabited

/-- A finished request on its way to whoever is told. -/
structure Delivery (ρ : Type) where
  notify : Notify
  request : Request ρ
  deriving Inhabited

/-- What a record holds of its request. -/
inductive Cargo (ρ : Type)
  | live (request : Request ρ) (notify : Notify)
  /-- The request has been given back; its buffer stays. -/
  | tombstone (retained : Option Dma.Buffer)
  deriving Inhabited

def Cargo.isTombstone {ρ : Type} : Cargo ρ → Bool
  | live .. => false
  | tombstone _ => true

/-- Take the request back with `failure`, and leave its buffer behind. -/
def Cargo.bury {ρ : Type} (failure : TransferFailure) : Cargo ρ → Option (Delivery ρ) × Cargo ρ
  | live request notify =>
    let (buffer, request) := request.takeBuffer
    (some ⟨notify, request.finish (.failed failure) 0⟩, tombstone buffer)
  | tombstone retained => (none, tombstone retained)

/-- Final status and length of a transfer descriptor. -/
structure Outcome where
  status : Request.Status
  length : Nat
  deriving DecidableEq, Inhabited

def Outcome.ofCode (code : CompletionCode) (length : Nat) : Outcome :=
  ⟨if code.isTransferOk then .success else .failed code.failure, length⟩

structure InFlight (ρ : Type) where
  id : RequestId
  cargo : Cargo ρ
  /-- Place of the first TRB on the ring. -/
  firstIndex : Nat
  trbCount : Nat
  /-- Bus address of the last TRB. -/
  lastTrb : UInt64
  stage : ControlStage
  hasData : Bool
  dataLength : Nat
  /-- Bytes that earlier events of the TD have reported. -/
  transferred : Nat := 0
  deadline : Option UInt64
  deriving Inhabited

namespace InFlight

variable {ρ : Type}

def isTombstone (r : InFlight ρ) : Bool := r.cargo.isTombstone

/-- Which TRB of the TD lies at `address`, if one does. -/
def position? (r : InFlight ρ) (ring : ProducerRing) (address : UInt64) : Option Nat := do
  let index ← ring.indexOf? address
  guard (index < ring.capacity)
  let position := (index + ring.capacity - r.firstIndex) % ring.capacity
  guard (position < r.trbCount)
  return position

/-- Give the request back with `failure`, once. -/
def bury (r : InFlight ρ) (failure : TransferFailure) : Option (Delivery ρ) × InFlight ρ :=
  let (delivery, cargo) := r.cargo.bury failure
  (delivery, { r with cargo := cargo })

/-! ### Events -/

/-- Stage that TRB `position` of a control TD belongs to. -/
def stageAt (r : InFlight ρ) (position : Nat) : ControlStage :=
  if position = 0 then .setup else if r.hasData && position = 1 then .data else .status

/-- The first failure ends a control transfer, and so does the status stage. The data stage tells
how many bytes have been transferred. -/
def advanceControl (r : InFlight ρ) (position : Nat) (event : TransferEvent) :
    InFlight ρ × Option Outcome :=
  let stage := r.stageAt position
  if !event.code.isTransferOk then
    ({ r with stage := stage }, some (.ofCode event.code r.transferred))
  else
    match stage with
    | .setup => ({ r with stage := if r.hasData then .data else .status }, none)
    | .data =>
      ({ r with
          stage := .status
          transferred := r.dataLength - event.residual.toNat }, none)
    | _ => ({ r with stage := .idle }, some ⟨.success, r.transferred⟩)

/-- The first failure or short packet ends a bulk transfer, and so does the last TRB. -/
def bulkOutcome (r : InFlight ρ) (position : Nat) (event : TransferEvent) : Option Outcome :=
  let transferred := position * Trb.maxTransfer +
    (TdPlan.chunkLength r.dataLength position - event.residual.toNat)
  let isLast := position + 1 = r.trbCount
  if !event.code.isTransferOk || isLast || event.code == .shortPacket then
    some (.ofCode event.code transferred)
  else
    none

/-- Only the last packet ends an isochronous transfer; the others go on after an error. -/
def isochronousOutcome (r : InFlight ρ) (position : Nat) (event : TransferEvent) :
    Option Outcome :=
  if position + 1 < r.trbCount then
    none
  else
    some (.ofCode event.code (r.dataLength - event.residual.toNat))

/-- Take in an event at TRB `position`; the outcome is there once the TD is done. -/
def advance (r : InFlight ρ) (kind : TransferKind) (position : Nat) (event : TransferEvent) :
    InFlight ρ × Option Outcome :=
  match kind with
  | .control => r.advanceControl position event
  | .bulk | .interrupt => (r, r.bulkOutcome position event)
  | .isochronous => (r, r.isochronousOutcome position event)

end InFlight

end UsbHost
