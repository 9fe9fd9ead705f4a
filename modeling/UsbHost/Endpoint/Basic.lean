import UsbHost.DeviceId
import UsbHost.Endpoint.InFlight

/-!
Endpoints. An endpoint owns a transfer ring and the list of its requests in flight, oldest first.
The controller works through the ring in order, so a transfer event concerns the oldest request,
and events are matched by the address of the TRB they name. Everything here is a function on the
state of one endpoint; a finished request comes out as a `Delivery`, which the caller hands on.
-/

namespace UsbHost

/-- Where finished asynchronous requests of an endpoint go. -/
inductive Sink
  /-- The completion routine runs at once. -/
  | immediate
  /-- The request is parked on the completion queue. -/
  | deferred
  deriving DecidableEq, Inhabited

/-- What all endpoints of a device have in common. -/
structure Owner where
  device : DeviceId
  slot : UInt8
  speed : Speed
  sink : Sink
  deriving DecidableEq, Inhabited

structure Endpoint (ρ : Type) where
  owner : Owner
  traits : EndpointTraits
  /-- Requests in flight at most. -/
  window : Nat
  /-- Timeout of a synchronous transfer that names none. -/
  defaultTimeout : UInt64
  nextRequest : UInt64 := 1
  ring : ProducerRing
  inFlight : List (InFlight ρ) := []
  /-- New requests are taken. -/
  valid : Bool := true
  maxPacketSize : UInt16
  deriving Inhabited

/-- Names an endpoint. -/
structure EndpointRef where
  index : Nat
  deriving DecidableEq, Inhabited

namespace Endpoint

variable {ρ : Type}

/-- A new endpoint on an unused ring. -/
def create (owner : Owner) (traits : EndpointTraits) (config : Config) (ring : ProducerRing) :
    Endpoint ρ where
  owner := owner
  traits := traits
  window := config.requestWindow
  defaultTimeout := config.transferTimeout
  ring := ring
  maxPacketSize := traits.maxPacketSize

def id (e : Endpoint ρ) : UInt8 := e.traits.id

def kind (e : Endpoint ρ) : TransferKind := e.traits.kind

/-- Stage of the oldest control transfer. -/
def controlStage (e : Endpoint ρ) : ControlStage := e.inFlight.head?.elim .idle InFlight.stage

def headIsTombstone (e : Endpoint ρ) : Bool := e.inFlight.head?.any InFlight.isTombstone

/-! ### Submission -/

/-- Why a planned transfer is refused now, if it is. -/
def refusal? (e : Endpoint ρ) (plan : TdPlan) : Option Error :=
  if !e.valid then
    some (.endpointNotValid e.id)
  else if e.window ≤ e.inFlight.length then
    some (.resourceExhausted "URB window")
  else if e.ring.capacity - 1 < plan.trbs.length then
    some (.invalidArgument "urb" "transfer does not fit in the transfer ring")
  else if e.ring.freeSlots < plan.trbs.length then
    some (.ringFull .transfer)
  else
    none

/-- Put TRBs on a ring; the result is the address of the last one. -/
def enqueueAll (ring : ProducerRing) (last : UInt64) :
    List Trb → Except Fault (UInt64 × ProducerRing)
  | [] => .ok (last, ring)
  | t :: rest => do
    match ← ring.enqueue t with
    | some (address, ring) => enqueueAll ring address rest
    | none => enqueueAll ring last rest

/-- Take a planned request. It uses up a request ID also when it is refused. -/
def submit (e : Endpoint ρ) (plan : TdPlan) (request : Request ρ) (notify : Notify)
    (deadline : Option UInt64) : Except Fault (Except Error RequestId × Endpoint ρ) := do
  let id : RequestId := ⟨e.nextRequest⟩
  let e := { e with nextRequest := e.nextRequest + 1 }
  match e.refusal? plan with
  | some error => return (.error error, e)
  | none =>
    let (lastTrb, ring) ← enqueueAll e.ring 0 plan.trbs
    let record : InFlight ρ := {
      id := id
      cargo := .live request notify
      firstIndex := e.ring.enqueueIndex
      trbCount := plan.trbs.length
      lastTrb := lastTrb
      stage := if e.kind = .control then .setup else .idle
      hasData := plan.hasData
      dataLength := plan.dataLength
      deadline := deadline }
    return (.ok id, { e with ring := ring, inFlight := e.inFlight ++ [record] })

/-! ### Events -/

/-- Take in a transfer event. An event that does not name a TRB of the oldest TD is stale and
changes nothing; one that ends the TD releases its TRBs. -/
def transferEvent (e : Endpoint ρ) (event : TransferEvent) :
    Except Fault (Option (Delivery ρ) × Endpoint ρ) :=
  if event.code.isRingReport then
    .ok (none, e)
  else
    match e.inFlight with
    | [] => .ok (none, e)
    | record :: rest =>
      match record.position? e.ring event.address with
      | none => .ok (none, e)
      | some position =>
        match record.advance e.kind position event with
        | (record, none) => .ok (none, { e with inFlight := record :: rest })
        | (record, some outcome) => do
          let (_, ring) ← e.ring.releaseThrough record.lastTrb
          let e := { e with ring := ring, inFlight := rest }
          match record.cargo with
          | .live request notify =>
            return (some ⟨notify, request.finish outcome.status outcome.length⟩, e)
          | .tombstone _ => return (none, e)

/-! ### Giving requests back early -/

/-- Bury the first record with the given ID. -/
def buryFirst (id : RequestId) (failure : TransferFailure) :
    List (InFlight ρ) → Option (Delivery ρ) × List (InFlight ρ)
  | [] => (none, [])
  | record :: rest =>
    if record.id = id then
      let (delivery, record) := record.bury failure
      (delivery, record :: rest)
    else
      let (delivery, rest) := buryFirst id failure rest
      (delivery, record :: rest)

/-- Give the request `id` back with `failure`, if it is still live. -/
def giveBack (e : Endpoint ρ) (id : RequestId) (failure : TransferFailure) :
    Option (Delivery ρ) × Endpoint ρ :=
  let (delivery, records) := buryFirst id failure e.inFlight
  (delivery, { e with inFlight := records })

/-- Bury the live records whose deadline has come; a deadline is looked at once. -/
def buryExpired (now : UInt64) : List (InFlight ρ) → List (Delivery ρ) × List (InFlight ρ)
  | [] => ([], [])
  | record :: rest =>
    let (deliveries, rest) := buryExpired now rest
    if record.deadline.any (· ≤ now) then
      let (delivery, record) := { record with deadline := none }.bury .timeout
      (delivery.toList ++ deliveries, record :: rest)
    else
      (deliveries, record :: rest)

/-- Give back the requests that have timed out, oldest first. -/
def expire (e : Endpoint ρ) (now : UInt64) : List (Delivery ρ) × Endpoint ρ :=
  let (deliveries, records) := buryExpired now e.inFlight
  (deliveries, { e with inFlight := records })

/-- Take no more requests and drop those in flight. Completion routines do not run; tasks that
wait are given their request back. The count includes tombstones. -/
def invalidate (e : Endpoint ρ) : (Nat × List (Delivery ρ)) × Endpoint ρ :=
  let deliveries := e.inFlight.filterMap fun record => (record.bury .aborted).1
  let woken := deliveries.filter fun delivery => delivery.notify ≠ .routine
  ((e.inFlight.length, woken), { e with valid := false, inFlight := [] })

/-! ### Packet size -/

/-- Record the packet size that the device descriptor gives. The result says whether the controller
has to be told: only at full speed can the first guess be wrong. -/
def setMaxPacketSize (e : Endpoint ρ) (size : UInt16) :
    Except Fault (Except Error Bool × Endpoint ρ) :=
  if e.id ≠ controlEndpointId then
    .error .packetSizeOffControlEndpoint
  else if e.owner.speed ≠ .full then
    .ok (.ok false, e)
  else if size < 8 ∨ 64 < size then
    .ok (.error (.invalidArgument "max_packet_size" "EP0 max packet size must be 8..=64"), e)
  else
    .ok (.ok true, { e with maxPacketSize := size })

/-! ### Text -/

/-- The form diagnostics print. -/
def diagnostic (e : Endpoint ρ) : String :=
  "Endpoint \x7b slot_id: " ++ toString e.owner.slot ++ ", endpoint_id: " ++ toString e.id ++
    ", type: " ++ e.kind.name ++ ", in: " ++ toString e.traits.isIn ++ ", .. \x7d"

end Endpoint

end UsbHost
