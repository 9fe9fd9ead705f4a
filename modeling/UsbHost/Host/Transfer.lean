import UsbHost.Host.Memory
import UsbHost.Host.Wait

/-!
Transfers: requests on their way to an endpoint and back. An endpoint step yields deliveries; they
are handed on only after the step is complete, so that a completion routine finds the endpoint in
order and may use it.
-/

namespace UsbHost

variable {σ ρ : Type}

/-- A request that an endpoint has not taken, and why. It goes back to who submitted it. -/
structure Rejected (ρ : Type) where
  error : Error
  request : Request ρ
  deriving Inhabited

/-- Outcome of a synchronous transfer that did not succeed. The request always comes back. -/
inductive TransferError (ρ : Type)
  /-- The endpoint did not take the request. -/
  | rejected (error : Error) (request : Request ρ)
  /-- The transfer ended with a failure; the request tells how much was transferred. -/
  | failed (request : Request ρ)
  /-- Nothing was reported in time; the data buffer stays with the endpoint. -/
  | timeout (request : Request ρ)
  deriving Inhabited

namespace TransferError

/-- The request, whatever happened to it. -/
def request : TransferError ρ → Request ρ
  | rejected _ request | failed request | timeout request => request

/-- How the transfer failed on the bus; a request that was rejected never got there. -/
def failure? : TransferError ρ → Option TransferFailure
  | rejected .. => none
  | failed request | timeout request => request.failure?

end TransferError

namespace Host

open HostAttempt (lift)

/-- Hand a request to its completion routine; a request without one is dropped. -/
def callRoutine (env : Env σ ρ) (request : Request ρ) : HostM σ ρ Unit :=
  match request.routine with
  | some routine => env.complete routine { request with routine := none }
  | none => pure ()

/-- Put a request down for the task that waits for it. -/
def wake (waiter : WaiterId) (request : Request ρ) : HostM σ ρ Unit :=
  modify fun w => { w with
    waiters := w.waiters.modify waiter.index fun waiter =>
      { done := waiter.done.raise, request := some request } }

/-- Run the routine now, or park the request. If the queue is full, the routine runs now. -/
def finishAsync (env : Env σ ρ) (owner : Owner) (request : Request ρ) : HostM σ ρ Unit := do
  match owner.sink, (← get).completions with
  | .deferred, some queue =>
    match queue.enqueue request owner.device with
    | .ok queue => modify fun w => { w with completions := some queue }
    | .error request => callRoutine env request
  | _, _ => callRoutine env request

/-- Hand a finished request on. -/
def deliver (env : Env σ ρ) (owner : Owner) (delivery : Delivery ρ) : HostM σ ρ Unit :=
  match delivery.notify with
  | .waiter waiter => wake waiter delivery.request
  | .routine => finishAsync env owner delivery.request

/-- The bus address of the data of a request; 0 if it has none. -/
def dataAddress (env : Env σ ρ) (request : Request ρ) : HostM σ ρ UInt64 :=
  match request.buffer with
  | some buffer => HostM.translate env buffer.id
  | none => pure 0

/-- Plan a request, put it on the ring and ring the doorbell. -/
def submit (env : Env σ ρ) (e : EndpointRef) (request : Request ρ) (notify : Notify)
    (deadline : Option UInt64) : HostM σ ρ (Except Error RequestId) := do
  let endpoint ← HostM.endpoint e
  let data ← dataAddress env request
  match ← HostM.ofExcept (TdPlan.ofRequest endpoint.kind request data).run with
  | .error error => return .error error
  | .ok plan =>
    match ← HostM.onEndpoint e fun endpoint => endpoint.submit plan request notify deadline with
    | .error error => return .error error
    | .ok id =>
      HostM.onPlatform (env.doorbell endpoint.owner.slot endpoint.id.toUInt32)
      return .ok id

/-- Submit a request. If it is refused it comes back. -/
def entrust (env : Env σ ρ) (e : EndpointRef) (request : Request ρ) (notify : Notify)
    (deadline : Option UInt64) : HostM σ ρ (Except (Rejected ρ) RequestId) := do
  match ← submit env e request notify deadline with
  | .error error => return .error ⟨error, request⟩
  | .ok id => return .ok id

/-- The time `timeout` milliseconds from now. -/
def deadlineAfter (env : Env σ ρ) (timeout : UInt64) : HostM σ ρ UInt64 := do
  let now ← HostM.now env
  if now.toNat + timeout.toNat < UInt64.size then return now + timeout else throw .overflow

/-- Submit a request and go on. Its completion routine runs when the controller reports it, or when
it is cancelled or times out; timeout 0 stands for none. -/
def transferAsync (env : Env σ ρ) (e : EndpointRef) (request : Request ρ) (timeout : UInt64) :
    HostM σ ρ (Except (Rejected ρ) RequestId) := do
  let deadline ← if timeout = 0 then pure none else some <$> deadlineAfter env timeout
  entrust env e request .routine deadline

/-- Consume the signal of a waiter. -/
def takeDone (waiter : WaiterId) : HostM σ ρ Bool := do
  match (← get).waiters[waiter.index]? with
  | none => return false
  | some w =>
    let (raised, done) := w.done.take
    modify fun world => { world with
      waiters := world.waiters.setIfInBounds waiter.index { w with done := done } }
    return raised

/-- Pick up the request that was put down for a waiter. -/
def pickUp? (waiter : WaiterId) : HostM σ ρ (Option (Request ρ)) := do
  match (← get).waiters[waiter.index]? with
  | none => return none
  | some w =>
    modify fun world => { world with
      waiters := world.waiters.setIfInBounds waiter.index { w with request := none } }
    return w.request

/-- The waiter has been told that its request is finished. -/
def isDone (waiter : WaiterId) : HostM σ ρ Bool := do
  return (← get).waiters[waiter.index]?.any fun w => w.done.raised

/-- Wait for a submitted request. When the time is up the request is given back, unless it has
finished in the meantime. -/
def awaitRequest (env : Env σ ρ) (e : EndpointRef) (id : RequestId) (waiter : WaiterId)
    (timeout : UInt64) : HostM σ ρ (Except (TransferError ρ) (Request ρ)) := do
  if !(← awaitSignal env (takeDone waiter) timeout) then
    let delivery ← HostM.onEndpoint e fun endpoint => .ok (endpoint.giveBack id .timeout)
    if let some delivery := delivery then
      return .error (.timeout delivery.request)
    awaitSome env (return if ← isDone waiter then some () else none) env.patience
  let request ← awaitSome env (pickUp? waiter) env.patience
  return if request.isSuccess then .ok request else .error (.failed request)

/-- Submit a request and wait for it; timeout 0 stands for the endpoint's default. A completion
routine does not run, and comes back with the request. -/
def transfer (env : Env σ ρ) (e : EndpointRef) (request : Request ρ) (timeout : UInt64) :
    HostM σ ρ (Except (TransferError ρ) (Request ρ)) := do
  let routine := request.routine
  let restore (request : Request ρ) : Request ρ := { request with routine := routine }
  let endpoint ← HostM.endpoint e
  let timeout := if timeout = 0 then endpoint.defaultTimeout else timeout
  let waiter : WaiterId ←
    modifyGet fun w => (⟨w.waiters.size⟩, { w with waiters := w.waiters.push {} })
  match ← entrust env e { request with routine := none } (.waiter waiter) none with
  | .error rejected => return .error (.rejected rejected.error (restore rejected.request))
  | .ok id =>
    match ← awaitRequest env e id waiter timeout with
    | .ok request => return .ok (restore request)
    | .error (.rejected error request) => return .error (.rejected error (restore request))
    | .error (.failed request) => return .error (.failed (restore request))
    | .error (.timeout request) => return .error (.timeout (restore request))

/-- Hand a transfer event to an endpoint. -/
def transferEvent (env : Env σ ρ) (e : EndpointRef) (event : TransferEvent) :
    HostM σ ρ Unit := do
  let owner := (← HostM.endpoint e).owner
  let delivery ← HostM.onEndpoint e fun endpoint => endpoint.transferEvent event
  if let some delivery := delivery then
    deliver env owner delivery

/-- Cancel a request; `false` if it has finished already. -/
def cancel (env : Env σ ρ) (e : EndpointRef) (id : RequestId) : HostM σ ρ Bool := do
  let owner := (← HostM.endpoint e).owner
  match ← HostM.onEndpoint e fun endpoint => .ok (endpoint.giveBack id .aborted) with
  | some delivery =>
    deliver env owner delivery
    return true
  | none => return false

/-- Give back the requests of an endpoint that have timed out, and count them. -/
def pollEndpoint (env : Env σ ρ) (now : UInt64) (e : EndpointRef) : HostM σ ρ Nat := do
  let owner := (← HostM.endpoint e).owner
  let deliveries ← HostM.onEndpoint e fun endpoint => .ok (endpoint.expire now)
  deliveries.forM (deliver env owner)
  return deliveries.length

/-- Shut an endpoint down, and count the requests dropped. -/
def invalidate (env : Env σ ρ) (e : EndpointRef) : HostM σ ρ Nat := do
  let owner := (← HostM.endpoint e).owner
  let (count, woken) ← HostM.onEndpoint e fun endpoint => .ok endpoint.invalidate
  woken.forM (deliver env owner)
  return count

/-- Create an endpoint; it still has to be configured on the controller. -/
def newEndpoint (env : Env σ ρ) (owner : Owner) (traits : EndpointTraits) (config : Config) :
    HostAttempt σ ρ EndpointRef := do
  let ring ← HostAttempt.onBus
    (BusAttempt.producerRing env.toPlatform .transfer config.transferRingSize)
  lift (HostM.addEndpoint (.create owner traits config ring))

/-- Create the endpoint that a descriptor describes. -/
def newEndpointFor (env : Env σ ρ) (owner : Owner) (config : Config)
    (descriptor : EndpointDescriptor) : HostAttempt σ ρ EndpointRef := do
  let traits ← HostAttempt.ofExcept (EndpointTraits.ofDescriptor owner.speed descriptor)
  newEndpoint env owner traits config

end Host

end UsbHost
