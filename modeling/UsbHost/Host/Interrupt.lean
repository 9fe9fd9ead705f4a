import UsbHost.Host.Command

/-!
The interrupt handler. It takes events off the event ring one by one, up to a limit per interrupt,
hands each to whom it is for, and tells the controller how far it has come. Events beyond the limit
stay on the ring.
-/

namespace UsbHost.Host

variable {σ ρ : Type}

/-- Take the next event off the ring, if there is one; with it comes the address of the one
after. -/
def nextEvent? : HostM σ ρ (Option (Trb × UInt64)) := do
  let events := (← HostM.controller).events
  match events.ring.peek? with
  | none => return none
  | some t =>
    let (address, ring) ← HostM.ofExcept events.ring.consume
    HostM.modifyController fun c => { c with events.ring := ring }
    return some (t, address)

/-- Hand an event to whom it is for. -/
def dispatch (env : Env σ ρ) (listening : Bool) (event : Event) : HostM σ ρ Unit :=
  match event with
  | .transfer event => discard (slotEvent env event)
  | .command address code slot => commandCompleted address code slot
  | .port number => if listening then env.portChanged number else pure ()
  | .other => pure ()

/-- Handle at most `limit` events. The result is the address after the last one handled, or
`dequeue` if there was none. -/
def handleUpTo (env : Env σ ρ) (listening : Bool) (dequeue : Option UInt64) :
    (limit : Nat) → HostM σ ρ (Option UInt64)
  | 0 => return dequeue
  | limit + 1 => do
    match ← nextEvent? with
    | none => return dequeue
    | some (t, address) =>
      dispatch env listening (.ofTrb t)
      handleUpTo env listening (some address) limit

/-- Handle the events of one interrupt. The result is the new dequeue pointer, which the controller
has been told, or nothing if no event was there. -/
def handleInterrupt (env : Env σ ρ) : HostM σ ρ (Option UInt64) := do
  let controller ← HostM.controller
  let dequeue ← handleUpTo env controller.rootHub none controller.events.maxEvents
  if let some address := dequeue then
    HostM.onPlatform (env.writeEventDequeue address)
  return dequeue

end UsbHost.Host
