import UsbHost.Frame.Dispatcher

/-!
Host channels, from the side of whoever drives them. A stage is active while its channel works on
it or its outcome is looked at; otherwise it is parked in the dispatcher until its frame comes. At
start of frame due stages become active as long as channels are free. The driver of the channels
may queue stages of other transfers before it hands one back.
-/

namespace UsbHost.Frame

structure Channels (α : Type) where
  dispatcher : Dispatcher α
  /-- Stages that are not parked, oldest first. -/
  active : List (Stage α) := []
  deriving Inhabited

namespace Channels

variable {α : Type}

/-- Take the first active stage whose request satisfies `p`. -/
def take? (c : Channels α) (p : α → Bool) : Option (Stage α × Channels α) :=
  (c.active.find? fun stage => p stage.request).map fun stage =>
    (stage, { c with active := c.active.eraseP fun stage => p stage.request })

/-- Make a stage active. -/
def activate (c : Channels α) (stage : Stage α) : Channels α :=
  { c with active := c.active ++ [stage] }

/-- Record whether a stage has been parked; one that was refused becomes active. -/
def parkedOr (c : Channels α) :
    Except (Stage α) (UInt16 × Dispatcher α) → Except (Stage α) UInt16 × Channels α
  | .ok (frame, dispatcher) => (.ok frame, { c with dispatcher := dispatcher })
  | .error stage => (.error stage, c.activate stage)

/-- Park a stage for the frame that its scheduler asks for. -/
def queue (c : Channels α) (current : UInt16) (stage : Stage α) :
    Except Fault (Except (Stage α) UInt16 × Channels α) := do
  return c.parkedOr (← c.dispatcher.queueStage current stage)

/-- Park a periodic stage for its next service interval. -/
def queueDelayed (c : Channels α) (current : UInt16) (stage : Stage α) (highSpeed : Bool) :
    Except Fault (Except (Stage α) UInt16 × Channels α) := do
  return c.parkedOr (← c.dispatcher.queueDelayed current stage highSpeed)

/-- Run a step of the scheduler of the first active stage whose request satisfies `p`, if there is
such a stage with a scheduler. -/
def onScheduler {β : Type} (c : Channels α) (p : α → Bool)
    (step : Scheduler → Except Fault (β × Scheduler)) :
    Except Fault (Option (β × Channels α)) := do
  match c.active.findIdx? fun stage => p stage.request with
  | none => return none
  | some i =>
    match c.active[i]? with
    | some { request, owner, scheduler := some scheduler, interval } =>
      let (b, scheduler) ← step scheduler
      let stage : Stage α := ⟨request, owner, some scheduler, interval⟩
      return some (b, { c with active := c.active.set i stage })
    | _ => return none

/-! ### Start of frame -/

/-- What the driver of the channels does at start of frame: the stages it has been offered and
those it has started, and the channels left. -/
structure Round (α : Type) where
  free : Nat
  offered : List (Stage α) := []
  started : List (Stage α) := []

/-- Queue stages; those that do not fit are dropped. -/
def refill (current : UInt16) :
    List (Stage α) → Dispatcher α → Except Fault (Dispatcher α)
  | [], dispatcher => .ok dispatcher
  | stage :: rest, dispatcher => do
    match ← dispatcher.queueStage current stage with
    | .ok (_, dispatcher) => refill current rest dispatcher
    | .error _ => refill current rest dispatcher

/-- Start an offered stage if a channel is free; otherwise queue `others` and hand it back. -/
def answer (current : UInt16) (others : List (Stage α)) (stage : Stage α) :
    StateT (Dispatcher α) (StateT (Round α) (Except Fault)) (Offer α) :=
  fun dispatcher round =>
    let round := { round with offered := round.offered ++ [stage] }
    match round.free with
    | free + 1 =>
      .ok ((.started, dispatcher),
        { round with free := free, started := round.started ++ [stage] })
    | 0 => do return ((.handedBack stage, ← refill current others dispatcher), round)

/-- The start-of-frame interrupt, with `free` channels free. The result is the number of stages
started and the stages offered. -/
def startOfFrame (c : Channels α) (free : Nat) (current : UInt16) (others : List (Stage α)) :
    Except Fault ((Nat × List (Stage α)) × Channels α) := do
  let limit := c.dispatcher.pending + 1
  let ((count, dispatcher), round) ←
    Dispatcher.startOfFrame limit current (answer current others) c.dispatcher { free := free }
  return ((count, round.offered), ⟨dispatcher, c.active ++ round.started⟩)

end Channels

end UsbHost.Frame
