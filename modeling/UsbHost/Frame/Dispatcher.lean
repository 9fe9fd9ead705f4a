import UsbHost.Frame.Stage
import UsbHost.Queue.Deadline

/-!
Dispatch at start of frame. A host channel must not start before the frame that the scheduler of
its stage has chosen, so stages are parked in a deadline queue until then. At start of frame the
due stages are offered one after another to whoever owns the channels; a stage that is handed back
is parked for the next frame, and no further one is offered.
-/

namespace UsbHost.Frame

structure Dispatcher (α : Type) where
  queue : DeadlineQueue (Stage α)
  /-- Nothing is offered any more. -/
  closed : Bool := false
  deriving Inhabited

/-- What becomes of a stage that was offered a channel. -/
inductive Offer (α : Type)
  | started
  | handedBack (stage : Stage α)
  deriving Inhabited

namespace Dispatcher

variable {α : Type}

/-- A dispatcher for `capacity` parked stages, normally one per host channel. -/
def withCapacity (capacity : Nat) : Except Error (Dispatcher α) := do
  return { queue := ← DeadlineQueue.withCapacity capacity }

/-- Stages that are parked. -/
def pending (d : Dispatcher α) : Nat := d.queue.length

/-- Frame that the first parked stage waits for. -/
def nextFrame? (d : Dispatcher α) : Option UInt16 := d.queue.nextFrame?

/-- Park `stage` for `frame`; a full dispatcher hands it back. -/
def park (d : Dispatcher α) (stage : Stage α) (frame : UInt16) :
    Except (Stage α) (UInt16 × Dispatcher α) :=
  match d.queue.enqueue stage stage.owner frame with
  | .ok queue => .ok (frame, { d with queue := queue })
  | .error stage => .error stage

/-- Park `stage` until the frame that its scheduler asks for, or the next one if it has none. -/
def queueStage (d : Dispatcher α) (current : UInt16) (stage : Stage α) :
    Except Fault (Except (Stage α) (UInt16 × Dispatcher α)) := do
  match stage.scheduler with
  | none => return d.park stage (add current 1)
  | some scheduler =>
    let (frame, scheduler) ← scheduler.frameNumber current
    return d.park { stage with scheduler := some scheduler } frame

/-- Park a periodic stage that was refused until its next service interval; a split starts over
there. -/
def queueDelayed (d : Dispatcher α) (current : UInt16) (stage : Stage α) (highSpeed : Bool) :
    Except Fault (Except (Stage α) (UInt16 × Dispatcher α)) := do
  match stage.delayFrames? highSpeed with
  | none => return .error stage
  | some offset =>
    match stage.scheduler.filter Scheduler.isSplit with
    | none => return d.park stage (add current offset)
    | some scheduler =>
      let scheduler ← scheduler.delay offset
      let (frame, scheduler) ← scheduler.frameNumber current
      let scheduler ← scheduler.startSplit
      return d.park { stage with scheduler := some scheduler } frame

/-- Offer the stages due in frame `current`, at most `limit` of them, and count those that were
started. The one asked may use the dispatcher before it answers. -/
def offerDue {m : Type → Type} [Monad m] (current : UInt16)
    (start : Stage α → StateT (Dispatcher α) m (Offer α)) :
    (limit : Nat) → StateT (Dispatcher α) m Nat
  | 0 => return 0
  | limit + 1 => do
    match (← get).queue.dequeue current with
    | none => return 0
    | some (stage, queue) =>
      modify fun d => { d with queue := queue }
      match ← start stage with
      | .started => return (← offerDue current start limit) + 1
      | .handedBack stage =>
        modify fun d =>
          match d.park stage (add current 1) with
          | .ok (_, d') => d'
          | .error _ => d
        return 0

/-- The start-of-frame interrupt. A dispatcher that has been closed offers nothing. -/
def startOfFrame {m : Type → Type} [Monad m] (limit : Nat) (current : UInt16)
    (start : Stage α → StateT (Dispatcher α) m (Offer α)) : StateT (Dispatcher α) m Nat := do
  if (← get).closed then return 0
  offerDue current start limit

/-- Drop the parked stages of a device that goes away. -/
def flushDevice (d : Dispatcher α) (owner : DeviceId) : Nat × Dispatcher α :=
  let (n, queue) := d.queue.flushOwner owner
  (n, { d with queue := queue })

/-- Drop all parked stages. -/
def flush (d : Dispatcher α) : Nat × Dispatcher α :=
  let (n, queue) := d.queue.flush
  (n, { d with queue := queue })

/-- Drop all parked stages and offer none from now on. -/
def shutdown (d : Dispatcher α) : Nat × Dispatcher α := { d with closed := true }.flush

end Dispatcher

end UsbHost.Frame
