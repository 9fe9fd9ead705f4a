import UsbHost.Frame.Number

/-!
Frames of interrupt splits. Frame numbers count microframes here, and their low three bits are the
microframe within a frame. The start split goes out in the next microframe, but never in number 6,
because its complete splits would spill into the next frame. The first complete split follows two
microframes later, retries one microframe after another.
-/

namespace UsbHost.Frame

structure Periodic where
  phase : Phase := .start
  /-- Retries left to the complete split. -/
  tries : Nat := 0
  /-- Microframe of the next transaction, once it has been chosen. -/
  microframe : Option UInt16 := none
  /-- Microframes to wait before the next transaction. -/
  backoff : UInt16 := 0
  deriving DecidableEq, Inhabited

namespace Periodic

/-- Wait after the hub has refused a split. -/
def refusedBackoff : UInt16 := 5

/-- Wait after all complete splits came too early. -/
def earlyBackoff : UInt16 := 8

def wrongPhase {α : Type} (s : Periodic) (step : SplitStep) : Except Fault α :=
  .error (.wrongPhase .periodic step s.phase)

def fail (s : Periodic) (backoff : UInt16) : Periodic :=
  { s with phase := .completeSplitFailed, backoff := backoff }

/-- The microframe that bookkeeping works with; 8 stands for one not chosen yet. -/
def slot (s : Periodic) : UInt16 := s.microframe.getD 8

def startSplit (s : Periodic) : Except Fault Periodic :=
  match s.phase with
  | .start | .completeSplitComplete | .completeSplitFailed =>
    .ok { s with phase := .startSplit, microframe := none }
  | _ => s.wrongPhase .start

def completeSplit (s : Periodic) : Except Fault (Bool × Periodic) :=
  match s.phase with
  | .startSplitComplete =>
    .ok (true, { s with
      phase := .completeSplit
      tries := if s.slot = 5 then 2 else 3
      microframe := some ((s.slot + 2) &&& 7) })
  | .completeSplitRetry => .ok (true, { s with microframe := some ((s.slot + 1) &&& 7) })
  | .completeSplitComplete | .completeSplitFailed => .ok (false, s)
  | _ => s.wrongPhase .complete

/-- The outcome of a complete split. -/
def conclude (s : Periodic) (status : ChannelStatus) : Periodic :=
  if status.contains .transferComplete then
    { s with phase := .completeSplitComplete }
  else if status.intersects (.union .nyet .ack) then
    if s.tries = 0 then
      s.fail earlyBackoff
    else
      { s with phase := .completeSplitRetry, tries := s.tries - 1 }
  else if status.contains .nak then
    s.fail refusedBackoff
  else
    s.fail 0

def finish (s : Periodic) (status : ChannelStatus) : Except Fault Periodic :=
  match s.phase with
  | .startSplit =>
    if status.contains .ack then
      .ok { s with phase := .startSplitComplete }
    else
      .ok (s.fail refusedBackoff)
  | .completeSplit | .completeSplitRetry => .ok (s.conclude status)
  | _ => s.wrongPhase .finish

/-- The microframe after `current`, number 6 skipped. -/
def chooseMicroframe (current : UInt16) : Except Fault UInt16 := do
  let next := (← plus current 1) &&& 7
  return if next = 6 then 7 else next

/-- The first frame after the backoff that lies in the scheduled microframe. -/
def frameNumber (s : Periodic) (current : UInt16) : Except Fault (UInt16 × Periodic) := do
  let microframe ← s.microframe.elim (chooseMicroframe current) pure
  let first := add (add current s.backoff) 1
  let wait := (microframe - first) &&& 7
  return (add first wait, { s with microframe := some microframe, backoff := 0 })

def delay (s : Periodic) (offset : UInt16) : Periodic := { s with backoff := offset }

def isOddFrame (s : Periodic) : Bool := isOdd s.slot

end Periodic

end UsbHost.Frame
