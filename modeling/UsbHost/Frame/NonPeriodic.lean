import UsbHost.Frame.Number

/-!
Frames of control and bulk splits. They are not bound to microframe positions: each transaction
goes out as soon as possible, with a wait after the hub has refused it or has not finished in time.
-/

namespace UsbHost.Frame

structure NonPeriodic where
  phase : Phase := .start
  /-- Retries left to the complete split. -/
  tries : Nat := 0
  /-- Frames to wait before the next transaction. -/
  backoff : UInt16 := 0
  /-- The frame that was computed last. -/
  nextFrame : Option UInt16 := none
  deriving DecidableEq, Inhabited

namespace NonPeriodic

/-- Retries of a complete split per start split. -/
def completeTries : Nat := 3

/-- Wait after the hub has refused a split. -/
def refusedBackoff : UInt16 := 5

/-- Wait after all complete splits came too early. -/
def earlyBackoff : UInt16 := 3

def wrongPhase {α : Type} (s : NonPeriodic) (step : SplitStep) : Except Fault α :=
  .error (.wrongPhase .nonPeriodic step s.phase)

def fail (s : NonPeriodic) (backoff : UInt16) : NonPeriodic :=
  { s with phase := .completeSplitFailed, backoff := backoff }

def startSplit (s : NonPeriodic) : Except Fault NonPeriodic :=
  match s.phase with
  | .start | .completeSplitComplete | .completeSplitFailed =>
    .ok { s with phase := .startSplit }
  | _ => s.wrongPhase .start

def completeSplit (s : NonPeriodic) : Except Fault (Bool × NonPeriodic) :=
  match s.phase with
  | .startSplitComplete =>
    .ok (true, { s with phase := .completeSplit, tries := completeTries })
  | .completeSplitRetry => .ok (true, s)
  | .completeSplitComplete | .completeSplitFailed => .ok (false, s)
  | _ => s.wrongPhase .complete

/-- The outcome of a complete split. -/
def conclude (s : NonPeriodic) (status : ChannelStatus) : NonPeriodic :=
  if status.contains .transferComplete then
    { s with phase := .completeSplitComplete }
  else if status.contains .nyet then
    if s.tries = 0 then
      s.fail earlyBackoff
    else
      { s with phase := .completeSplitRetry, tries := s.tries - 1 }
  else if status.contains .nak then
    s.fail refusedBackoff
  else
    s.fail 0

def finish (s : NonPeriodic) (status : ChannelStatus) : Except Fault NonPeriodic :=
  match s.phase with
  | .startSplit =>
    if status.contains .ack then
      .ok { s with phase := .startSplitComplete }
    else
      .ok (s.fail refusedBackoff)
  | .completeSplit | .completeSplitRetry => .ok (s.conclude status)
  | _ => s.wrongPhase .finish

/-- The next frame after the backoff. -/
def frameNumber (s : NonPeriodic) (current : UInt16) : Except Fault (UInt16 × NonPeriodic) := do
  let next := add current (← plus 1 s.backoff)
  return (next, { s with backoff := 0, nextFrame := some next })

def delay (s : NonPeriodic) (offset : UInt16) : NonPeriodic := { s with backoff := offset }

def isOddFrame (s : NonPeriodic) (current : UInt16) : Bool :=
  isOdd (s.nextFrame.getD (add current 1))

end NonPeriodic

end UsbHost.Frame
