import UsbHost.Frame.Number

/-!
Frames of isochronous splits. A start split goes out on a boundary of eight microframes; that of
an IN transfer in the middle between two boundaries, so that the complete split still fits behind
it. Each start split has a single complete split. What is not acknowledged or not finished waits
for the next service interval.
-/

namespace UsbHost.Frame

structure Isochronous where
  directionIn : Bool
  phase : Phase := .start
  /-- Distance from the current frame to the next transaction, before alignment. -/
  offset : UInt16 := 0
  /-- The next transaction goes out on the boundary. -/
  aligned : Bool := false
  /-- The frame that was computed last. -/
  nextFrame : UInt16 := 0
  deriving DecidableEq, Inhabited

namespace Isochronous

def wrongPhase {α : Type} (s : Isochronous) (step : SplitStep) : Except Fault α :=
  .error (.wrongPhase .isochronous step s.phase)

def startSplit (s : Isochronous) : Except Fault Isochronous :=
  match s.phase with
  | .start | .completeSplitComplete =>
    .ok { s with phase := .startSplit, offset := 8, aligned := true }
  | .startSplitComplete =>
    .ok { s with phase := .startSplitContinued, offset := 1, aligned := false }
  | .periodicDelay => .ok { s with phase := .startSplit }
  | _ => s.wrongPhase .start

def completeSplit (s : Isochronous) : Except Fault (Bool × Isochronous) :=
  match s.phase with
  | .startSplitComplete =>
    .ok (true, { s with phase := .completeSplit, offset := 2, aligned := false })
  | .completeSplitComplete | .periodicDelay => .ok (false, s)
  | _ => s.wrongPhase .complete

def finish (s : Isochronous) (status : ChannelStatus) : Except Fault Isochronous :=
  match s.phase with
  | .startSplit | .startSplitContinued =>
    if status.contains .ack then
      .ok { s with phase := .startSplitComplete }
    else
      .ok { s with phase := .periodicDelay }
  | .completeSplit =>
    if status.contains .transferComplete then
      .ok { s with phase := .completeSplitComplete }
    else
      .ok { s with phase := .periodicDelay }
  | _ => s.wrongPhase .finish

/-- The boundary at or before `frame`, or the middle behind it for an IN transfer. -/
def align (directionIn : Bool) (frame : UInt16) : UInt16 :=
  let boundary := frame &&& 0x3ff8
  if directionIn then boundary + 4 else boundary

def frameNumber (s : Isochronous) (current : UInt16) : UInt16 × Isochronous :=
  let plain := add current s.offset
  let next := if s.aligned then align s.directionIn plain else plain
  (next, { s with nextFrame := next })

def delay (s : Isochronous) (offset : UInt16) : Except Fault Isochronous :=
  if s.phase = .periodicDelay then
    .ok { s with offset := offset, aligned := true }
  else
    .error .delayOutsideDelayPhase

end Isochronous

end UsbHost.Frame
