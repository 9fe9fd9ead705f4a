import UsbHost.Frame.Isochronous
import UsbHost.Frame.NonPeriodic
import UsbHost.Frame.Periodic
import UsbHost.Frame.Unsplit

/-!
Frame schedulers. One scheduler follows one transaction stage through its start and complete splits
and says in which frame the next transaction may go out. Which of the four kinds a stage gets
depends on the shape of its transfer alone.
-/

namespace UsbHost.Frame

/-- Shape of the transfer that a stage belongs to. -/
structure TransferShape where
  /-- A low- or full-speed device behind a high-speed hub. -/
  split : Bool := false
  /-- An interrupt or isochronous endpoint. -/
  periodic : Bool := false
  isochronous : Bool := false
  directionIn : Bool := false
  /-- A low- or full-speed device on a root port. -/
  fullSpeedRoot : Bool := false
  deriving DecidableEq, Inhabited

inductive Scheduler
  | isochronous (s : Isochronous)
  | periodic (s : Periodic)
  | nonPeriodic (s : NonPeriodic)
  | unsplit (s : Unsplit)
  deriving DecidableEq, Inhabited

namespace Scheduler

/-- The scheduler for a stage; high-speed traffic without split needs none. -/
def select (shape : TransferShape) : Option Scheduler :=
  if shape.split then
    if shape.isochronous then
      some (isochronous { directionIn := shape.directionIn })
    else if shape.periodic then
      some (periodic {})
    else
      some (nonPeriodic {})
  else if shape.fullSpeedRoot then
    some (unsplit { periodic := shape.periodic })
  else
    none

/-- The word that diagnostics use for the kind of a scheduler. -/
def name : Scheduler → String
  | isochronous _ => "Isochronous"
  | periodic _ => "Periodic"
  | nonPeriodic _ => "NonPeriodic"
  | unsplit _ => "NoSplit"

/-- The stage runs as split transactions through a hub. -/
def isSplit : Scheduler → Bool
  | unsplit _ => false
  | _ => true

/-- Begin a split transaction. -/
def startSplit : Scheduler → Except Fault Scheduler
  | isochronous s => isochronous <$> s.startSplit
  | periodic s => periodic <$> s.startSplit
  | nonPeriodic s => nonPeriodic <$> s.startSplit
  | unsplit _ => .error .startWithoutSplit

/-- Go on to the next complete split; `false` once the split has come to an end. -/
def completeSplit : Scheduler → Except Fault (Bool × Scheduler)
  | isochronous s => do let (more, s) ← s.completeSplit; return (more, isochronous s)
  | periodic s => do let (more, s) ← s.completeSplit; return (more, periodic s)
  | nonPeriodic s => do let (more, s) ← s.completeSplit; return (more, nonPeriodic s)
  | unsplit _ => .error .completeWithoutSplit

/-- Take in the channel status of the transaction just finished. -/
def finish (scheduler : Scheduler) (status : ChannelStatus) : Except Fault Scheduler :=
  match scheduler with
  | isochronous s => isochronous <$> s.finish status
  | periodic s => periodic <$> s.finish status
  | nonPeriodic s => nonPeriodic <$> s.finish status
  | unsplit _ => .error (.finishWithoutSplit status)

/-- The frame in which the next transaction may go out, when `current` is the frame now. -/
def frameNumber (scheduler : Scheduler) (current : UInt16) :
    Except Fault (UInt16 × Scheduler) :=
  match scheduler with
  | isochronous s => let (frame, s) := s.frameNumber current; .ok (frame, isochronous s)
  | periodic s => do let (frame, s) ← s.frameNumber current; return (frame, periodic s)
  | nonPeriodic s => do let (frame, s) ← s.frameNumber current; return (frame, nonPeriodic s)
  | unsplit s => do let (frame, s) ← s.frameNumber current; return (frame, unsplit s)

/-- Defer the next transaction by `offset` frames. -/
def delay (scheduler : Scheduler) (offset : UInt16) : Except Fault Scheduler :=
  match scheduler with
  | isochronous s => isochronous <$> s.delay offset
  | periodic s => .ok (periodic (s.delay offset))
  | nonPeriodic s => .ok (nonPeriodic (s.delay offset))
  | unsplit s => unsplit <$> s.delay offset

/-- The next transaction goes out in an odd frame. -/
def isOddFrame (scheduler : Scheduler) (current : UInt16) : Bool :=
  match scheduler with
  | isochronous _ => isOdd current
  | periodic s => s.isOddFrame
  | nonPeriodic s => s.isOddFrame current
  | unsplit s => s.isOddFrame current

def phase : Scheduler → Phase
  | isochronous s => s.phase
  | periodic s => s.phase
  | nonPeriodic s => s.phase
  | unsplit _ => .start

/-- The retries are used up and the split is to be reported as failed. -/
def hasFailed (s : Scheduler) : Bool := s.phase == .completeSplitFailed

end Scheduler

end UsbHost.Frame
