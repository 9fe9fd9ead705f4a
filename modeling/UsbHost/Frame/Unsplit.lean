import UsbHost.Frame.Number

/-!
Frames of low- and full-speed devices on a root port. No transaction translator is involved, so
only the time of a transaction is scheduled; split operations are faults.
-/

namespace UsbHost.Frame

structure Unsplit where
  periodic : Bool
  /-- Frames to wait before the next transaction. -/
  backoff : UInt16 := 0
  /-- The frame that was computed last. -/
  nextFrame : Option UInt16 := none
  deriving DecidableEq, Inhabited

namespace Unsplit

/-- The next frame after the backoff. -/
def frameNumber (s : Unsplit) (current : UInt16) : Except Fault (UInt16 × Unsplit) := do
  let next := add current (← plus 1 s.backoff)
  return (next, { s with backoff := 0, nextFrame := some next })

/-- Defer the next transaction to the `offset`-th frame from now; one of these frames is added by
`frameNumber` itself. -/
def delay (s : Unsplit) (offset : UInt16) : Except Fault Unsplit :=
  if s.periodic then
    .ok { s with backoff := if offset = 0 then 0 else offset - 1 }
  else
    .error .delayOnNonPeriodic

def isOddFrame (s : Unsplit) (current : UInt16) : Bool :=
  isOdd (s.nextFrame.getD (add current 1))

end Unsplit

end UsbHost.Frame
