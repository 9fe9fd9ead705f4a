import UsbHost.Frame.ChannelStatus
import UsbHost.Frame.Phase
import UsbHost.Ring.Kind

/-!
Faults: broken preconditions. A fault ends the operation on the spot; it is no outcome of the
protocol and nothing tries the operation again. Outcomes that a caller is meant to handle are
`Error`s.
-/

namespace UsbHost

inductive Fault
  /-- A sum, a product or a counter left its machine word. -/
  | overflow
  /-- An access past the end of a buffer, a table or a context. -/
  | outOfBounds
  /-- An access at an offset that is no multiple of the width accessed. -/
  | misaligned
  /-- A question that makes sense on producer rings only, asked of an event ring. -/
  | notProducer
  | enqueueOnEventRing
  | releaseWithoutOutstanding (ring : Ring.Kind)
  /-- A split operation in a phase that does not admit it. -/
  | wrongPhase (split : Frame.SplitClass) (step : Frame.SplitStep) (phase : Frame.Phase)
  /-- A split operation on a stage that runs without splits. -/
  | startWithoutSplit
  | completeWithoutSplit
  | finishWithoutSplit (status : Frame.ChannelStatus)
  | delayOutsideDelayPhase
  | delayOnNonPeriodic
  | packetSizeOffControlEndpoint
  /-- A blocked task has used up the number of turns it was given. -/
  | stuck
  deriving DecidableEq, Inhabited

/-- The text that goes with a fault. Faults that the machine itself detects carry none. -/
def Fault.message? : Fault → Option String
  | overflow | outOfBounds | misaligned | notProducer | stuck => none
  | enqueueOnEventRing => some "enqueue on event ring"
  | releaseWithoutOutstanding ring =>
    some (ring.name ++ " ring: release without outstanding TRB")
  | wrongPhase split step phase =>
    some (split.name ++ " " ++ step.name ++ " in state " ++ phase.name)
  | startWithoutSplit => some "start split on a transfer without split"
  | completeWithoutSplit => some "complete split on a transfer without split"
  | finishWithoutSplit status =>
    some ("split transaction complete (" ++ status.text ++ ") on a transfer without split")
  | delayOutsideDelayPhase => some "periodic delay outside of delay state"
  | delayOnNonPeriodic => some "periodic delay on a non-periodic transfer"
  | packetSizeOffControlEndpoint => some "max packet update on non-control endpoint"

end UsbHost
