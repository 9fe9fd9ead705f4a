/-!
Phases of a scheduled transaction. Each scheduler uses the phases that apply to it.
-/

namespace UsbHost.Frame

inductive Phase
  /-- No split has been issued yet. -/
  | start
  | startSplit
  /-- The hub has acknowledged the start split. -/
  | startSplitComplete
  /-- A further start split of an isochronous OUT with several packets. -/
  | startSplitContinued
  | completeSplit
  | completeSplitRetry
  | completeSplitComplete
  | completeSplitFailed
  /-- The transaction waits for its next service interval. -/
  | periodicDelay
  deriving DecidableEq, Inhabited

/-- The word that diagnostics use for a phase. -/
def Phase.name : Phase → String
  | start => "Start"
  | startSplit => "StartSplit"
  | startSplitComplete => "StartSplitComplete"
  | startSplitContinued => "StartSplitContinued"
  | completeSplit => "CompleteSplit"
  | completeSplitRetry => "CompleteSplitRetry"
  | completeSplitComplete => "CompleteSplitComplete"
  | completeSplitFailed => "CompleteSplitFailed"
  | periodicDelay => "PeriodicDelay"

/-- The three kinds of split transaction, as diagnostics name them. -/
inductive SplitClass
  | isochronous
  | periodic
  | nonPeriodic
  deriving DecidableEq, Inhabited

def SplitClass.name : SplitClass → String
  | isochronous => "isochronous"
  | periodic => "periodic"
  | nonPeriodic => "non-periodic"

/-- The three operations that move a split transaction from phase to phase. -/
inductive SplitStep
  | start
  | complete
  | finish
  deriving DecidableEq, Inhabited

def SplitStep.name : SplitStep → String
  | start => "start split"
  | complete => "complete split"
  | finish => "transaction complete"

end UsbHost.Frame
