import UsbHost.Frame.Scheduler
import UsbHost.Proofs.Attempt

/-!
Steps of a scheduler that retries its complete splits: the kinds for interrupt, control and bulk
transfers. What a call may do to it is said once, case by case, for both kinds.
-/

namespace UsbHost.Frame

namespace Phase

/-- The outcome of the split is known. -/
def isDecided : Phase → Bool
  | completeSplitComplete | completeSplitFailed => true
  | _ => false

/-- A complete split is underway, or is to be tried again. -/
def isCompleting : Phase → Bool
  | completeSplit | completeSplitRetry => true
  | _ => false

theorem not_isDecided {phase : Phase} (h : phase.isCompleting = true) :
    ¬ phase.isDecided = true := by
  cases phase <;> simp_all [isCompleting, isDecided]

end Phase

namespace Scheduler

/-- The calls on a scheduler that move it on. -/
inductive Call
  | start
  | complete
  | finish (status : ChannelStatus)
  | frame (current : UInt16)
  | delay (offset : UInt16)
  deriving DecidableEq

/-- Make a call. It tells whether a complete split is to go out next. -/
def perform (s : Scheduler) : Call → Except Fault (Bool × Scheduler)
  | .start => do return (false, ← s.startSplit)
  | .complete => s.completeSplit
  | .finish status => do return (false, ← s.finish status)
  | .frame current => do return (false, (← s.frameNumber current).2)
  | .delay offset => do return (false, ← s.delay offset)

/-- What a call comes to: a step of the split that the scheduler follows. -/
inductive Performs : Scheduler → Call → Bool → Scheduler → Prop
  | startIsochronous {s s' : Isochronous} (h : s.startSplit = .ok s') :
      Performs (isochronous s) .start false (isochronous s')
  | startPeriodic {s s' : Periodic} (h : s.startSplit = .ok s') :
      Performs (periodic s) .start false (periodic s')
  | startNonPeriodic {s s' : NonPeriodic} (h : s.startSplit = .ok s') :
      Performs (nonPeriodic s) .start false (nonPeriodic s')
  | completeIsochronous {s s' : Isochronous} {more : Bool}
      (h : s.completeSplit = .ok (more, s')) :
      Performs (isochronous s) .complete more (isochronous s')
  | completePeriodic {s s' : Periodic} {more : Bool} (h : s.completeSplit = .ok (more, s')) :
      Performs (periodic s) .complete more (periodic s')
  | completeNonPeriodic {s s' : NonPeriodic} {more : Bool}
      (h : s.completeSplit = .ok (more, s')) :
      Performs (nonPeriodic s) .complete more (nonPeriodic s')
  | finishIsochronous {s s' : Isochronous} {status : ChannelStatus}
      (h : s.finish status = .ok s') :
      Performs (isochronous s) (.finish status) false (isochronous s')
  | finishPeriodic {s s' : Periodic} {status : ChannelStatus} (h : s.finish status = .ok s') :
      Performs (periodic s) (.finish status) false (periodic s')
  | finishNonPeriodic {s s' : NonPeriodic} {status : ChannelStatus}
      (h : s.finish status = .ok s') :
      Performs (nonPeriodic s) (.finish status) false (nonPeriodic s')
  | frameIsochronous (s : Isochronous) (current : UInt16) :
      Performs (isochronous s) (.frame current) false (isochronous (s.frameNumber current).2)
  | framePeriodic {s s' : Periodic} {current frame : UInt16}
      (h : s.frameNumber current = .ok (frame, s')) :
      Performs (periodic s) (.frame current) false (periodic s')
  | frameNonPeriodic {s s' : NonPeriodic} {current frame : UInt16}
      (h : s.frameNumber current = .ok (frame, s')) :
      Performs (nonPeriodic s) (.frame current) false (nonPeriodic s')
  | frameUnsplit {s s' : Unsplit} {current frame : UInt16}
      (h : s.frameNumber current = .ok (frame, s')) :
      Performs (unsplit s) (.frame current) false (unsplit s')
  | delayIsochronous {s s' : Isochronous} {offset : UInt16} (h : s.delay offset = .ok s') :
      Performs (isochronous s) (.delay offset) false (isochronous s')
  | delayPeriodic (s : Periodic) (offset : UInt16) :
      Performs (periodic s) (.delay offset) false (periodic (s.delay offset))
  | delayNonPeriodic (s : NonPeriodic) (offset : UInt16) :
      Performs (nonPeriodic s) (.delay offset) false (nonPeriodic (s.delay offset))
  | delayUnsplit {s s' : Unsplit} {offset : UInt16} (h : s.delay offset = .ok s') :
      Performs (unsplit s) (.delay offset) false (unsplit s')

/-- A call that is admitted is a step of the split. -/
theorem performs_of_perform {s s' : Scheduler} {call : Call} {more : Bool}
    (h : s.perform call = .ok (more, s')) : Performs s call more s' := by
  cases call with
  | start =>
    obtain ⟨_, hstart, h⟩ := Fault.bind_eq_ok.1 h
    cases h
    cases s with
    | isochronous s | periodic s | nonPeriodic s =>
      obtain ⟨_, hbegun, rfl⟩ := Fault.map_eq_ok.1 hstart
      constructor
      exact hbegun
    | unsplit s => cases hstart
  | complete =>
    cases s with
    | isochronous s | periodic s | nonPeriodic s =>
      obtain ⟨_, hcomplete, h⟩ := Fault.bind_eq_ok.1 h
      cases h
      constructor
      exact hcomplete
    | unsplit s => cases h
  | finish status =>
    obtain ⟨_, hfinish, h⟩ := Fault.bind_eq_ok.1 h
    cases h
    cases s with
    | isochronous s | periodic s | nonPeriodic s =>
      obtain ⟨_, hdone, rfl⟩ := Fault.map_eq_ok.1 hfinish
      constructor
      exact hdone
    | unsplit s => cases hfinish
  | frame current =>
    obtain ⟨_, hframe, h⟩ := Fault.bind_eq_ok.1 h
    cases h
    cases s with
    | isochronous s =>
      cases hframe
      exact .frameIsochronous s current
    | periodic s | nonPeriodic s | unsplit s =>
      obtain ⟨_, hnumber, h⟩ := Fault.bind_eq_ok.1 hframe
      cases h
      constructor
      exact hnumber
  | delay offset =>
    obtain ⟨_, hdelay, h⟩ := Fault.bind_eq_ok.1 h
    cases h
    cases s with
    | isochronous s | unsplit s =>
      obtain ⟨_, hput, rfl⟩ := Fault.map_eq_ok.1 hdelay
      constructor
      exact hput
    | periodic s =>
      cases hdelay
      exact .delayPeriodic s offset
    | nonPeriodic s =>
      cases hdelay
      exact .delayNonPeriodic s offset

/-- The scheduler counts retries: its split is neither isochronous nor none at all. -/
def hasRetries : Scheduler → Bool
  | periodic _ | nonPeriodic _ => true
  | _ => false

/-- Retries left. -/
def tries : Scheduler → Nat
  | periodic s => s.tries
  | nonPeriodic s => s.tries
  | _ => 0

/-- Complete splits that a scheduler admits if the first one goes out now. Behind a start split in
microframe 5 there is room for one less in the frame. -/
def allowance : Scheduler → Nat
  | periodic s => if s.slot = 5 then 3 else 4
  | _ => 4

/-- What a call does to a scheduler with retries. -/
inductive Transition (s s' : Scheduler) : Call → Bool → Prop
  | started (h : s.phase = .start ∨ s.phase.isDecided = true) (h' : s'.phase = .startSplit) :
      Transition s s' .start false
  | acknowledged {status : ChannelStatus} (h : s.phase = .startSplit)
      (hack : status.contains .ack = true) (h' : s'.phase = .startSplitComplete) :
      Transition s s' (.finish status) false
  | refused {status : ChannelStatus} (h : s.phase = .startSplit)
      (h' : s'.phase = .completeSplitFailed) : Transition s s' (.finish status) false
  | completing (h : s.phase = .startSplitComplete) (h' : s'.phase = .completeSplit)
      (htries : s'.tries + 1 = s.allowance) : Transition s s' .complete true
  | repeated (h : s.phase = .completeSplitRetry) (h' : s'.phase = .completeSplitRetry)
      (htries : s'.tries = s.tries) : Transition s s' .complete true
  | ended (h : s.phase.isDecided = true) (h' : s' = s) : Transition s s' .complete false
  | transferred {status : ChannelStatus} (h : s.phase.isCompleting = true)
      (hstatus : status.contains .transferComplete = true)
      (h' : s'.phase = .completeSplitComplete) : Transition s s' (.finish status) false
  | retried {status : ChannelStatus} (h : s.phase.isCompleting = true)
      (hstatus : status.contains .transferComplete = false) (h' : s'.phase = .completeSplitRetry)
      (htries : s'.tries + 1 = s.tries) : Transition s s' (.finish status) false
  | failed {status : ChannelStatus} (h : s.phase.isCompleting = true)
      (hstatus : status.contains .transferComplete = false)
      (h' : s'.phase = .completeSplitFailed) : Transition s s' (.finish status) false
  | aside {call : Call} (hstart : call ≠ .start) (hcomplete : call ≠ .complete)
      (hfinish : ∀ status, call ≠ .finish status) (hphase : s'.phase = s.phase)
      (htries : s'.tries = s.tries) : Transition s s' call false

/-- What a scheduler makes of the outcome of a complete split. -/
structure Concludes (s s' : Scheduler) (status : ChannelStatus) : Prop where
  transferred : status.contains .transferComplete = true → s'.phase = .completeSplitComplete
  missed : status.contains .transferComplete = false →
    s'.phase = .completeSplitRetry ∧ s'.tries + 1 = s.tries ∨ s'.phase = .completeSplitFailed

theorem Concludes.transition {s s' : Scheduler} {status : ChannelStatus}
    (h : Concludes s s' status) (hphase : s.phase.isCompleting = true) :
    Transition s s' (.finish status) false := by
  cases hstatus : status.contains .transferComplete with
  | true => exact .transferred hphase hstatus (h.transferred hstatus)
  | false =>
    rcases h.missed hstatus with ⟨hretry, htries⟩ | hfailed
    · exact .retried hphase hstatus hretry htries
    · exact .failed hphase hstatus hfailed

/-- The scheduler after a complete split with an outcome. -/
def conclude (status : ChannelStatus) : Scheduler → Scheduler
  | periodic s => periodic (s.conclude status)
  | nonPeriodic s => nonPeriodic (s.conclude status)
  | s => s

theorem hasRetries_conclude {s : Scheduler} (hs : s.hasRetries = true) (status : ChannelStatus) :
    (s.conclude status).hasRetries = true := by
  cases s with
  | isochronous _ | unsplit _ => cases hs
  | periodic s | nonPeriodic s => rfl

theorem concludes_conclude {s : Scheduler} (hs : s.hasRetries = true) (status : ChannelStatus) :
    Concludes s (s.conclude status) status := by
  constructor
  case transferred =>
    intro hstatus
    cases s with
    | isochronous _ | unsplit _ => cases hs
    | periodic s | nonPeriodic s =>
      simp [conclude, Periodic.conclude, NonPeriodic.conclude, hstatus, phase]
  case missed =>
    intro hstatus
    cases s with
    | isochronous _ | unsplit _ => cases hs
    | periodic s | nonPeriodic s =>
      simp only [conclude, Periodic.conclude, NonPeriodic.conclude, hstatus, Bool.false_eq_true,
        if_false]
      split
      · split
        · exact .inr rfl
        · rename_i hleft
          exact .inl ⟨rfl, Nat.sub_add_cancel (Nat.pos_of_ne_zero hleft)⟩
      · split
        · exact .inr rfl
        · exact .inr rfl

section Steps

variable {s s' : Scheduler} {call : Call} {more : Bool}

theorem transition_start (hs : s.hasRetries = true) (h : Performs s .start more s') :
    s'.hasRetries = true ∧ Transition s s' .start more := by
  cases h with
  | startIsochronous => cases hs
  | startPeriodic h | startNonPeriodic h =>
    simp only [Periodic.startSplit, NonPeriodic.startSplit] at h
    split at h
    case h_1 hphase =>
      cases h
      exact ⟨rfl, .started (.inl hphase) rfl⟩
    case h_2 hphase | h_3 hphase =>
      cases h
      exact ⟨rfl, .started (.inr (by rw [phase, hphase]; rfl)) rfl⟩
    case h_4 => cases h

theorem transition_complete (hs : s.hasRetries = true) (h : Performs s .complete more s') :
    s'.hasRetries = true ∧ Transition s s' .complete more := by
  cases h with
  | completeIsochronous => cases hs
  | completePeriodic h | completeNonPeriodic h =>
    simp only [Periodic.completeSplit, NonPeriodic.completeSplit] at h
    split at h
    case h_1 hphase =>
      cases h
      exact ⟨rfl, .completing hphase rfl (by grind [tries, allowance, NonPeriodic.completeTries])⟩
    case h_2 hphase =>
      cases h
      exact ⟨rfl, .repeated hphase hphase rfl⟩
    case h_3 hphase | h_4 hphase =>
      cases h
      exact ⟨rfl, .ended (by rw [phase, hphase]; rfl) rfl⟩
    case h_5 => cases h

theorem transition_finish {status : ChannelStatus} (hs : s.hasRetries = true)
    (h : Performs s (.finish status) more s') :
    s'.hasRetries = true ∧ Transition s s' (.finish status) more := by
  cases h with
  | finishIsochronous => cases hs
  | finishPeriodic h | finishNonPeriodic h =>
    refine ⟨rfl, ?_⟩
    simp only [Periodic.finish, NonPeriodic.finish] at h
    split at h
    case h_1 hphase =>
      split at h
      · rename_i hack
        cases h
        exact .acknowledged hphase hack rfl
      · cases h
        exact .refused hphase rfl
    case h_2 hphase | h_3 hphase =>
      cases h
      exact (concludes_conclude hs status).transition (by rw [phase, hphase]; rfl)
    case h_4 => cases h

theorem transition_of_perform (hs : s.hasRetries = true) (h : s.perform call = .ok (more, s')) :
    s'.hasRetries = true ∧ Transition s s' call more := by
  have hstep := performs_of_perform h
  cases call with
  | start => exact transition_start hs hstep
  | complete => exact transition_complete hs hstep
  | finish status => exact transition_finish hs hstep
  | frame current =>
    cases hstep with
    | frameIsochronous | frameUnsplit => cases hs
    | framePeriodic hnumber | frameNonPeriodic hnumber =>
      obtain ⟨_, -, hframe⟩ := Fault.bind_eq_ok.1 hnumber
      cases hframe
      exact ⟨rfl, .aside nofun nofun nofun rfl rfl⟩
  | delay offset =>
    cases hstep with
    | delayIsochronous | delayUnsplit => cases hs
    | delayPeriodic | delayNonPeriodic => exact ⟨rfl, .aside nofun nofun nofun rfl rfl⟩

end Steps

end Scheduler

end UsbHost.Frame
