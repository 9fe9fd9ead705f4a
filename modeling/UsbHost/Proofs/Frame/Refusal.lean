import UsbHost.Proofs.Frame.Appointment

/-!
Refused stages. A full dispatcher hands a stage back after its scheduler has moved on: a wait has
been used up, a microframe chosen, a start split begun. Queueing the stage again for the next frame
goes as if no wait had been pending. Delaying it again is a fault if it is a split, because the
start split that the first call has begun is still open.
-/

namespace UsbHost.Frame

variable {α : Type}

/-! ### Asking again -/

/-- The scheduler without the wait that is pending. -/
def Scheduler.rested : Scheduler → Scheduler
  | isochronous s => isochronous s
  | periodic s => periodic { s with backoff := 0 }
  | nonPeriodic s => nonPeriodic { s with backoff := 0 }
  | unsplit s => unsplit { s with backoff := 0 }

/-- The stage without the wait that is pending. -/
def Stage.rested (s : Stage α) : Stage α := { s with scheduler := s.scheduler.map Scheduler.rested }

/-- The microframe of the next transaction is still to be chosen, by the frame of the next call. -/
def Scheduler.isUndecided : Scheduler → Bool
  | periodic s => s.microframe.isNone
  | _ => false

def Stage.isUndecided (s : Stage α) : Bool := s.scheduler.any Scheduler.isUndecided

/-- Asked for a second frame, a scheduler answers as if it had never had a wait pending. A
microframe that was chosen the first time is kept. -/
theorem Scheduler.frameNumber_again {s s' : Scheduler} {current current' frame : UInt16}
    (h : s.frameNumber current = .ok (frame, s'))
    (hcurrent : current' = current ∨ s.isUndecided = false) :
    s'.frameNumber current' = s.rested.frameNumber current' := by
  cases s with
  | isochronous s =>
    cases h
    rfl
  | periodic s =>
    obtain ⟨microframe, haims, -, rfl⟩ := frameNumber_periodic h
    cases haims with
    | remembered hs => simp [frameNumber, rested, Periodic.frameNumber, hs]
    | chosen hs hchoose =>
      rcases hcurrent with rfl | hdecided
      · simp [frameNumber, rested, Periodic.frameNumber, hs, hchoose, bind, Except.bind, pure,
          Except.pure]
      · simp [isUndecided, hs] at hdecided
  | nonPeriodic s =>
    obtain ⟨-, rfl⟩ := frameNumber_nonPeriodic h
    rfl
  | unsplit s =>
    obtain ⟨-, rfl⟩ := frameNumber_unsplit h
    rfl

theorem Scheduler.isSplit_of_phase {s : Scheduler} (h : s.phase ≠ .start) : s.isSplit = true := by
  cases s with
  | unsplit s => exact absurd rfl h
  | isochronous s | periodic s | nonPeriodic s => rfl

/-- A split that has started over cannot do so again. -/
theorem Scheduler.restart_again {s s' : Scheduler} {current offset frame : UInt16}
    (h : s.restart current offset = .ok (frame, s')) (current' offset' : UInt16) :
    ∃ fault, s'.restart current' offset' = .error fault := by
  cases hagain : s'.restart current' offset' with
  | error fault => exact ⟨fault, rfl⟩
  | ok again => exact absurd (restart_phase h).2 (restart_phase hagain).1

namespace Stage

variable {s s' : Stage α} {current current' frame : UInt16}

theorem appoint_again (h : s.appoint current = .ok (frame, s'))
    (hcurrent : current' = current ∨ s.isUndecided = false) :
    s'.appoint current' = s.rested.appoint current' := by
  rcases appoint_ok h with ⟨hnone, -, rfl⟩ | ⟨scheduler, scheduler', hs, hframe, rfl⟩
  · obtain ⟨request, owner, scheduler, interval⟩ := s'
    cases hnone
    rfl
  · have hcurrent' : current' = current ∨ scheduler.isUndecided = false := by
      simpa [isUndecided, hs] using hcurrent
    simp [appoint, rested, hs, Scheduler.frameNumber_again hframe hcurrent']

/-- A plan to delay a stage leaves the stage as it is only if nothing has started over. -/
theorem delayed_plan_cases {highSpeed : Bool}
    (h : s.plan current (.delayed highSpeed) = .ok (some (frame, s'))) :
    s.isSplit = false ∧ s' = s ∨ s.isSplit = true ∧ s' ≠ s ∧
      ∀ current', ∃ fault, s'.plan current' (.delayed highSpeed) = .error fault := by
  obtain ⟨offset, hoffset, h⟩ := plan_delayed_ok.1 h
  rcases postpone_ok h with ⟨hsplit, -, hsame⟩ | ⟨scheduler, scheduler', hs, hsplit, hrestart, rfl⟩
  · exact .inl ⟨hsplit, hsame⟩
  · obtain ⟨hbefore, hafter⟩ := Scheduler.restart_phase hrestart
    refine .inr ⟨by simp [isSplit, hs, hsplit], fun hsame => ?_, fun current' => ?_⟩
    · have hscheduler := congrArg Stage.scheduler hsame
      rw [hs] at hscheduler
      cases hscheduler
      exact hbefore hafter
    · have hsplit' : scheduler'.isSplit = true := Scheduler.isSplit_of_phase (by simp [hafter])
      obtain ⟨fault, hfault⟩ := Scheduler.restart_again hrestart current' offset
      have hoffset' :
          delayFrames? { s with scheduler := some scheduler' } highSpeed = some offset := hoffset
      refine ⟨fault, ?_⟩
      simp [plan, hoffset', postpone, Option.filter, hsplit', hfault, bind, Except.bind,
        Functor.map, Except.map]

end Stage

namespace Dispatcher

/-- What there is to know about a call that has been refused. -/
structure Refused (capacity : Nat) (d : Dispatcher α) (current : UInt16) (stage stage' : Stage α)
    (wish : Wish) : Prop where
  reason : stage.plan current wish = .ok none ∨ d.stages.length = capacity
  kept : ∃ scheduler, stage' = { stage with scheduler := scheduler }
  soon_again : wish = .soon →
    ∀ (d₁ : Dispatcher α) current', current' = current ∨ stage.isUndecided = false →
      d₁.submit current' stage' .soon = d₁.submit current' stage.rested .soon
  delayed_unchanged : wish ≠ .soon →
    (stage' = stage ↔ stage.plan current wish = .ok none ∨ stage.isSplit = false)
  delayed_again : wish ≠ .soon → stage' ≠ stage →
    ∀ (d₁ : Dispatcher α) current', ∃ fault, d₁.submit current' stage' wish = .error fault

variable {capacity : Nat} {d d₁ : Dispatcher α} {stage stage' : Stage α} {current frame : UInt16}
  {wish : Wish}

theorem submit_fault {fault : Fault} (h : stage.plan current wish = .error fault) :
    d.submit current stage wish = .error fault := by
  rw [submit_eq, h]
  rfl

/-- A refused call leaves the dispatcher alone and the stage unchanged but for its scheduler. Queued
again for the next frame, the stage goes where it would have gone without the wait that was pending,
and keeps a microframe that the first call has chosen. A stage that was to be delayed comes back as
it was only if its interval is too long or if it is no split; in any other case it can never be
delayed again. -/
theorem refused_of_submit (hd : d.WellFormed capacity)
    (h : d.submit current stage wish = .ok (.error stage')) :
    Refused capacity d current stage stage' wish := by
  rcases hd.submit_refused h with ⟨hplan, rfl⟩ | ⟨hfull, frame, hplan⟩
  · refine ⟨.inl hplan, ⟨stage'.scheduler, rfl⟩, ?_, fun _ => iff_of_true rfl (.inl hplan),
      fun _ hne => absurd rfl hne⟩
    rintro rfl
    obtain ⟨_, hwish, -⟩ := Stage.plan_eq_none.1 hplan
    cases hwish
  · refine ⟨.inr hfull, Stage.eq_of_plan hplan, ?_, ?_, ?_⟩
    · rintro rfl d₁ current' hcurrent
      rw [submit, submit, queueStage_eq, queueStage_eq,
        Stage.appoint_again (Stage.plan_soon_ok.1 hplan) hcurrent]
    · intro hwish
      cases wish with
      | soon => exact absurd rfl hwish
      | delayed highSpeed =>
        rcases Stage.delayed_plan_cases hplan with ⟨hsplit, hsame⟩ | ⟨hsplit, hne, -⟩
        · exact iff_of_true hsame (.inr hsplit)
        · simp [hne, hplan, hsplit]
    · intro hwish hne d₁ current'
      cases wish with
      | soon => exact absurd rfl hwish
      | delayed highSpeed =>
        rcases Stage.delayed_plan_cases hplan with ⟨-, hsame⟩ | ⟨-, -, hfault⟩
        · exact absurd hsame hne
        · obtain ⟨fault, hfault⟩ := hfault current'
          exact ⟨fault, submit_fault hfault⟩

theorem refused_of_submit_interrupt : (waiting 1 [1]).WellFormed 1 ∧
    ∃ stage', (waiting 1 [1]).submit 10 interruptStage (.delayed true) = .ok (.error stage') ∧
      Refused 1 (waiting 1 [1]) 10 interruptStage stage' (.delayed true) :=
  have hwf := wellFormed_waiting (by decide) [1]
  ⟨hwf, _, rfl, refused_of_submit hwf rfl⟩

/-- Once there is room, the stage could have been parked for frame 75, but it has come back with a
start split begun. -/
theorem interrupt_refused_for_good :
    ∃ stage', (waiting 1 [1]).queueDelayed 10 interruptStage true = .ok (.error stage') ∧
      stage' ≠ interruptStage ∧
      (∃ d', (waiting 1 []).queueDelayed 10 interruptStage true = .ok (.ok (75, d'))) ∧
      (waiting 1 []).queueDelayed 10 stage' true =
        .error (.wrongPhase .periodic .start .startSplit) :=
  ⟨_, rfl, by decide, ⟨_, rfl⟩, rfl⟩

end Dispatcher

end UsbHost.Frame
