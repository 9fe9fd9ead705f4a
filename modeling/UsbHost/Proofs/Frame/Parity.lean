import UsbHost.Proofs.Frame.Appointment
import UsbHost.Proofs.Frame.Upkeep

/-!
Parity of frames. When a stage is offered, its scheduler tells whether the frame is an odd one, by
what it remembers. If the stage has been queued for the next frame that its scheduler admits, this
is the frame that it has been queued for. If it has been delayed, an interrupt split has forgotten
its microframe by starting over, and a transfer without splits has not been told the frame.
-/

namespace UsbHost.Frame

namespace Scheduler

variable {s s' : Scheduler} {current frame : UInt16}

theorem isOdd_nextIn (microframe : UInt16) (frame : Nat) :
    isOdd (numberOf (nextIn microframe.toNat frame)) = isOdd microframe := by
  have hmod := nextIn_mod microframe.toNat frame
  rw [isOdd_numberOf, isOdd_eq]
  congr 2
  omega

theorem isOddFrame_of_frameNumber (h : s.frameNumber current = .ok (frame, s')) :
    s'.isOddFrame frame = isOdd frame := by
  cases s with
  | isochronous s =>
    cases h
    rfl
  | periodic s =>
    obtain ⟨microframe, -, rfl, rfl⟩ := frameNumber_periodic h
    exact (isOdd_nextIn microframe _).symm
  | nonPeriodic s =>
    obtain ⟨-, rfl⟩ := frameNumber_nonPeriodic h
    rfl
  | unsplit s =>
    obtain ⟨-, rfl⟩ := frameNumber_unsplit h
    rfl

/-- What a scheduler is going to tell of the parity of `frame`, if its stage is queued for it. -/
def announces (s : Scheduler) (frame : UInt16) : Wish → Bool
  | .soon => isOdd frame
  | .delayed _ =>
    match s with
    | isochronous _ | nonPeriodic _ => isOdd frame
    | periodic _ => false
    | unsplit s => isOdd (s.nextFrame.getD (add frame 1))

variable {wish : Wish}

theorem isOddFrame_of_moves (h : Stage.Moves current frame s s' wish) :
    s'.isOddFrame frame = s.announces frame wish := by
  cases h with
  | appointed h => exact isOddFrame_of_frameNumber h
  | deferred hsplit hsame =>
    subst hsame
    cases s' with
    | unsplit s => rfl
    | isochronous s | periodic s | nonPeriodic s => cases hsplit
  | restarted hrestart =>
    cases s with
    | isochronous s =>
      obtain ⟨-, -, rfl⟩ := restart_isochronous hrestart
      rfl
    | periodic s =>
      obtain ⟨-, _, -, -, rfl⟩ := restart_periodic hrestart
      -- the microframe has been forgotten, and what stands for it is even
      change isOdd 8 = false
      decide
    | nonPeriodic s =>
      obtain ⟨-, -, rfl⟩ := restart_nonPeriodic hrestart
      rfl
    | unsplit s => exact absurd hrestart restart_unsplit

end Scheduler

namespace Dispatcher

variable {α : Type} {capacity : Nat} {d d' : Dispatcher α} {stage : Stage α} {s : Scheduler}
  {current frame : UInt16} {wish : Wish}

/-- What there is to know about a stage with scheduler `s` that has been queued for `frame`: it is
parked with a scheduler `s'`, it is offered in this frame as it was parked, and what `s'` tells
then. -/
structure Tells (capacity : Nat) (d' : Dispatcher α) (frame : UInt16) (stage : Stage α)
    (wish : Wish) (s s' : Scheduler) : Prop where
  parked : ⟨{ stage with scheduler := some s' }, stage.owner, frame⟩ ∈ d'.queue.toList
  offered : ∀ d₁ : Dispatcher α, d₁.WellFormed capacity →
    d₁.queue.toList.head? = some ⟨{ stage with scheduler := some s' }, stage.owner, frame⟩ →
    ∃ q, d₁.queue.dequeue frame = some ({ stage with scheduler := some s' }, q)
  parity : s'.isOddFrame frame = s.announces frame wish

/-- The scheduler of a stage tells the parity of the frame that the stage has been queued for, when
the stage is offered in this frame, if it was queued for the next frame that the scheduler admits,
or if it is an isochronous, control or bulk split. In a delayed interrupt split the scheduler tells
that the frame is even, and in a delayed transfer without splits it tells the parity of the frame
that it has computed before, or of the frame after the one asked for. -/
theorem isOddFrame_of_submit (hd : d.WellFormed capacity) (hs : stage.scheduler = some s)
    (h : d.submit current stage wish = .ok (.ok (frame, d'))) :
    ∃ s', Tells capacity d' frame stage wish s s' := by
  obtain ⟨stage', hplan, hpark⟩ := submit_accepted h
  obtain ⟨scheduler, rfl⟩ := Stage.eq_of_plan hplan
  rcases Stage.plan_cases hplan with ⟨hnone, -⟩ | ⟨s₀, s', hs₀, rfl, hmoves⟩
  · rw [hnone] at hs
    cases hs
  · rw [hs₀] at hs
    cases hs
    refine ⟨s', (hd.mem_park hpark).2 (.inl rfl), fun d₁ hd₁ hhead => ?_,
      Scheduler.isOddFrame_of_moves hmoves⟩
    obtain ⟨rest, hlist⟩ := List.head?_eq_some_iff.1 hhead
    have hnow : isLater frame frame = false := by simp [isLater]
    obtain ⟨q, hdequeue, -⟩ := DeadlineQueue.WellFormed.dequeue_cons hd₁ hlist hnow
    exact ⟨q, hdequeue⟩

theorem isOddFrame_of_submit_interrupt : (waiting 2 [1]).WellFormed 2 ∧
    interruptStage.scheduler = some (.periodic {}) ∧
    ∃ d', (waiting 2 [1]).submit 10 interruptStage .soon = .ok (.ok (11, d')) ∧
      ∃ s', Tells 2 d' 11 interruptStage .soon (.periodic {}) s' :=
  have hwf := wellFormed_waiting (by decide) [1]
  have hscheduler : interruptStage.scheduler = some (.periodic {}) := rfl
  have hsubmit : (waiting 2 [1]).submit 10 interruptStage .soon = .ok (.ok (11, _)) := rfl
  ⟨hwf, hscheduler, _, hsubmit, isOddFrame_of_submit hwf hscheduler hsubmit⟩

/-- A transfer without splits that is polled every nine frames. -/
def unsplitStage : Stage Nat := ⟨3, ⟨3⟩, some (.unsplit { periodic := true }), 9⟩

/-- Delayed in frame 10, an interrupt split is offered in frame 75 and a transfer without splits in
frame 19; both tell that the frame is even. -/
theorem delayed_stage_is_even :
    (∃ d' stage' s' q, (waiting 2 []).queueDelayed 10 interruptStage true = .ok (.ok (75, d')) ∧
      d'.queue.dequeue 75 = some (stage', q) ∧ stage'.scheduler = some s' ∧
      s'.isOddFrame 75 = false ∧ isOdd 75 = true) ∧
    ∃ d' stage' s' q, (waiting 2 []).queueDelayed 10 unsplitStage false = .ok (.ok (19, d')) ∧
      d'.queue.dequeue 19 = some (stage', q) ∧ stage'.scheduler = some s' ∧
      s'.isOddFrame 19 = false ∧ isOdd 19 = true :=
  ⟨⟨_, _, _, _, rfl, rfl, rfl, rfl, rfl⟩, _, _, _, _, rfl, rfl, rfl, rfl, rfl⟩

end Dispatcher

end UsbHost.Frame
