import UsbHost.Proofs.Frame.Dispatch
import UsbHost.Proofs.Frame.Timing

/-!
Appointments. Before a stage is parked, its scheduler is asked for a frame, and moves on in giving
one. What it asks for and what becomes of it depend on the stage and the frame now alone; the
dispatcher has a say only in whether there is room.
-/

namespace UsbHost.Frame

/-- The two ways to queue a stage: for the next frame that its scheduler admits, or for its next
service interval. -/
inductive Wish
  | soon
  | delayed (highSpeed : Bool)
  deriving DecidableEq

variable {α : Type}

namespace Stage

/-- The frame that a stage asks for, and the stage as it is parked. -/
def appoint (s : Stage α) (current : UInt16) : Except Fault (UInt16 × Stage α) :=
  match s.scheduler with
  | none => .ok (add current 1, s)
  | some scheduler => do
    let (frame, scheduler) ← scheduler.frameNumber current
    return (frame, { s with scheduler := some scheduler })

/-- The same for a stage that is to wait for `offset` frames first, where a split starts over. -/
def postpone (s : Stage α) (current offset : UInt16) : Except Fault (UInt16 × Stage α) :=
  match s.scheduler.filter Scheduler.isSplit with
  | none => .ok (add current offset, s)
  | some scheduler => do
    let (frame, scheduler) ← scheduler.restart current offset
    return (frame, { s with scheduler := some scheduler })

/-- What comes of a wish before the dispatcher is asked: nothing if the interval is too long. -/
def plan (s : Stage α) (current : UInt16) : Wish → Except Fault (Option (UInt16 × Stage α))
  | .soon => some <$> s.appoint current
  | .delayed highSpeed =>
    match s.delayFrames? highSpeed with
    | none => .ok none
    | some offset => some <$> s.postpone current offset

variable {s s' : Stage α} {current offset frame : UInt16} {highSpeed : Bool} {wish : Wish}

theorem plan_soon_ok : s.plan current .soon = .ok (some (frame, s')) ↔
    s.appoint current = .ok (frame, s') := by
  rw [plan, Fault.map_eq_ok]
  simp

theorem plan_delayed_ok : s.plan current (.delayed highSpeed) = .ok (some (frame, s')) ↔
    ∃ offset, s.delayFrames? highSpeed = some offset ∧
      s.postpone current offset = .ok (frame, s') := by
  rw [plan]
  cases s.delayFrames? highSpeed with
  | none => simp
  | some offset => simp [Fault.map_eq_ok]

/-- Only an interval that is too long leaves a stage without a plan. -/
theorem plan_eq_none : s.plan current wish = .ok none ↔
    ∃ highSpeed, wish = .delayed highSpeed ∧ s.delayFrames? highSpeed = none := by
  cases wish with
  | soon =>
    rw [plan, Fault.map_eq_ok]
    simp
  | delayed highSpeed =>
    rw [plan]
    cases hoffset : s.delayFrames? highSpeed with
    | none => simp [hoffset]
    | some offset => simp [hoffset, Fault.map_eq_ok]

theorem appoint_ok (h : s.appoint current = .ok (frame, s')) :
    s.scheduler = none ∧ frame = add current 1 ∧ s' = s ∨
    ∃ scheduler scheduler', s.scheduler = some scheduler ∧
      scheduler.frameNumber current = .ok (frame, scheduler') ∧
      s' = { s with scheduler := some scheduler' } := by
  unfold appoint at h
  cases hs : s.scheduler with
  | none =>
    rw [hs] at h
    cases h
    exact .inl ⟨rfl, rfl, rfl⟩
  | some scheduler =>
    rw [hs] at h
    obtain ⟨⟨frame', scheduler'⟩, hframe, h⟩ := Fault.bind_eq_ok.1 h
    cases h
    exact .inr ⟨scheduler, scheduler', rfl, hframe, rfl⟩

theorem postpone_ok (h : s.postpone current offset = .ok (frame, s')) :
    s.isSplit = false ∧ frame = add current offset ∧ s' = s ∨
    ∃ scheduler scheduler', s.scheduler = some scheduler ∧ scheduler.isSplit = true ∧
      scheduler.restart current offset = .ok (frame, scheduler') ∧
      s' = { s with scheduler := some scheduler' } := by
  unfold postpone at h
  cases hfilter : s.scheduler.filter Scheduler.isSplit with
  | none =>
    rw [hfilter] at h
    cases h
    refine .inl ⟨?_, rfl, rfl⟩
    rw [Option.filter_eq_none_iff] at hfilter
    unfold isSplit
    cases hs : s.scheduler with
    | none => rfl
    | some scheduler => simpa using hfilter scheduler hs
  | some scheduler =>
    rw [hfilter] at h
    obtain ⟨⟨frame', scheduler'⟩, hframe, h⟩ := Fault.bind_eq_ok.1 h
    cases h
    obtain ⟨hs, hsplit⟩ := Option.filter_eq_some_iff.1 hfilter
    exact .inr ⟨scheduler, scheduler', hs, hsplit, hframe, rfl⟩

/-- In planning, nothing but the scheduler of a stage moves on. -/
theorem eq_of_plan (h : s.plan current wish = .ok (some (frame, s'))) :
    ∃ scheduler, s' = { s with scheduler := scheduler } := by
  cases wish with
  | soon =>
    rcases appoint_ok (plan_soon_ok.1 h) with ⟨-, -, rfl⟩ | ⟨-, scheduler', -, -, rfl⟩
    · exact ⟨s'.scheduler, rfl⟩
    · exact ⟨some scheduler', rfl⟩
  | delayed highSpeed =>
    obtain ⟨offset, -, h⟩ := plan_delayed_ok.1 h
    rcases postpone_ok h with ⟨-, -, rfl⟩ | ⟨-, scheduler', -, -, -, rfl⟩
    · exact ⟨s'.scheduler, rfl⟩
    · exact ⟨some scheduler', rfl⟩

/-- What a plan has done with the scheduler of a stage, if it has one. -/
inductive Moves (current frame : UInt16) (scheduler scheduler' : Scheduler) : Wish → Prop
  | appointed (h : scheduler.frameNumber current = .ok (frame, scheduler')) :
      Moves current frame scheduler scheduler' .soon
  | deferred {highSpeed : Bool} (h : scheduler.isSplit = false) (h' : scheduler' = scheduler) :
      Moves current frame scheduler scheduler' (.delayed highSpeed)
  | restarted {highSpeed : Bool} {offset : UInt16}
      (h : scheduler.restart current offset = .ok (frame, scheduler')) :
      Moves current frame scheduler scheduler' (.delayed highSpeed)

theorem plan_cases (h : s.plan current wish = .ok (some (frame, s'))) :
    s.scheduler = none ∧ s'.scheduler = none ∨
    ∃ scheduler scheduler', s.scheduler = some scheduler ∧ s'.scheduler = some scheduler' ∧
      Moves current frame scheduler scheduler' wish := by
  cases wish with
  | soon =>
    rcases appoint_ok (plan_soon_ok.1 h) with ⟨hnone, -, rfl⟩ | ⟨scheduler, _, hs, hframe, rfl⟩
    · exact .inl ⟨hnone, hnone⟩
    · exact .inr ⟨scheduler, _, hs, rfl, .appointed hframe⟩
  | delayed highSpeed =>
    obtain ⟨offset, -, h⟩ := plan_delayed_ok.1 h
    rcases postpone_ok h with ⟨hsplit, -, rfl⟩ | ⟨scheduler, _, hs, -, hrestart, rfl⟩
    · cases hs : s'.scheduler with
      | none => exact .inl ⟨rfl, rfl⟩
      | some scheduler =>
        have hsplit' : scheduler.isSplit = false := by simpa [isSplit, hs] using hsplit
        exact .inr ⟨scheduler, scheduler, rfl, rfl, .deferred hsplit' rfl⟩
    · exact .inr ⟨scheduler, _, hs, rfl, .restarted hrestart⟩

/-- An interrupt split goes out in the microframe that it aims at. It remembers this microframe,
unless it has started over. -/
theorem plan_periodic {p' : Periodic} (h : s.plan current wish = .ok (some (frame, s')))
    (hs' : s'.scheduler = some (.periodic p')) : ∃ p microframe earliest,
      s.scheduler = some (.periodic p) ∧ p.Aims current microframe ∧
      frame = numberOf (nextIn microframe.toNat earliest) ∧
      (wish = .soon ∧ p'.phase = p.phase ∧ p'.microframe = some microframe ∨
        wish ≠ .soon ∧ p'.microframe = none) := by
  rcases plan_cases h with ⟨-, hnone⟩ | ⟨scheduler, scheduler', hs, hafter, hmoves⟩
  · rw [hnone] at hs'
    cases hs'
  · rw [hafter] at hs'
    cases hs'
    cases hmoves with
    | appointed hframe =>
      obtain ⟨p, rfl, microframe, haims, htime, rfl⟩ := Scheduler.frameNumber_eq_periodic hframe
      exact ⟨p, microframe, _, hs, haims, htime, .inl ⟨rfl, rfl, rfl⟩⟩
    | deferred hsplit hsame =>
      subst hsame
      cases hsplit
    | restarted hrestart =>
      obtain ⟨p, rfl, microframe, haims, htime, rfl⟩ := Scheduler.restart_eq_periodic hrestart
      exact ⟨p, microframe, _, hs, haims, htime, .inr ⟨nofun, rfl⟩⟩

end Stage

namespace Dispatcher

/-- Queue a stage in one of the two ways. -/
def submit (d : Dispatcher α) (current : UInt16) (stage : Stage α) :
    Wish → Except Fault (Except (Stage α) (UInt16 × Dispatcher α))
  | .soon => d.queueStage current stage
  | .delayed highSpeed => d.queueDelayed current stage highSpeed

/-- Park a stage as planned; one without a plan is handed back. -/
def parkPlanned (d : Dispatcher α) (stage : Stage α) :
    Option (UInt16 × Stage α) → Except (Stage α) (UInt16 × Dispatcher α)
  | none => .error stage
  | some (frame, stage') => d.park stage' frame

variable {d d' : Dispatcher α} {capacity : Nat} {stage stage' : Stage α} {current frame : UInt16}
  {wish : Wish}

theorem queueStage_eq : d.queueStage current stage =
    (fun (frame, stage') => d.park stage' frame) <$> stage.appoint current := by
  unfold queueStage Stage.appoint
  cases stage.scheduler with
  | none => rfl
  | some scheduler => simp only [map_bind, map_pure]

theorem queueDelayed_eq {highSpeed : Bool} {offset : UInt16}
    (h : stage.delayFrames? highSpeed = some offset) :
    d.queueDelayed current stage highSpeed =
      (fun (frame, stage') => d.park stage' frame) <$> stage.postpone current offset := by
  unfold queueDelayed Stage.postpone
  rw [h]
  cases stage.scheduler.filter Scheduler.isSplit with
  | none => rfl
  | some scheduler =>
    simp only [Scheduler.restart, bind_assoc, pure_bind, map_bind, map_pure]

/-- To queue a stage is to plan, and then to park as planned. -/
theorem submit_eq :
    d.submit current stage wish = d.parkPlanned stage <$> stage.plan current wish := by
  cases wish with
  | soon =>
    rw [submit, queueStage_eq, Stage.plan, Functor.map_map]
    rfl
  | delayed highSpeed =>
    rw [submit, Stage.plan]
    cases hoffset : stage.delayFrames? highSpeed with
    | none =>
      rw [queueDelayed, hoffset]
      rfl
    | some offset =>
      simp only [queueDelayed_eq hoffset, Functor.map_map]
      rfl

theorem submit_accepted (h : d.submit current stage wish = .ok (.ok (frame, d'))) :
    ∃ stage', stage.plan current wish = .ok (some (frame, stage')) ∧
      d.park stage' frame = .ok (frame, d') := by
  rw [submit_eq] at h
  obtain ⟨plan, hplan, h⟩ := Fault.map_eq_ok.1 h
  match plan, h with
  | none, h => cases h
  | some (frame', stage'), h =>
    obtain rfl := frame_of_park h
    exact ⟨stage', hplan, h⟩

/-- A stage is handed back for one of two reasons. If there is no room, it has moved on. -/
theorem WellFormed.submit_refused (hd : d.WellFormed capacity)
    (h : d.submit current stage wish = .ok (.error stage')) :
    stage.plan current wish = .ok none ∧ stage' = stage ∨
    d.stages.length = capacity ∧ ∃ frame, stage.plan current wish = .ok (some (frame, stage')) := by
  rw [submit_eq] at h
  obtain ⟨plan, hplan, h⟩ := Fault.map_eq_ok.1 h
  match plan, h with
  | none, h =>
    cases h
    exact .inl ⟨hplan, rfl⟩
  | some (frame, planned), h =>
    rw [parkPlanned] at h
    rcases hd.park_cases planned frame with ⟨-, d', hpark, -⟩ | ⟨hfull, hpark⟩
    · rw [hpark] at h
      cases h
    · rw [hpark] at h
      cases h
      exact .inr ⟨hfull, frame, hplan⟩

/-- An interrupt split that has just been set up, with an interval of eight frames. -/
def interruptStage : Stage Nat := ⟨2, ⟨2⟩, some (.periodic {}), 8⟩

end Dispatcher

end UsbHost.Frame
