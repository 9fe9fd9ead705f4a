import UsbHost.Proofs.Frame.Appointment
import UsbHost.Proofs.Frame.Upkeep

/-!
Delayed stages. A stage that is queued for its next service interval is to wait at least until the
frame now is over. Later is what lies ahead by less than half the frame range. Isochronous splits
are aligned down, the other splits go out a little after the interval, and so a very short or a very
long interval may leave this half. In all other cases the stage is not offered in the frame now.
-/

namespace UsbHost.Frame

variable {α ρ : Type}

/-! ### Targets -/

namespace Stage

/-- The frame that a delayed stage waits for, counted without wrap, when `current` is the frame now
and the next service interval is `offset` frames away. -/
inductive Target (current offset : UInt16) : Option Scheduler → Nat → Prop
  | plain : Target current offset none (current.toNat + offset.toNat)
  | unsplit (s : Unsplit) :
      Target current offset (some (.unsplit s)) (current.toNat + offset.toNat)
  | nonPeriodic (s : NonPeriodic) :
      Target current offset (some (.nonPeriodic s)) (current.toNat + offset.toNat + 1)
  | periodic {s : Periodic} {microframe : UInt16} (h : s.Aims current microframe) :
      Target current offset (some (.periodic s))
        (nextIn microframe.toNat (current.toNat + offset.toNat + 1))
  | isochronous (s : Isochronous) :
      Target current offset (some (.isochronous s))
        ((current.toNat + offset.toNat) / 8 * 8 + if s.directionIn then 4 else 0)

variable {s s' : Stage α} {current offset frame : UInt16} {target : Nat}

theorem target_of_postpone (h : s.postpone current offset = .ok (frame, s')) :
    ∃ target, Target current offset s.scheduler target ∧ frame = numberOf target := by
  rcases postpone_ok h with ⟨hsplit, rfl, -⟩ | ⟨scheduler, scheduler', hs, hsplit, hrestart, -⟩
  · refine ⟨_, ?_, add_eq_numberOf current offset⟩
    unfold isSplit at hsplit
    match s.scheduler, hsplit with
    | none, _ => exact .plain
    | some (.unsplit s), _ => exact .unsplit s
  · rw [hs]
    cases scheduler with
    | unsplit s => cases hsplit
    | isochronous s =>
      obtain ⟨-, hframe, -⟩ := Scheduler.restart_isochronous hrestart
      exact ⟨_, .isochronous s, hframe⟩
    | periodic s =>
      obtain ⟨-, microframe, haims, hframe, -⟩ := Scheduler.restart_periodic hrestart
      exact ⟨_, .periodic haims, hframe⟩
    | nonPeriodic s =>
      obtain ⟨-, hframe, -⟩ := Scheduler.restart_nonPeriodic hrestart
      exact ⟨_, .nonPeriodic s, hframe⟩

/-- A target lies less than eight frames before the next service interval, or up to eight behind. -/
theorem Target.bounds {scheduler : Option Scheduler} (h : Target current offset scheduler target) :
    current.toNat + offset.toNat < target + 8 ∧ target ≤ current.toNat + offset.toNat + 8 := by
  cases h with
  | plain | unsplit | nonPeriodic => omega
  | periodic haims =>
    rename_i microframe
    have hle := le_nextIn microframe.toNat (current.toNat + offset.toNat + 1)
    have hlt := nextIn_lt microframe.toNat (current.toNat + offset.toNat + 1)
    omega
  | isochronous s =>
    cases s.directionIn
    · simp only [Bool.false_eq_true, if_false]
      omega
    · simp only [if_true]
      omega

theorem Target.eq_of_not_isSplit (h : Target current offset s.scheduler target)
    (hs : s.isSplit = false) : target = current.toNat + offset.toNat := by
  unfold isSplit at hs
  generalize s.scheduler = scheduler at h hs
  cases h with
  | plain | unsplit => rfl
  | nonPeriodic | periodic | isochronous => cases hs

theorem delayFrames?_eq_some {highSpeed : Bool} (h : s.delayFrames? highSpeed = some offset) :
    offset.toNat = s.interval.toNat * (if highSpeed then 8 else 1) ∧ offset.toNat ≤ window := by
  have hhalf : (maxNumber / 2).toNat = 0x1fff := rfl
  simp only [delayFrames?, Option.ite_none_right_eq_some, hhalf] at h
  obtain ⟨hlt, h⟩ := h
  cases h
  rw [UInt16.toNat_ofNat']
  unfold window
  cases highSpeed with
  | true =>
    simp only [if_true, microframesPerFrame] at hlt ⊢
    omega
  | false =>
    simp only [Bool.false_eq_true, if_false] at hlt ⊢
    omega

/-- A target within reach of the frame now is told to be later exactly if it lies ahead by no more
than a window. -/
theorem Target.isLater_iff (h : Target current offset s.scheduler target)
    (hcurrent : current ≤ maxNumber) (hoffset : offset.toNat ≤ window) :
    isLater (numberOf target) current = true ↔
      current.toNat < target ∧ target ≤ current.toNat + window := by
  obtain ⟨hlow, hhigh⟩ := h.bounds
  unfold window at hoffset
  have hiff : isLater (numberOf target) (numberOf current.toNat) = true ↔ _ :=
    isLater_numberOf_iff (by omega) (by omega)
  rwa [numberOf_toNat hcurrent] at hiff

end Stage

namespace Dispatcher

/-! ### Held back -/

/-- The dispatcher parks a stage for none but frames later than `current`. -/
structure HoldsBack (capacity : Nat) (current : UInt16) (stage : Stage α) (d : Dispatcher α) :
    Prop where
  wellFormed : d.WellFormed capacity
  later : ∀ entry ∈ d.queue.toList, entry.item = stage → isLater entry.frame current = true

variable {d d' : Dispatcher α} {capacity : Nat} {stage stage' : Stage α}
  {current offset frame : UInt16} {target : Nat} {highSpeed : Bool}

theorem HoldsBack.park (h : HoldsBack capacity current stage d) {frame' : UInt16}
    (hpark : d.park stage' frame = .ok (frame', d'))
    (hlater : stage' = stage → isLater frame current = true) :
    HoldsBack capacity current stage d' := by
  refine ⟨h.wellFormed.park hpark, fun entry hentry hitem => ?_⟩
  rcases (h.wellFormed.mem_park hpark).1 hentry with rfl | hentry
  · exact hlater hitem
  · exact h.later entry hentry hitem

theorem HoldsBack.take (h : HoldsBack capacity current stage d) {q : DeadlineQueue (Stage α)}
    (hdequeue : d.queue.dequeue current = some (stage', q)) :
    stage' ≠ stage ∧ HoldsBack capacity current stage { d with queue := q } := by
  obtain ⟨hwf, entry, hlist, rfl, hdue⟩ := h.wellFormed.take_due hdequeue
  have hlater := h.later
  rw [hlist] at hlater
  refine ⟨fun hitem => ?_, hwf, fun other hother => hlater other (List.mem_cons_of_mem _ hother)⟩
  have hnow := hlater entry List.mem_cons_self hitem
  rw [hdue] at hnow
  cases hnow

/-- One who, when asked about other stages, does not park a stage for the frame now either. -/
def Patient (capacity : Nat) (current : UInt16) (stage : Stage α) (start : Taker α ρ) : Prop :=
  ∀ other d record, other ≠ stage → HoldsBack capacity current stage d →
    HoldsBack capacity current stage (start other d record).1.2 ∧
      (start other d record).1.1 ≠ .handedBack stage

/-- A stage that is held back is not offered: how one would react to it does not matter. -/
theorem HoldsBack.not_offered (h : HoldsBack capacity current stage d) {start start' : Taker α ρ}
    (hstart : Patient capacity current stage start)
    (hagree : ∀ other, other ≠ stage → start' other = start other) (limit : Nat) (record : ρ) :
    startOfFrame limit current start' d record = startOfFrame limit current start d record := by
  have hkeeps : Keeps (HoldsBack capacity current stage) (· ≠ stage) (· ≠ stage) current start :=
    { take := fun _ _ _ h hdequeue => h.take hdequeue
      offer := fun other d record hother h =>
        ⟨(hstart other d record hother h).1, fun stage' hanswer hstage' =>
          (hstart other d record hother h).2 (hstage' ▸ hanswer)⟩
      park := fun _ _ _ _ h hback hpark => h.park hpark fun hsame => absurd hsame hback }
  exact (hkeeps.startOfFrame limit h record).2 start' hagree

/-! ### Delayed stages wait -/

/-- What there is to know about a stage that has been queued for its next service interval. -/
structure Waits (capacity : Nat) (d d' : Dispatcher α) (current frame : UInt16)
    (stage stage' : Stage α) (offset : UInt16) (target : Nat) : Prop where
  kept : ∃ scheduler, stage' = { stage with scheduler := scheduler }
  aim : Stage.Target current offset stage.scheduler target
  frame_eq : frame = numberOf target
  parked : ⟨stage', stage.owner, frame⟩ ∈ d'.queue.toList
  later_iff : isLater frame current = true ↔
    current.toNat < target ∧ target ≤ current.toNat + window
  later_unsplit : stage.isSplit = false → isLater frame current = true
  later_split : 8 ≤ offset.toNat → offset.toNat + 8 ≤ window → isLater frame current = true
  not_offered : isLater frame current = true → HoldsBack capacity current stage' d →
    ∀ {ρ : Type} (start start' : Taker α ρ), Patient capacity current stage' start →
      (∀ other, other ≠ stage' → start' other = start other) → ∀ limit record,
      startOfFrame limit current start' d' record = startOfFrame limit current start d' record

/-- A delayed stage waits for a later frame whenever its target, counted without wrap, is ahead of
the frame now by no more than a window. This is so for all stages without a split, and for splits
whose next service interval is neither less than eight frames away nor within eight frames of half
the range. Such a stage is not offered in the frame now. -/
theorem waits_of_queueDelayed (hd : d.WellFormed capacity) (hcurrent : current ≤ maxNumber)
    (hinterval : 1 ≤ stage.interval)
    (h : d.queueDelayed current stage highSpeed = .ok (.ok (frame, d'))) :
    ∃ offset target stage', stage.delayFrames? highSpeed = some offset ∧
      Waits capacity d d' current frame stage stage' offset target := by
  have hsubmit : d.submit current stage (.delayed highSpeed) = .ok (.ok (frame, d')) := h
  obtain ⟨stage', hplan, hpark⟩ := submit_accepted hsubmit
  obtain ⟨scheduler, hstage'⟩ := Stage.eq_of_plan hplan
  obtain ⟨offset, hoffset, hpostpone⟩ := Stage.plan_delayed_ok.1 hplan
  obtain ⟨target, htarget, rfl⟩ := Stage.target_of_postpone hpostpone
  obtain ⟨hframes, hwindow⟩ := Stage.delayFrames?_eq_some hoffset
  have hiff := htarget.isLater_iff hcurrent hwindow
  obtain ⟨hlow, hhigh⟩ := htarget.bounds
  refine ⟨offset, target, stage', hoffset, ⟨scheduler, hstage'⟩, htarget, rfl, ?parked, hiff,
    ?unsplit, ?split, ?offer⟩
  case parked =>
    have howner : stage'.owner = stage.owner := by rw [hstage']
    exact howner ▸ (hd.mem_park hpark).2 (.inl rfl)
  case unsplit =>
    intro hsplit
    have hone : 1 ≤ stage.interval.toNat := UInt16.le_iff_toNat_le.1 hinterval
    have hpositive : 1 ≤ offset.toNat := by
      rw [hframes]
      split <;> omega
    have heq := htarget.eq_of_not_isSplit hsplit
    exact hiff.2 (by omega)
  case split =>
    intro hfar hnear
    exact hiff.2 (by omega)
  case offer =>
    intro hlater hback ρ start start' hstart hagree limit record
    exact (hback.park hpark fun _ => hlater).not_offered hstart hagree limit record

theorem waits_of_queueDelayed_interrupt :
    (waiting 2 [1]).WellFormed 2 ∧ (10 : UInt16) ≤ maxNumber ∧ 1 ≤ interruptStage.interval ∧
    ∃ d', (waiting 2 [1]).queueDelayed 10 interruptStage true = .ok (.ok (75, d')) ∧
      ∃ offset target stage', interruptStage.delayFrames? true = some offset ∧
        Waits 2 (waiting 2 [1]) d' 10 75 interruptStage stage' offset target :=
  have hwf := wellFormed_waiting (by decide) [1]
  ⟨hwf, by decide, by decide, _, rfl, waits_of_queueDelayed hwf (by decide) (by decide) rfl⟩

/-- An isochronous split that has been refused, with an interval of one frame. -/
def isochronousStage : Stage Nat :=
  ⟨1, ⟨1⟩, some (.isochronous
    { directionIn := false, phase := .periodicDelay, offset := 8, aligned := true }), 1⟩

/-- Delayed in frame 10, an isochronous split is parked for frame 8 and offered at once. At the
other end of the range, an interrupt split waits so long that its frame counts as past. -/
theorem delayed_stage_is_due :
    (∃ d' d'' record, (waiting 4 []).queueDelayed 10 isochronousStage false = .ok (.ok (8, d')) ∧
      isLater 8 10 = false ∧
      startOfFrame 4 10 (ask fun _ _ => .answer true ()) d' ⟨(), []⟩ = ((1, d''), record)) ∧
    ∃ d', (waiting 4 []).queueDelayed 0 { interruptStage with interval := 8190 } false =
      .ok (.ok (8193, d')) ∧ isLater 8193 0 = false :=
  ⟨⟨_, _, _, rfl, by decide, rfl⟩, _, rfl, by decide⟩

end Dispatcher

end UsbHost.Frame
