import UsbHost.Proofs.Frame.Course
import UsbHost.Proofs.Frame.Steps

/-!
Microframes of interrupt splits. A start split is not to go out in microframe 6, whose complete
splits would spill into the next frame. In every course of a dispatcher there are two ways only for
a start split to get there: it is delayed while its scheduler still remembers microframe 6 from a
complete split, or it is handed back in microframe 5.
-/

namespace UsbHost.Frame

/-! ### Remembered microframes -/

/-- What a remembered microframe can be. In a start split it has been chosen, and so is not 6. -/
structure Periodic.Regular (s : Periodic) : Prop where
  lt : ∀ microframe, s.microframe = some microframe → microframe.toNat < 8
  starting : s.phase = .startSplit → s.microframe ≠ some 6

namespace Periodic

variable {s s' : Periodic} {current frame microframe : UInt16}

theorem Regular.aims (h : s.Regular) (haims : s.Aims current microframe) :
    microframe.toNat < 8 ∧ (microframe = 6 ↔ s.microframe = some 6) := by
  cases haims with
  | remembered hs => exact ⟨h.lt microframe hs, by simp [hs]⟩
  | chosen hs hchoose =>
    obtain ⟨hlt, hne⟩ := chooseMicroframe_ok hchoose
    exact ⟨hlt, by simp [hs, hne]⟩

theorem Regular.startSplit (h : s.startSplit = .ok s') : s'.Regular := by
  obtain ⟨-, rfl⟩ := startSplit_ok h
  exact ⟨nofun, nofun⟩

theorem Regular.completeSplit {more : Bool} (hs : s.Regular)
    (h : s.completeSplit = .ok (more, s')) : s'.Regular := by
  unfold Periodic.completeSplit at h
  split at h
  case h_1 | h_2 =>
    cases h
    refine ⟨fun microframe hmicroframe => ?_, by simp [*]⟩
    cases hmicroframe
    rw [toNat_and_seven]
    exact Nat.mod_lt _ (by decide)
  case h_3 | h_4 =>
    cases h
    exact hs
  case h_5 => cases h

theorem Regular.finish {status : ChannelStatus} (hs : s.Regular) (h : s.finish status = .ok s') :
    s'.Regular := by
  have hkept : s'.microframe = s.microframe ∧ s'.phase ≠ .startSplit := by
    unfold Periodic.finish at h
    split at h
    case h_1 => split at h <;> cases h <;> exact ⟨rfl, nofun⟩
    case h_2 | h_3 =>
      cases h
      unfold conclude fail
      repeat' split
      all_goals exact ⟨rfl, nofun⟩
    case h_4 => cases h
  exact ⟨hkept.1 ▸ hs.lt, fun hstart => absurd hstart hkept.2⟩

theorem Regular.frameNumber (hs : s.Regular) (h : s.frameNumber current = .ok (frame, s')) :
    s'.Regular := by
  obtain ⟨microframe, haims, -, rfl⟩ := frameNumber_ok h
  obtain ⟨hlt, hsix⟩ := hs.aims haims
  refine ⟨fun microframe' h => Option.some.inj h ▸ hlt, fun hphase h => hs.starting hphase ?_⟩
  exact hsix.1 (Option.some.inj h)

end Periodic

namespace Scheduler

def Regular : Scheduler → Prop
  | periodic s => s.Regular
  | _ => True

theorem Regular.perform {s s' : Scheduler} {call : Call} {more : Bool} (hs : s.Regular)
    (h : s.perform call = .ok (more, s')) : s'.Regular := by
  cases performs_of_perform h with
  | startPeriodic hbegun => exact .startSplit hbegun
  | completePeriodic hcomplete => exact hs.completeSplit hcomplete
  | finishPeriodic hdone => exact hs.finish hdone
  | framePeriodic hnumber => exact hs.frameNumber hnumber
  | delayPeriodic s offset => exact ⟨hs.lt, hs.starting⟩
  | startIsochronous | startNonPeriodic | completeIsochronous | completeNonPeriodic
  | finishIsochronous | finishNonPeriodic | frameIsochronous | frameNonPeriodic | frameUnsplit
  | delayIsochronous | delayNonPeriodic | delayUnsplit => trivial

theorem regular_of_select {shape : TransferShape} {s : Scheduler} (h : select shape = some s) :
    s.Regular := by
  unfold select at h
  repeat' split at h
  all_goals cases h
  all_goals first | trivial | exact ⟨nofun, nofun⟩

/-- The schedulers that there are: made for some transfer, and moved on by calls. -/
inductive Arises : Scheduler → Prop
  | select {shape : TransferShape} {s : Scheduler} (h : select shape = some s) : Arises s
  | perform {s s' : Scheduler} {call : Call} {more : Bool} (hs : Arises s)
      (h : s.perform call = .ok (more, s')) : Arises s'

theorem Arises.regular {s : Scheduler} (h : s.Arises) : s.Regular := by
  induction h with
  | select h => exact regular_of_select h
  | perform _ h ih => exact ih.perform h

end Scheduler

/-! ### Start splits -/

theorem and_seven_eq_iff {frame microframe : UInt16} :
    frame &&& 7 = microframe ↔ frame.toNat % 8 = microframe.toNat := by
  rw [← UInt16.toNat_inj, toNat_and_seven]

/-- The first frame in a given microframe lies in microframe 6 only if that is the one given. -/
theorem nextIn_and_seven_iff {microframe : UInt16} (h : microframe.toNat < 8) (frame : Nat) :
    numberOf (nextIn microframe.toNat frame) &&& 7 = 6 ↔ microframe = 6 := by
  have hsix : (6 : UInt16).toNat = 6 := rfl
  rw [← UInt16.toNat_inj, microframe_numberOf, nextIn_mod, ← UInt16.toNat_inj, hsix]
  omega

theorem add_one_and_seven_iff {current : UInt16} :
    add current 1 &&& 7 = 6 ↔ current &&& 7 = 5 := by
  have hone : (1 : UInt16).toNat = 1 := rfl
  have hfive : (5 : UInt16).toNat = 5 := rfl
  have hsix : (6 : UInt16).toNat = 6 := rfl
  rw [add_eq_numberOf, and_seven_eq_iff, and_seven_eq_iff, toNat_numberOf, hone, hfive, hsix]
  omega

variable {α : Type}

/-- The acts that carry a start split to microframe 6. -/
def Act.Strays : Act α → Prop
  | .submit _ stage wish => wish ≠ .soon ∧
    ∃ s, stage.scheduler = some (.periodic s) ∧ s.microframe = some 6
  | .handBack current _ => current &&& 7 = 5

/-- Stages come to the dispatcher with schedulers that there are. -/
def Act.Arises : Act α → Prop
  | .submit _ stage _ => ∀ s, stage.scheduler = some s → s.Arises
  | .handBack _ _ => True

/-- An act carries a start split to microframe 6 only if it is one of those. -/
theorem Act.Parks.strays_iff {act : Act α} {stage : Stage α} {frame : UInt16}
    (h : act.Parks stage frame) (hact : act.Arises) {s : Periodic}
    (hs : stage.scheduler = some (.periodic s)) (hphase : s.phase = .startSplit) :
    frame &&& 7 = 6 ↔ act.Strays := by
  cases h with
  | handedBack => exact add_one_and_seven_iff
  | @submitted current frame before stage wish hplan =>
    obtain ⟨p, microframe, earliest, hbefore, haims, rfl, hafter⟩ := Stage.plan_periodic hplan hs
    have hregular : p.Regular := (hact _ hbefore).regular
    obtain ⟨hlt, hsix⟩ := hregular.aims haims
    rw [nextIn_and_seven_iff hlt, hsix]
    rcases hafter with ⟨hwish, hsame, -⟩ | ⟨hwish, -⟩
    · exact iff_of_false (hregular.starting (hsame ▸ hphase)) fun h => h.1 hwish
    · simp [Strays, hbefore, hwish]

namespace Dispatcher

/-- In every course of a new dispatcher, whoever uses it and however those react who are offered a
stage, a start split of an interrupt transfer is parked for microframe 6 only if it has been delayed
while its scheduler remembered microframe 6, or if it has been handed back in microframe 5. -/
theorem startSplit_microframe {A : Act α → Prop} {capacity : Nat} {d d' : Dispatcher α}
    (hnew : withCapacity capacity = .ok d) (hcourse : Course A d d')
    (harises : ∀ act, A act → act.Arises) {entry : DeadlineQueue.Entry (Stage α)}
    (hentry : entry ∈ d'.queue.toList) {s : Periodic}
    (hs : entry.item.scheduler = some (.periodic s)) (hphase : s.phase = .startSplit) :
    ∃ act, A act ∧ act.Parks entry.item entry.frame ∧ (entry.frame &&& 7 = 6 ↔ act.Strays) := by
  obtain ⟨act, hact, hparks⟩ := hcourse.origin hnew hentry
  exact ⟨act, hact, hparks, hparks.strays_iff (harises act hact) hs hphase⟩

/-- In frame 10, delay an interrupt split that has just been set up. -/
def delayInterrupt : Act Nat := .submit 10 interruptStage (.delayed true)

theorem arises_delayInterrupt : delayInterrupt.Arises := by
  rintro s ⟨⟩
  exact .select (show Scheduler.select { split := true, periodic := true } = _ from rfl)

theorem startSplit_microframe_interrupt :
    ∃ (d d' : Dispatcher Nat) (entry : DeadlineQueue.Entry (Stage Nat)) (s : Periodic),
    withCapacity 4 = .ok d ∧ Course (· = delayInterrupt) d d' ∧
    (∀ act, act = delayInterrupt → act.Arises) ∧ entry ∈ d'.queue.toList ∧
    entry.item.scheduler = some (.periodic s) ∧ s.phase = .startSplit ∧
    ∃ act, act = delayInterrupt ∧ act.Parks entry.item entry.frame ∧
      (entry.frame &&& 7 = 6 ↔ act.Strays) :=
  have hnew : withCapacity 4 = .ok (waiting 4 []) := rfl
  have hcourse : Course (· = delayInterrupt) (waiting 4 []) _ := .submit rfl rfl
  have harises : ∀ act, act = delayInterrupt → act.Arises :=
    fun _ hact => hact ▸ arises_delayInterrupt
  ⟨_, _, _, _, hnew, hcourse, harises, List.mem_singleton_self _, rfl, rfl,
    startSplit_microframe hnew hcourse harises (List.mem_singleton_self _) rfl rfl⟩

/-- An interrupt split with an interval of one frame, whose complete split has been refused in
microframe 6. -/
def refusedStage : Stage Nat := ⟨1, ⟨1⟩, some (.periodic ⟨.completeSplitFailed, 3, some 6, 5⟩), 1⟩

/-- In frame 6, delay it. -/
def delayRefused : Act Nat := .submit 6 refusedStage (.delayed true)

theorem arises_delayRefused : delayRefused.Arises := by
  rintro s ⟨⟩
  have hselected : Scheduler.Arises _ :=
    .select (show Scheduler.select { split := true, periodic := true } = _ from rfl)
  have hstarted : Scheduler.Arises _ :=
    .perform hselected (show Scheduler.perform _ .start = _ from rfl)
  have hplaced : Scheduler.Arises _ :=
    .perform hstarted (show Scheduler.perform _ (.frame 3) = _ from rfl)
  have hacknowledged : Scheduler.Arises _ :=
    .perform hplaced (show Scheduler.perform _ (.finish .ack) = _ from rfl)
  have hcompleting : Scheduler.Arises _ :=
    .perform hacknowledged (show Scheduler.perform _ .complete = _ from rfl)
  exact .perform hcompleting (show Scheduler.perform _ (.finish .nak) = _ from rfl)

/-- Whoever is offered a stage hands it back. -/
def handingBack : Taker Nat Unit := fun stage => return .handedBack stage

/-- The stage that was refused in microframe 6 is parked with its start split there again. So is a
start split that is handed back in frame 77. -/
theorem startSplit_in_microframe_six :
    (∃ d d' : Dispatcher Nat, withCapacity 4 = .ok d ∧ Course (· = delayRefused) d d' ∧
      delayRefused.Arises ∧
      ⟨{ refusedStage with scheduler := some (.periodic ⟨.startSplit, 3, none, 0⟩) }, ⟨1⟩, 22⟩ ∈
        d'.queue.toList ∧ (22 : UInt16) &&& 7 = 6) ∧
    ∃ d d' : Dispatcher Nat, withCapacity 4 = .ok d ∧
      Course (fun act => act = delayInterrupt ∨ ∃ stage, act = .handBack 77 stage) d d' ∧
      delayInterrupt.Arises ∧
      ⟨{ interruptStage with scheduler := some (.periodic ⟨.startSplit, 0, none, 0⟩) }, ⟨2⟩, 78⟩ ∈
        d'.queue.toList ∧ (78 : UInt16) &&& 7 = 6 :=
  ⟨⟨waiting 4 [], _, rfl, .submit rfl rfl, arises_delayRefused, List.mem_singleton_self _, rfl⟩,
    waiting 4 [], _, rfl,
    .trans (.submit (.inl rfl) rfl)
      (@Course.startOfFrame _ _ _ handingBack 77 (fun _ d _ => .refl d)
        (fun _ _ _ _ _ => .inr ⟨_, rfl⟩) 4 _ ()),
    arises_delayInterrupt, List.mem_singleton_self _, rfl⟩

end Dispatcher

end UsbHost.Frame
