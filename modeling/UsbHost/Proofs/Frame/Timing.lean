import UsbHost.Frame.Scheduler
import UsbHost.Proofs.Attempt
import UsbHost.Proofs.Frame.Window

/-!
When a transaction may go out. The schedulers compute with words and masks; here the frames that
they ask for are numbers counted without wrap, so that they can be compared.
-/

namespace UsbHost.Frame

/-! ### Words as numbers -/

theorem numberOf_toNat {frame : UInt16} (h : frame ≤ maxNumber) : numberOf frame.toNat = frame := by
  have hle : frame.toNat ≤ 0x3fff := UInt16.le_iff_toNat_le.1 h
  rw [← UInt16.toNat_inj, toNat_numberOf]
  omega

theorem add_eq_numberOf (frame offset : UInt16) :
    add frame offset = numberOf (frame.toNat + offset.toNat) := by
  rw [← UInt16.toNat_inj, add, toNat_and_maxNumber, toNat_numberOf, UInt16.toNat_add]
  omega

theorem add_numberOf (frame : Nat) (offset : UInt16) :
    add (numberOf frame) offset = numberOf (frame + offset.toNat) := by
  rw [← UInt16.toNat_inj, add_eq_numberOf, toNat_numberOf, toNat_numberOf, toNat_numberOf]
  omega

/-- The low three bits of a frame number are its microframe. -/
theorem toNat_and_seven (frame : UInt16) : (frame &&& 7).toNat = frame.toNat % 8 := by
  have hmask : (7 : UInt16).toNat = 2 ^ 3 - 1 := rfl
  rw [UInt16.toNat_and, hmask, Nat.and_two_pow_sub_one_eq_mod]

@[simp] theorem microframe_numberOf (frame : Nat) : (numberOf frame &&& 7).toNat = frame % 8 := by
  rw [toNat_and_seven, toNat_numberOf]
  omega

theorem isOdd_eq (frame : UInt16) : isOdd frame = decide (frame.toNat % 2 = 1) := by
  have hmask : (1 : UInt16).toNat = 2 ^ 1 - 1 := rfl
  have hbit : (frame &&& 1).toNat = frame.toNat % 2 := by
    rw [UInt16.toNat_and, hmask, Nat.and_two_pow_sub_one_eq_mod]
  rw [isOdd, Bool.eq_iff_iff, bne_iff_ne, decide_eq_true_iff, ne_eq, ← UInt16.toNat_inj, hbit]
  change ¬ frame.toNat % 2 = 0 ↔ _
  omega

@[simp] theorem isOdd_numberOf (frame : Nat) : isOdd (numberOf frame) = decide (frame % 2 = 1) := by
  rw [isOdd_eq, toNat_numberOf]
  congr 2
  omega

theorem plus_eq_ok {a b c : UInt16} (h : plus a b = .ok c) : c.toNat = a.toNat + b.toNat := by
  unfold plus at h
  split at h
  case isTrue hlt =>
    cases h
    rw [UInt16.toNat_add, Nat.mod_eq_of_lt hlt]
  case isFalse => cases h

/-- A wait of `backoff` frames, and the next frame behind it. -/
theorem add_plus_one {backoff ahead : UInt16} (h : plus 1 backoff = .ok ahead)
    (current : UInt16) : add current ahead = numberOf (current.toNat + backoff.toNat + 1) := by
  have hone : (1 : UInt16).toNat = 1 := rfl
  rw [add_eq_numberOf, plus_eq_ok h, hone, Nat.add_comm 1, ← Nat.add_assoc]

/-! ### Interrupt splits -/

/-- The first frame from `frame` on that lies in a given microframe. -/
def nextIn (microframe frame : Nat) : Nat := frame + (microframe + 8 - frame % 8) % 8

@[simp] theorem nextIn_mod (microframe frame : Nat) :
    nextIn microframe frame % 8 = microframe % 8 := by
  unfold nextIn
  omega

theorem le_nextIn (microframe frame : Nat) : frame ≤ nextIn microframe frame := Nat.le_add_right _ _

theorem nextIn_lt (microframe frame : Nat) : nextIn microframe frame < frame + 8 := by
  unfold nextIn
  omega

namespace Periodic

variable {s s' : Periodic} {current frame microframe : UInt16}

/-- The microframe that the next transaction goes out in, when `current` is the frame now. -/
inductive Aims (s : Periodic) (current microframe : UInt16) : Prop
  | remembered (h : s.microframe = some microframe)
  | chosen (h : s.microframe = none) (h' : chooseMicroframe current = .ok microframe)

theorem chooseMicroframe_ok (h : chooseMicroframe current = .ok microframe) :
    microframe.toNat < 8 ∧ microframe ≠ 6 := by
  obtain ⟨next, -, h⟩ := Fault.bind_eq_ok.1 h
  cases h
  split
  case isTrue => decide
  case isFalse hne => exact ⟨by rw [toNat_and_seven]; omega, hne⟩

theorem frameNumber_ok (h : s.frameNumber current = .ok (frame, s')) :
    ∃ microframe, s.Aims current microframe ∧
      frame = numberOf (nextIn microframe.toNat (current.toNat + s.backoff.toNat + 1)) ∧
      s' = { s with microframe := some microframe, backoff := 0 } := by
  obtain ⟨microframe, hmicroframe, h⟩ := Fault.bind_eq_ok.1 h
  cases h
  refine ⟨microframe, ?_, ?_, rfl⟩
  · cases hs : s.microframe with
    | none =>
      rw [hs] at hmicroframe
      exact .chosen hs hmicroframe
    | some m =>
      rw [hs] at hmicroframe
      cases hmicroframe
      exact .remembered hs
  · rw [add_eq_numberOf current, add_numberOf, add_numberOf, toNat_and_seven, UInt16.toNat_sub,
      toNat_numberOf]
    have hone : (1 : UInt16).toNat = 1 := rfl
    rw [hone, nextIn]
    congr 1
    omega

theorem startSplit_ok (h : s.startSplit = .ok s') :
    s.phase ≠ .startSplit ∧ s' = { s with phase := .startSplit, microframe := none } := by
  unfold startSplit at h
  split at h
  case h_4 => cases h
  all_goals
    rename_i hphase
    cases h
    exact ⟨by simp [hphase], rfl⟩

end Periodic

/-! ### Transactions that are not bound to a microframe -/

theorem NonPeriodic.frameNumber_ok {s s' : NonPeriodic} {current frame : UInt16}
    (h : s.frameNumber current = .ok (frame, s')) :
    frame = numberOf (current.toNat + s.backoff.toNat + 1) ∧
      s' = { s with backoff := 0, nextFrame := some frame } := by
  obtain ⟨ahead, hahead, h⟩ := Fault.bind_eq_ok.1 h
  cases h
  exact ⟨add_plus_one hahead current, rfl⟩

theorem NonPeriodic.startSplit_ok {s s' : NonPeriodic} (h : s.startSplit = .ok s') :
    s.phase ≠ .startSplit ∧ s' = { s with phase := .startSplit } := by
  unfold startSplit at h
  split at h
  case h_4 => cases h
  all_goals
    rename_i hphase
    cases h
    exact ⟨by simp [hphase], rfl⟩

theorem Unsplit.frameNumber_ok {s s' : Unsplit} {current frame : UInt16}
    (h : s.frameNumber current = .ok (frame, s')) :
    frame = numberOf (current.toNat + s.backoff.toNat + 1) ∧
      s' = { s with backoff := 0, nextFrame := some frame } := by
  obtain ⟨ahead, hahead, h⟩ := Fault.bind_eq_ok.1 h
  cases h
  exact ⟨add_plus_one hahead current, rfl⟩

/-! ### Isochronous splits -/

theorem toNat_and_boundary (frame : UInt16) :
    (frame &&& 0x3ff8).toNat = frame.toNat % 0x4000 / 8 * 8 := by
  have hlow : (frame.toNat &&& 0x3ff8) % 2 ^ 3 = 0 := by
    rw [Nat.and_mod_two_pow]
    exact Nat.and_zero _
  have hhigh : (frame.toNat &&& 0x3ff8) / 2 ^ 3 = frame.toNat / 2 ^ 3 % 2 ^ 11 := by
    rw [Nat.and_div_two_pow]
    exact Nat.and_two_pow_sub_one_eq_mod _ 11
  have hmask : (0x3ff8 : UInt16).toNat = 0x3ff8 := rfl
  rw [UInt16.toNat_and, hmask]
  omega

/-- The boundary of eight microframes at or before `frame`, or the middle behind it. -/
theorem align_numberOf (directionIn : Bool) (frame : Nat) :
    Isochronous.align directionIn (numberOf frame) =
      numberOf (frame / 8 * 8 + if directionIn then 4 else 0) := by
  rw [← UInt16.toNat_inj, toNat_numberOf]
  have hboundary : (numberOf frame &&& 0x3ff8).toNat = frame % 0x4000 / 8 * 8 := by
    rw [toNat_and_boundary, toNat_numberOf]
    omega
  cases directionIn with
  | false =>
    change (numberOf frame &&& 0x3ff8).toNat = _
    rw [hboundary]
    simp only [Bool.false_eq_true, if_false]
    omega
  | true =>
    change ((numberOf frame &&& 0x3ff8) + 4).toNat = _
    have hfour : (4 : UInt16).toNat = 4 := rfl
    rw [UInt16.toNat_add, hboundary, hfour]
    simp only [if_true]
    omega

/-! ### Schedulers -/

namespace Scheduler

variable {s' : Scheduler} {current offset frame : UInt16}

theorem frameNumber_periodic {s : Periodic}
    (h : (periodic s).frameNumber current = .ok (frame, s')) :
    ∃ microframe, s.Aims current microframe ∧
      frame = numberOf (nextIn microframe.toNat (current.toNat + s.backoff.toNat + 1)) ∧
      s' = periodic { s with microframe := some microframe, backoff := 0 } := by
  obtain ⟨⟨frame', t⟩, hnumber, h⟩ := Fault.bind_eq_ok.1 h
  cases h
  obtain ⟨microframe, haims, hframe, rfl⟩ := Periodic.frameNumber_ok hnumber
  exact ⟨microframe, haims, hframe, rfl⟩

theorem frameNumber_nonPeriodic {s : NonPeriodic}
    (h : (nonPeriodic s).frameNumber current = .ok (frame, s')) :
    frame = numberOf (current.toNat + s.backoff.toNat + 1) ∧
      s' = nonPeriodic { s with backoff := 0, nextFrame := some frame } := by
  obtain ⟨⟨frame', t⟩, hnumber, h⟩ := Fault.bind_eq_ok.1 h
  cases h
  obtain ⟨hframe, rfl⟩ := NonPeriodic.frameNumber_ok hnumber
  exact ⟨hframe, rfl⟩

theorem frameNumber_unsplit {s : Unsplit}
    (h : (unsplit s).frameNumber current = .ok (frame, s')) :
    frame = numberOf (current.toNat + s.backoff.toNat + 1) ∧
      s' = unsplit { s with backoff := 0, nextFrame := some frame } := by
  obtain ⟨⟨frame', t⟩, hnumber, h⟩ := Fault.bind_eq_ok.1 h
  cases h
  obtain ⟨hframe, rfl⟩ := Unsplit.frameNumber_ok hnumber
  exact ⟨hframe, rfl⟩

theorem frameNumber_eq_periodic {s : Scheduler} {p' : Periodic}
    (h : s.frameNumber current = .ok (frame, periodic p')) :
    ∃ p, s = periodic p ∧ ∃ microframe, p.Aims current microframe ∧
      frame = numberOf (nextIn microframe.toNat (current.toNat + p.backoff.toNat + 1)) ∧
      p' = { p with microframe := some microframe, backoff := 0 } := by
  cases s with
  | periodic p =>
    obtain ⟨microframe, haims, hframe, hp'⟩ := frameNumber_periodic h
    cases hp'
    exact ⟨p, rfl, microframe, haims, hframe, rfl⟩
  | isochronous s => cases h
  | nonPeriodic s => cases (frameNumber_nonPeriodic h).2
  | unsplit s => cases (frameNumber_unsplit h).2

/-- Put the next transaction off by `offset` frames, and begin a new split there. -/
def restart (s : Scheduler) (current offset : UInt16) : Except Fault (UInt16 × Scheduler) := do
  let s ← s.delay offset
  let (frame, s) ← s.frameNumber current
  return (frame, ← s.startSplit)

theorem restart_ok {s : Scheduler} (h : s.restart current offset = .ok (frame, s')) :
    ∃ s₁ s₂, s.delay offset = .ok s₁ ∧ s₁.frameNumber current = .ok (frame, s₂) ∧
      s₂.startSplit = .ok s' := by
  obtain ⟨s₁, hdelay, h⟩ := Fault.bind_eq_ok.1 h
  obtain ⟨⟨frame', s₂⟩, hframe, h⟩ := Fault.bind_eq_ok.1 h
  obtain ⟨s₃, hstart, h⟩ := Fault.bind_eq_ok.1 h
  cases h
  exact ⟨s₁, s₂, hdelay, hframe, hstart⟩

theorem restart_isochronous {s : Isochronous}
    (h : (isochronous s).restart current offset = .ok (frame, s')) :
    s.phase = .periodicDelay ∧
    frame = numberOf ((current.toNat + offset.toNat) / 8 * 8 + if s.directionIn then 4 else 0) ∧
    s' = isochronous ⟨s.directionIn, .startSplit, offset, true, frame⟩ := by
  obtain ⟨s₁, s₂, hdelay, hframe, hstart⟩ := restart_ok h
  obtain ⟨t₁, hput, rfl⟩ := Fault.map_eq_ok.1 hdelay
  unfold Isochronous.delay at hput
  split at hput
  case isFalse => cases hput
  case isTrue hphase =>
    cases hput
    cases hframe
    obtain ⟨t₂, hbegun, rfl⟩ := Fault.map_eq_ok.1 hstart
    simp only [Isochronous.startSplit, hphase] at hbegun
    cases hbegun
    refine ⟨hphase, ?_, rfl⟩
    simp only [if_true]
    rw [add_eq_numberOf, align_numberOf]

theorem restart_periodic {s : Periodic}
    (h : (periodic s).restart current offset = .ok (frame, s')) :
    s.phase ≠ .startSplit ∧
    ∃ microframe, s.Aims current microframe ∧
      frame = numberOf (nextIn microframe.toNat (current.toNat + offset.toNat + 1)) ∧
      s' = periodic ⟨.startSplit, s.tries, none, 0⟩ := by
  obtain ⟨s₁, s₂, hdelay, hframe, hstart⟩ := restart_ok h
  cases hdelay
  obtain ⟨microframe, haims, rfl, rfl⟩ := frameNumber_periodic hframe
  obtain ⟨t, hbegun, rfl⟩ := Fault.map_eq_ok.1 hstart
  obtain ⟨hphase, rfl⟩ := Periodic.startSplit_ok hbegun
  refine ⟨hphase, microframe, ?_, rfl, rfl⟩
  cases haims with
  | remembered hs => exact .remembered hs
  | chosen hs hchoose => exact .chosen hs hchoose

theorem restart_nonPeriodic {s : NonPeriodic}
    (h : (nonPeriodic s).restart current offset = .ok (frame, s')) :
    s.phase ≠ .startSplit ∧ frame = numberOf (current.toNat + offset.toNat + 1) ∧
      s' = nonPeriodic ⟨.startSplit, s.tries, 0, some frame⟩ := by
  obtain ⟨s₁, s₂, hdelay, hframe, hstart⟩ := restart_ok h
  cases hdelay
  obtain ⟨rfl, rfl⟩ := frameNumber_nonPeriodic hframe
  obtain ⟨t, hbegun, rfl⟩ := Fault.map_eq_ok.1 hstart
  obtain ⟨hphase, rfl⟩ := NonPeriodic.startSplit_ok hbegun
  exact ⟨hphase, rfl, rfl⟩

theorem restart_unsplit {s : Unsplit} : (unsplit s).restart current offset ≠ .ok (frame, s') := by
  intro h
  obtain ⟨s₁, s₂, hdelay, hframe, hstart⟩ := restart_ok h
  obtain ⟨t, -, rfl⟩ := Fault.map_eq_ok.1 hdelay
  obtain ⟨-, rfl⟩ := frameNumber_unsplit hframe
  cases hstart

theorem restart_eq_periodic {s : Scheduler} {p' : Periodic}
    (h : s.restart current offset = .ok (frame, periodic p')) :
    ∃ p, s = periodic p ∧ ∃ microframe, p.Aims current microframe ∧
      frame = numberOf (nextIn microframe.toNat (current.toNat + offset.toNat + 1)) ∧
      p' = ⟨.startSplit, p.tries, none, 0⟩ := by
  cases s with
  | periodic p =>
    obtain ⟨-, microframe, haims, hframe, hp'⟩ := restart_periodic h
    cases hp'
    exact ⟨p, rfl, microframe, haims, hframe, rfl⟩
  | isochronous s => cases (restart_isochronous h).2.2
  | nonPeriodic s => cases (restart_nonPeriodic h).2.2
  | unsplit s => exact absurd h restart_unsplit

/-- A split that is to start over is not about to start already. -/
theorem restart_phase {s : Scheduler} (h : s.restart current offset = .ok (frame, s')) :
    s.phase ≠ .startSplit ∧ s'.phase = .startSplit := by
  cases s with
  | isochronous s =>
    obtain ⟨hphase, -, rfl⟩ := restart_isochronous h
    exact ⟨by simp [phase, hphase], rfl⟩
  | periodic s =>
    obtain ⟨hphase, _, -, -, rfl⟩ := restart_periodic h
    exact ⟨hphase, rfl⟩
  | nonPeriodic s =>
    obtain ⟨hphase, -, rfl⟩ := restart_nonPeriodic h
    exact ⟨hphase, rfl⟩
  | unsplit s => exact absurd h restart_unsplit

end Scheduler

end UsbHost.Frame
