import Mathlib.Data.List.Chain
import UsbHost.Proofs.Frame.Placement

/-!
Frames only move forward. As long as nobody defers a transaction from outside, the frame that a
scheduler gives lies behind the frame that it was told, and no more than sixteen frames behind it.
So whoever tells a scheduler the frame that it has given before gets one frame later than the other,
whatever becomes of the splits in the meantime.
-/

namespace UsbHost.Frame

/-! ### Paces -/

/-- What puts the next transaction of an isochronous split behind the current frame: the boundary
in the next eight frames, or a step of one or two. -/
inductive Isochronous.Paced (s : Isochronous) : Prop
  | boundary (hphase : s.phase ≠ .start) (haligned : s.aligned = true) (hoffset : s.offset = 8)
  | step (hphase : s.phase ≠ .start) (haligned : s.aligned = false)
      (hoffset : s.offset = 1 ∨ s.offset = 2)

namespace Isochronous

variable {s s' : Isochronous} {current : UInt16}

theorem Paced.phase_ne (h : s.Paced) : s.phase ≠ .start := by
  cases h <;> assumption

/-- The pace is kept when a transaction ends. -/
theorem Paced.of_eq (h : s.Paced) (hphase : s'.phase ≠ .start) (haligned : s'.aligned = s.aligned)
    (hoffset : s'.offset = s.offset) : s'.Paced := by
  cases h with
  | boundary _ haligned' hoffset' =>
    exact .boundary hphase (haligned.trans haligned') (hoffset.trans hoffset')
  | step _ haligned' hoffset' =>
    exact .step hphase (haligned.trans haligned') (hoffset ▸ hoffset')

theorem paced_startSplit (hs : s.phase = .start ∨ s.Paced) (h : s.startSplit = .ok s') :
    s'.Paced := by
  unfold startSplit at h
  split at h
  case h_1 | h_2 =>
    cases h
    exact .boundary nofun rfl rfl
  case h_3 =>
    cases h
    exact .step nofun rfl (.inl rfl)
  case h_4 hphase =>
    cases h
    rcases hs with hstart | hpaced
    · rw [hphase] at hstart
      cases hstart
    · exact hpaced.of_eq nofun rfl rfl
  case h_5 => cases h

theorem paced_completeSplit {more : Bool} (hs : s.phase = .start ∨ s.Paced)
    (h : s.completeSplit = .ok (more, s')) : s'.Paced := by
  unfold completeSplit at h
  split at h
  case h_1 =>
    cases h
    exact .step nofun rfl (.inr rfl)
  case h_2 hphase | h_3 hphase =>
    cases h
    exact hs.resolve_left (by simp [hphase])
  case h_4 => cases h

theorem paced_finish {status : ChannelStatus} (hs : s.phase = .start ∨ s.Paced)
    (h : s.finish status = .ok s') : s'.Paced := by
  unfold finish at h
  split at h
  case h_1 hphase | h_2 hphase | h_3 hphase =>
    have hpaced : s.Paced := hs.resolve_left (by simp [hphase])
    split at h <;> cases h <;> exact hpaced.of_eq nofun rfl rfl
  case h_4 => cases h

theorem frameNumber_boundary (haligned : s.aligned = true) (hoffset : s.offset = 8) :
    (s.frameNumber current).1 =
      numberOf ((current.toNat + 8) / 8 * 8 + if s.directionIn then 4 else 0) := by
  have height : (8 : UInt16).toNat = 8 := rfl
  rw [frameNumber, haligned, hoffset, if_pos rfl, add_eq_numberOf, align_numberOf, height]

theorem frameNumber_step (haligned : s.aligned = false) :
    (s.frameNumber current).1 = numberOf (current.toNat + s.offset.toNat) := by
  rw [frameNumber, haligned, if_neg Bool.false_ne_true, add_eq_numberOf]

theorem Paced.frameNumber (h : s.Paced) :
    (s.frameNumber current).2.Paced ∧
    ∃ n, (s.frameNumber current).1 = numberOf n ∧ current.toNat < n ∧ n ≤ current.toNat + 16 := by
  refine ⟨h.of_eq h.phase_ne rfl rfl, ?_⟩
  cases h with
  | boundary _ haligned hoffset =>
    refine ⟨_, frameNumber_boundary haligned hoffset, ?_⟩
    split <;> omega
  | step _ haligned hoffset =>
    refine ⟨_, frameNumber_step haligned, ?_⟩
    have hone : (1 : UInt16).toNat = 1 := rfl
    have htwo : (2 : UInt16).toNat = 2 := rfl
    rcases hoffset with hoffset | hoffset <;> rw [hoffset] <;> omega

end Isochronous

/-- A complete split that begins leaves the wait alone. -/
theorem Periodic.backoff_completeSplit {s s' : Periodic} {more : Bool}
    (h : s.completeSplit = .ok (more, s')) : s'.backoff = s.backoff := by
  unfold completeSplit at h
  split at h <;> cases h <;> rfl

theorem NonPeriodic.backoff_completeSplit {s s' : NonPeriodic} {more : Bool}
    (h : s.completeSplit = .ok (more, s')) : s'.backoff = s.backoff := by
  unfold completeSplit at h
  split at h <;> cases h <;> rfl

/-- A split that ends keeps its wait, or gets one of at most eight frames. -/
theorem Periodic.backoff_finish {s s' : Periodic} {status : ChannelStatus}
    (hs : s.backoff.toNat ≤ 8) (h : s.finish status = .ok s') : s'.backoff.toNat ≤ 8 := by
  simp only [finish, conclude] at h
  repeat' split at h
  all_goals cases h
  all_goals first | exact hs | exact Nat.le_of_ble_eq_true rfl

theorem NonPeriodic.backoff_finish {s s' : NonPeriodic} {status : ChannelStatus}
    (hs : s.backoff.toNat ≤ 8) (h : s.finish status = .ok s') : s'.backoff.toNat ≤ 8 := by
  simp only [finish, conclude] at h
  repeat' split at h
  all_goals cases h
  all_goals first | exact hs | exact Nat.le_of_ble_eq_true rfl

namespace Scheduler

/-- What puts the next transaction behind the current frame, and not far behind it. -/
def Paced : Scheduler → Prop
  | isochronous s => s.Paced
  | periodic s => s.Regular ∧ s.backoff.toNat ≤ 8
  | nonPeriodic s => s.backoff.toNat ≤ 8
  | unsplit s => s.backoff.toNat ≤ 8

/-- The first split of an isochronous transfer is still to begin. -/
def Fresh : Scheduler → Prop
  | isochronous s => s.phase = .start
  | _ => False

section Steps

variable {s s' : Scheduler} {call : Call} {more : Bool} {current : UInt16}

/-- Nothing but a delay changes the pace of a scheduler for the worse. -/
theorem Paced.perform (hs : s.Paced) (hcall : ∀ offset, call ≠ .delay offset)
    (h : s.perform call = .ok (more, s')) : s'.Paced := by
  cases performs_of_perform h with
  | startIsochronous hbegun => exact Isochronous.paced_startSplit (.inr hs) hbegun
  | completeIsochronous hcomplete => exact Isochronous.paced_completeSplit (.inr hs) hcomplete
  | finishIsochronous hdone => exact Isochronous.paced_finish (.inr hs) hdone
  | frameIsochronous s current => exact (Isochronous.Paced.frameNumber hs).1
  | startPeriodic hbegun =>
    refine ⟨.startSplit hbegun, ?_⟩
    obtain ⟨-, rfl⟩ := Periodic.startSplit_ok hbegun
    exact hs.2
  | completePeriodic hcomplete =>
    exact ⟨hs.1.completeSplit hcomplete, Periodic.backoff_completeSplit hcomplete ▸ hs.2⟩
  | finishPeriodic hdone => exact ⟨hs.1.finish hdone, Periodic.backoff_finish hs.2 hdone⟩
  | framePeriodic hnumber =>
    refine ⟨hs.1.frameNumber hnumber, ?_⟩
    obtain ⟨_, -, -, rfl⟩ := Periodic.frameNumber_ok hnumber
    exact Nat.zero_le _
  | startNonPeriodic hbegun =>
    obtain ⟨-, rfl⟩ := NonPeriodic.startSplit_ok hbegun
    exact hs
  | completeNonPeriodic hcomplete =>
    have hsame := NonPeriodic.backoff_completeSplit hcomplete
    rwa [Paced, hsame]
  | finishNonPeriodic hdone => exact NonPeriodic.backoff_finish hs hdone
  | frameNonPeriodic hnumber =>
    obtain ⟨-, rfl⟩ := NonPeriodic.frameNumber_ok hnumber
    exact Nat.zero_le _
  | frameUnsplit hnumber =>
    obtain ⟨-, rfl⟩ := Unsplit.frameNumber_ok hnumber
    exact Nat.zero_le _
  | delayIsochronous | delayPeriodic | delayNonPeriodic | delayUnsplit =>
    exact absurd rfl (hcall _)

/-- With its first split, an isochronous transfer finds its pace. -/
theorem Fresh.perform (hs : s.Fresh) (hcall : ∀ offset, call ≠ .delay offset)
    (h : s.perform call = .ok (more, s')) : s'.Paced ∨ s'.Fresh ∧ call ≠ .start := by
  cases s with
  | periodic s | nonPeriodic s | unsplit s => cases hs
  | isochronous s =>
    cases performs_of_perform h with
    | startIsochronous hbegun => exact .inl (Isochronous.paced_startSplit (.inl hs) hbegun)
    | completeIsochronous hcomplete =>
      exact .inl (Isochronous.paced_completeSplit (.inl hs) hcomplete)
    | finishIsochronous hdone => exact .inl (Isochronous.paced_finish (.inl hs) hdone)
    | frameIsochronous s current => exact .inr ⟨hs, nofun⟩
    | delayIsochronous => exact absurd rfl (hcall _)

theorem exists_plus_one {offset : UInt16} (h : offset.toNat ≤ 8) :
    ∃ next, plus 1 offset = .ok next := by
  have hone : (1 : UInt16).toNat = 1 := rfl
  have hsize : UInt16.size = 0x10000 := rfl
  exact ⟨_, if_pos (by omega)⟩

/-- Told a frame, a scheduler with a pace gives one of the sixteen frames behind it. -/
theorem Paced.frameNumber (hs : s.Paced) (last : Nat) :
    ∃ n s', s.frameNumber (numberOf last) = .ok (numberOf n, s') ∧ s'.Paced ∧ last < n ∧
      n ≤ last + 16 := by
  obtain ⟨n, s', hframe, hahead⟩ : ∃ n s', s.frameNumber (numberOf last) = .ok (numberOf n, s') ∧
      (numberOf last).toNat < n ∧ n ≤ (numberOf last).toNat + 16 := by
    cases s with
    | isochronous s =>
      have hpaced : s.Paced := hs
      obtain ⟨n, hframe, hahead⟩ : ∃ n, (s.frameNumber (numberOf last)).1 = numberOf n ∧ _ :=
        hpaced.frameNumber.2
      exact ⟨n, _, congrArg (fun frame => Except.ok (frame, _)) hframe, hahead⟩
    | periodic s =>
      obtain ⟨microframe, -, hframe⟩ := s.frameNumber_eq (numberOf_le last)
      have hle := le_nextIn microframe.toNat ((numberOf last).toNat + s.backoff.toNat + 1)
      have hlt := nextIn_lt microframe.toNat ((numberOf last).toNat + s.backoff.toNat + 1)
      have hbackoff : s.backoff.toNat ≤ 8 := hs.2
      exact ⟨_, _, by rw [Scheduler.frameNumber, hframe]; rfl, by omega⟩
    | nonPeriodic s =>
      obtain ⟨⟨frame, s'⟩, hframe⟩ : ∃ x, (nonPeriodic s).frameNumber (numberOf last) = .ok x := by
        obtain ⟨next, hnext⟩ := exists_plus_one hs
        exact ⟨_, by simp only [Scheduler.frameNumber, NonPeriodic.frameNumber, hnext]; rfl⟩
      obtain ⟨rfl, -⟩ := frameNumber_nonPeriodic hframe
      have hbackoff : s.backoff.toNat ≤ 8 := hs
      exact ⟨_, s', hframe, by omega⟩
    | unsplit s =>
      obtain ⟨⟨frame, s'⟩, hframe⟩ : ∃ x, (unsplit s).frameNumber (numberOf last) = .ok x := by
        obtain ⟨next, hnext⟩ := exists_plus_one hs
        exact ⟨_, by simp only [Scheduler.frameNumber, Unsplit.frameNumber, hnext]; rfl⟩
      obtain ⟨rfl, -⟩ := frameNumber_unsplit hframe
      have hbackoff : s.backoff.toNat ≤ 8 := hs
      exact ⟨_, s', hframe, by omega⟩
  have hcall : ∀ offset, Call.frame (numberOf last) ≠ .delay offset := nofun
  have hperform : s.perform (.frame (numberOf last)) = .ok (false, s') := by
    rw [Scheduler.perform, hframe]
    rfl
  have hsame : numberOf (last + (n - (numberOf last).toNat)) = numberOf n := by
    rw [← numberOf_toNat_add]
    congr 1
    omega
  refine ⟨last + (n - (numberOf last).toNat), s', hframe.trans ?_, ?_, by omega, by omega⟩
  · rw [hsame]
  · exact hs.perform hcall hperform

/-- The frame that comes out is later than the one told. -/
theorem isLater_of_ahead {last n : Nat} (hlt : last < n) (hle : n ≤ last + 16) :
    isLater (numberOf n) (numberOf last) = true := by
  rw [isLater_numberOf (by unfold window; omega) (by omega), decide_eq_true_iff]
  exact hlt

end Steps

/-! ### Runs -/

/-- Make calls one after another. -/
def run (s : Scheduler) : List Call → Except Fault Scheduler
  | [] => .ok s
  | call :: calls => do
    let (_, s) ← s.perform call
    s.run calls

/-- What is done on the way from one frame to the next: the next frame is asked for, or some other
call is made. -/
inductive Turn
  | next
  | call (call : Call)

/-- Make turns one after another. The scheduler is told the frame that it has given last, at first
frame `last`, whenever the next one is asked for. These frames come out. -/
def chase (s : Scheduler) (last : UInt16) : List Turn → Except Fault (List UInt16)
  | [] => .ok []
  | .next :: turns => do
    let (frame, s) ← s.frameNumber last
    return frame :: (← s.chase frame turns)
  | .call call :: turns => do
    let (_, s) ← s.perform call
    s.chase last turns

section Runs

variable {s s' : Scheduler} {calls : List Call}

theorem Paced.run (hs : s.Paced) (hcalls : ∀ offset, .delay offset ∉ calls)
    (h : s.run calls = .ok s') : s'.Paced := by
  induction calls generalizing s with
  | nil =>
    cases h
    exact hs
  | cons call calls ih =>
    obtain ⟨⟨more, s₁⟩, hperform, hrest⟩ := Fault.bind_eq_ok.1 h
    have hcall : ∀ offset, call ≠ .delay offset := fun offset heq =>
      hcalls offset (heq ▸ List.mem_cons_self)
    exact ih (hs.perform hcall hperform)
      (fun offset hmem => hcalls offset (List.mem_cons_of_mem _ hmem)) hrest

theorem Fresh.run (hs : s.Fresh) (hcalls : ∀ offset, .delay offset ∉ calls)
    (hstart : .start ∈ calls) (h : s.run calls = .ok s') : s'.Paced := by
  induction calls generalizing s with
  | nil => cases hstart
  | cons call calls ih =>
    obtain ⟨⟨more, s₁⟩, hperform, hrest⟩ := Fault.bind_eq_ok.1 h
    have hcall : ∀ offset, call ≠ .delay offset := fun offset heq =>
      hcalls offset (heq ▸ List.mem_cons_self)
    have hcalls' : ∀ offset, .delay offset ∉ calls := fun offset hmem =>
      hcalls offset (List.mem_cons_of_mem _ hmem)
    rcases hs.perform hcall hperform with hpaced | ⟨hfresh, hne⟩
    · exact hpaced.run hcalls' hrest
    · exact ih hfresh hcalls' ((List.mem_cons.1 hstart).resolve_left hne.symm) hrest

theorem paced_or_fresh_of_select {shape : TransferShape} (h : select shape = some s) :
    s.Paced ∨ s.Fresh := by
  unfold select at h
  repeat' split at h
  all_goals cases h
  · exact .inr rfl
  · exact .inl ⟨⟨nofun, nofun⟩, Nat.zero_le _⟩
  · exact .inl (Nat.zero_le _)
  · exact .inl (Nat.zero_le _)

/-- The frames of a chase, counted without wrap: each lies behind the one before it. -/
theorem Paced.chase {turns : List Turn} {last : Nat} {frames : List UInt16} (hs : s.Paced)
    (hturns : ∀ offset, .call (.delay offset) ∉ turns)
    (h : s.chase (numberOf last) turns = .ok frames) :
    ∃ numbers, frames = numbers.map numberOf ∧
      (last :: numbers).IsChain fun frame next => frame < next ∧ next ≤ frame + 16 := by
  induction turns generalizing s last frames with
  | nil =>
    cases h
    exact ⟨[], rfl, List.isChain_singleton _⟩
  | cons turn turns ih =>
    have hturns' : ∀ offset, .call (.delay offset) ∉ turns := fun offset hmem =>
      hturns offset (List.mem_cons_of_mem _ hmem)
    cases turn with
    | next =>
      obtain ⟨n, s', hframe, hs', hahead⟩ := hs.frameNumber last
      obtain ⟨⟨frame, s₁⟩, hframe', h⟩ := Fault.bind_eq_ok.1 h
      cases hframe.symm.trans hframe'
      obtain ⟨rest, hrest, h⟩ := Fault.bind_eq_ok.1 h
      cases h
      obtain ⟨numbers, rfl, hchain⟩ := ih hs' hturns' hrest
      exact ⟨n :: numbers, rfl, List.isChain_cons_cons.2 ⟨hahead, hchain⟩⟩
    | call call =>
      obtain ⟨⟨more, s'⟩, hperform, hrest⟩ := Fault.bind_eq_ok.1 h
      have hcall : ∀ offset, call ≠ .delay offset := fun offset heq =>
        hturns offset (heq ▸ List.mem_cons_self)
      exact ih (hs.perform hcall hperform) hturns' hrest

/-- Scheduled frames move forward. Let a scheduler have been made for some transfer, and have been
called in any way but to delay; the first split of an isochronous transfer has begun. Whatever frame
it is told, it gives a later one. And if it is told the frame that it has given last time and again,
between any further calls but delays, its frames increase all the time, modulo the wrap. -/
theorem frames_advance {shape : TransferShape} {s₀ s : Scheduler} {calls : List Call}
    {current : UInt16} (hselect : select shape = some s₀)
    (hcalls : ∀ offset, .delay offset ∉ calls)
    (hstart : ∀ i, s₀ = isochronous i → .start ∈ calls) (hrun : s₀.run calls = .ok s)
    (hcurrent : current ≤ maxNumber) :
    (∃ frame s', s.frameNumber current = .ok (frame, s') ∧ frame ≤ maxNumber ∧
      isLater frame current = true) ∧
    ∀ turns frames, (∀ offset, .call (.delay offset) ∉ turns) → s.chase current turns = .ok frames →
      (current :: frames).IsChain (fun frame next => isLater next frame = true) ∧
      ∃ numbers, frames = numbers.map numberOf ∧
        (current.toNat :: numbers).IsChain fun frame next => frame < next ∧ next ≤ frame + 16 := by
  have hs : s.Paced := by
    rcases paced_or_fresh_of_select hselect with hpaced | hfresh
    · exact hpaced.run hcalls hrun
    · cases s₀ with
      | isochronous i => exact hfresh.run hcalls (hstart i rfl) hrun
      | periodic _ | nonPeriodic _ | unsplit _ => cases hfresh
  constructor
  · obtain ⟨n, s', hframe, -, hlt, hle⟩ := hs.frameNumber current.toNat
    have hlater := isLater_of_ahead hlt hle
    rw [numberOf_toNat hcurrent] at hframe hlater
    exact ⟨_, s', hframe, numberOf_le n, hlater⟩
  · intro turns frames hturns hchase
    rw [← numberOf_toNat hcurrent] at hchase
    obtain ⟨numbers, rfl, hchain⟩ := hs.chase hturns hchase
    refine ⟨?_, numbers, rfl, hchain⟩
    rw [← numberOf_toNat hcurrent, List.isChain_cons_map]
    exact hchain.imp fun frame next hahead => isLater_of_ahead hahead.1 hahead.2

/-- A split whose complete split has come too early, and that begins again at once. -/
def hasty : List Call := [.start, .finish .ack, .complete, .finish .nyet, .start]

/-- Told frame `0x3ffe`, the scheduler gives frame 0 for the start split, and then frame 2 for the
complete split. -/
theorem frames_advance_hasty :
    select { split := true, isochronous := true } =
      some (isochronous ⟨false, .start, 0, false, 0⟩) ∧
    (∀ offset, .delay offset ∉ hasty) ∧ .start ∈ hasty ∧
    (isochronous ⟨false, .start, 0, false, 0⟩).run hasty =
      .ok (isochronous ⟨false, .startSplit, 2, false, 0⟩) ∧ 0x3ffe ≤ maxNumber ∧
    (∃ frame s', (isochronous ⟨false, .startSplit, 2, false, 0⟩).frameNumber 0x3ffe =
      .ok (frame, s') ∧ frame ≤ maxNumber ∧ isLater frame 0x3ffe = true) ∧
    (isochronous ⟨false, .startSplit, 2, false, 0⟩).chase 0x3ffe
      [.next, .call (.finish .ack), .call .complete, .next] = .ok [0, 2] ∧
    [0x3ffe, 0, 2].IsChain fun frame next => isLater next frame = true :=
  have hselect : select { split := true, isochronous := true } =
      some (isochronous ⟨false, .start, 0, false, 0⟩) := rfl
  have hcalls : ∀ offset, .delay offset ∉ hasty := by simp [hasty]
  have hstart : .start ∈ hasty := List.mem_cons_self
  have hrun : (isochronous ⟨false, .start, 0, false, 0⟩).run hasty =
      .ok (isochronous ⟨false, .startSplit, 2, false, 0⟩) := rfl
  have hcurrent : 0x3ffe ≤ maxNumber := by decide
  have hchase : (isochronous ⟨false, .startSplit, 2, false, 0⟩).chase 0x3ffe
      [.next, .call (.finish .ack), .call .complete, .next] = .ok [0, 2] := rfl
  have hadvance := frames_advance hselect hcalls (fun _ _ => hstart) hrun hcurrent
  ⟨hselect, hcalls, hstart, hrun, hcurrent, hadvance.1, hchase,
    (hadvance.2 _ _ (fun offset => by simp) hchase).1⟩

end Runs

end Scheduler

end UsbHost.Frame
