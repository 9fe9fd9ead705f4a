import Mathlib.Order.Bounds.Defs
import UsbHost.Proofs.Frame.Microframe
import UsbHost.Proofs.Frame.Timing

/-!
Where the transactions of an interrupt split are placed. Each goes out in the first frame behind the
backoff that lies in its microframe. With frames counted without wrap, the complete splits of a
start split in frame `n` that are answered too early each time go out in the frames `n + 2`,
`n + 3`, `n + 4` and, unless the start split lies in microframe 5, `n + 5`.
-/

namespace UsbHost.Frame

/-! ### The first frame in a microframe -/

theorem isLeast_nextIn {microframe : Nat} (h : microframe < 8) (frame : Nat) :
    IsLeast {n | frame < n ∧ n % 8 = microframe} (nextIn microframe (frame + 1)) := by
  constructor
  · have hle := le_nextIn microframe (frame + 1)
    have hmod := nextIn_mod microframe (frame + 1)
    rw [Nat.mod_eq_of_lt h] at hmod
    exact ⟨by omega, hmod⟩
  · rintro n ⟨hlt, hmod⟩
    unfold nextIn
    omega

/-- The microframe that a split is set up for in frame `current`: the next one, number 6 skipped. -/
def upcoming (current : Nat) : Nat := if (current + 1) % 8 = 6 then 7 else (current + 1) % 8

theorem upcoming_lt (current : Nat) : upcoming current < 8 := by
  unfold upcoming
  split <;> omega

/-- A frame number told to the scheduler of the frame that it has given before. -/
theorem numberOf_toNat_add (frame offset : Nat) :
    numberOf ((numberOf frame).toNat + offset) = numberOf (frame + offset) := by
  rw [← UInt16.toNat_inj, toNat_numberOf, toNat_numberOf, toNat_numberOf]
  omega

theorem numberOf_le (frame : Nat) : numberOf frame ≤ maxNumber := by
  have hmax : maxNumber.toNat = 0x3fff := rfl
  rw [UInt16.le_iff_toNat_le, toNat_numberOf, hmax]
  omega

namespace Periodic

variable {s s' : Periodic} {current microframe previous : UInt16}

theorem plus_one (h : current ≤ maxNumber) : plus current 1 = .ok (current + 1) := by
  have hle : current.toNat ≤ 0x3fff := UInt16.le_iff_toNat_le.1 h
  have hone : (1 : UInt16).toNat = 1 := rfl
  have hsize : UInt16.size = 0x10000 := rfl
  rw [plus, if_pos (by omega)]

theorem chooseMicroframe_eq (h : current ≤ maxNumber) :
    ∃ microframe, chooseMicroframe current = .ok microframe ∧
      microframe.toNat = upcoming current.toNat := by
  have hle : current.toNat ≤ 0x3fff := UInt16.le_iff_toNat_le.1 h
  have hone : (1 : UInt16).toNat = 1 := rfl
  have hnext : ((current + 1) &&& 7).toNat = (current.toNat + 1) % 8 := by
    rw [toNat_and_seven, UInt16.toNat_add, hone]
    omega
  have hsix : (current + 1) &&& 7 = 6 ↔ (current.toNat + 1) % 8 = 6 := by
    rw [← UInt16.toNat_inj, hnext]
    rfl
  refine ⟨if (current + 1) &&& 7 = 6 then 7 else (current + 1) &&& 7, ?_, ?_⟩
  · rw [chooseMicroframe, plus_one h]
    rfl
  · rw [upcoming]
    by_cases h6 : (current.toNat + 1) % 8 = 6
    · rw [if_pos (hsix.2 h6), if_pos h6]
      rfl
    · rw [if_neg (mt hsix.1 h6), if_neg h6, hnext]

/-- The microframe of the next transaction, when `current` is the frame now: the one remembered, or
else the upcoming one. -/
inductive Scheduled (s : Periodic) (current microframe : UInt16) : Prop
  | remembered (h : s.microframe = some microframe)
  | chosen (h : s.microframe = none) (h' : microframe.toNat = upcoming current.toNat)

theorem frameNumber_eq (hcurrent : current ≤ maxNumber) :
    ∃ microframe, s.Scheduled current microframe ∧ s.frameNumber current =
      .ok (numberOf (nextIn microframe.toNat (current.toNat + s.backoff.toNat + 1)),
        { s with microframe := some microframe, backoff := 0 }) := by
  obtain ⟨microframe, haims, hscheduled⟩ :
      ∃ microframe, s.microframe.elim (chooseMicroframe current) pure = .ok microframe ∧
        s.Scheduled current microframe := by
    cases hs : s.microframe with
    | none =>
      obtain ⟨microframe, hchoose, hupcoming⟩ := chooseMicroframe_eq hcurrent
      exact ⟨microframe, hchoose, .chosen hs hupcoming⟩
    | some microframe => exact ⟨microframe, rfl, .remembered hs⟩
  obtain ⟨⟨frame, s'⟩, hframe⟩ : ∃ x, s.frameNumber current = .ok x := by
    rw [frameNumber, haims]
    exact ⟨_, rfl⟩
  obtain ⟨microframe', haims', rfl, rfl⟩ := frameNumber_ok hframe
  refine ⟨microframe', ?_, hframe⟩
  cases haims' with
  | remembered h => exact .remembered h
  | chosen h hchoose =>
    obtain ⟨_, hchoose', hupcoming⟩ := chooseMicroframe_eq hcurrent
    cases hchoose.symm.trans hchoose'
    exact .chosen h hupcoming

theorem Regular.scheduled_lt (hs : s.Regular) (h : s.Scheduled current microframe) :
    microframe.toNat < 8 := by
  cases h with
  | remembered h => exact hs.lt microframe h
  | chosen _ h => exact h ▸ upcoming_lt current.toNat

/-! ### The complete splits of a split -/

/-- Make complete splits until the scheduler wants no more of them, each in the frame that it gives
when told the frame before, with one outcome after another. Give up after `limit` questions. -/
def poll : Nat → (Nat → ChannelStatus) → Periodic → UInt16 →
    Except Fault (Option (List UInt16 × Periodic))
  | 0, _, _, _ => .ok none
  | limit + 1, outcomes, s, previous => do
    let (more, s) ← s.completeSplit
    if more then
      let (frame, s) ← s.frameNumber previous
      let s ← s.finish (outcomes 0)
      let ended ← poll limit (fun n => outcomes (n + 1)) s frame
      return ended.map fun (frames, s) => (frame :: frames, s)
    else
      return some ([], s)

/-- Make a start split in the frame that the scheduler gives when told frame `current`, and then its
complete splits. The frames of all of them come out. -/
def drive (limit : Nat) (acknowledgement : ChannelStatus) (outcomes : Nat → ChannelStatus)
    (s : Periodic) (current : UInt16) :
    Except Fault (Option (UInt16 × List UInt16 × Periodic)) := do
  let s ← s.startSplit
  let (first, s) ← s.frameNumber current
  let s ← s.finish acknowledgement
  let ended ← poll limit outcomes s first
  return ended.map fun (frames, s) => (first, frames, s)

/-- The hub has not finished yet. -/
structure Pends (status : ChannelStatus) : Prop where
  incomplete : status.contains .transferComplete = false
  early : status.intersects (.union .nyet .ack) = true

theorem conclude_of_pends {status : ChannelStatus} (h : Pends status) :
    s.conclude status = if s.tries = 0 then s.fail earlyBackoff
      else { s with phase := .completeSplitRetry, tries := s.tries - 1 } := by
  rw [conclude, h.incomplete, h.early, if_neg Bool.false_ne_true, if_pos rfl]

/-- The complete splits that there is room for behind a start split in frame `start`. -/
def room (start : Nat) : Nat := if start % 8 = 5 then 3 else 4

/-- The last transaction was in frame `previous`. A complete split is due `ahead` frames after it,
and there is room for `left` of them. -/
structure Due (s : Periodic) (previous ahead left : Nat) : Prop where
  microframe : s.microframe = some (numberOf previous &&& 7)
  backoff : s.backoff = 0
  phase : s.phase = .startSplitComplete ∧ ahead = 2 ∧ left = room previous ∨
    s.phase = .completeSplitRetry ∧ ahead = 1 ∧ left = s.tries + 1

/-- A complete split is to go out in frame `frame`, the first of `left` that there is room for. -/
structure Ready (s : Periodic) (frame left : Nat) : Prop where
  microframe : s.microframe = some (numberOf frame &&& 7)
  backoff : s.backoff = 0
  phase : s.phase = .completeSplit ∨ s.phase = .completeSplitRetry
  left_eq : left = s.tries + 1

/-- The microframe moves on with the frame. -/
theorem advance_microframe (frame : Nat) (offset : UInt16) :
    ((numberOf frame &&& 7) + offset) &&& 7 = numberOf (frame + offset.toNat) &&& 7 := by
  rw [← UInt16.toNat_inj, toNat_and_seven, UInt16.toNat_add, microframe_numberOf,
    microframe_numberOf]
  omega

section Rounds

variable {frame ahead left : Nat} {status : ChannelStatus}

theorem Due.completeSplit {previous : Nat} (h : s.Due previous ahead left) :
    ∃ s', s.completeSplit = .ok (true, s') ∧ s'.Ready (previous + ahead) left := by
  have hslot : s.slot = numberOf previous &&& 7 := by rw [slot, h.microframe, Option.getD_some]
  have htwo : (2 : UInt16).toNat = 2 := rfl
  have hone : (1 : UInt16).toNat = 1 := rfl
  rcases h.phase with ⟨hphase, rfl, rfl⟩ | ⟨hphase, rfl, rfl⟩
  · refine ⟨{ s with
      phase := .completeSplit
      tries := if s.slot = 5 then 2 else 3
      microframe := some ((s.slot + 2) &&& 7) }, ?_, ?_, h.backoff, .inl rfl, ?_⟩
    · rw [Periodic.completeSplit, hphase]
    · rw [hslot, advance_microframe, htwo]
    · have hfive : s.slot = 5 ↔ previous % 8 = 5 := by
        rw [hslot, ← UInt16.toNat_inj, microframe_numberOf]
        rfl
      by_cases hmicroframe : previous % 8 = 5
      · rw [room, if_pos hmicroframe, if_pos (hfive.2 hmicroframe)]
      · rw [room, if_neg hmicroframe, if_neg (mt hfive.1 hmicroframe)]
  · refine ⟨{ s with microframe := some ((s.slot + 1) &&& 7) }, ?_, ?_, h.backoff, .inr hphase, rfl⟩
    · rw [Periodic.completeSplit, hphase]
    · rw [hslot, advance_microframe, hone]

/-- The scheduler gives the frame that it is ready for, and stays ready. -/
theorem Ready.frameNumber {previous : Nat} (h : s.Ready (previous + ahead) left)
    (hpos : 0 < ahead) (hlt : ahead ≤ 8) :
    s.frameNumber (numberOf previous) = .ok (numberOf (previous + ahead), s) := by
  obtain ⟨microframe, hscheduled, hframe⟩ := s.frameNumber_eq (numberOf_le previous)
  have hmicroframe : microframe = numberOf (previous + ahead) &&& 7 := by
    cases hscheduled with
    | remembered hs => exact Option.some.inj (hs.symm.trans h.microframe)
    | chosen hs => cases hs.symm.trans h.microframe
  have hnext :
      numberOf (nextIn microframe.toNat ((numberOf previous).toNat + s.backoff.toNat + 1)) =
        numberOf (previous + ahead) := by
    have hzero : (0 : UInt16).toNat = 0 := rfl
    rw [hmicroframe, microframe_numberOf, h.backoff, hzero, ← UInt16.toNat_inj, toNat_numberOf,
      toNat_numberOf, toNat_numberOf, nextIn]
    omega
  rw [hframe, hnext, hmicroframe, ← h.microframe, ← h.backoff]

theorem Ready.finish (h : s.Ready frame left) (hstatus : Pends status) :
    ∃ s', s.finish status = .ok s' ∧
      (left = 1 ∧ s'.phase = .completeSplitFailed ∨
        ∃ rest, left = rest + 1 ∧ s'.Due frame 1 rest) := by
  refine ⟨s.conclude status, ?_, ?_⟩
  · rcases h.phase with hphase | hphase <;> rw [Periodic.finish, hphase]
  · rw [conclude_of_pends hstatus]
    split
    case isTrue hzero => exact .inl ⟨by rw [h.left_eq, hzero], rfl⟩
    case isFalse hpos =>
      refine .inr ⟨s.tries, h.left_eq, h.microframe, h.backoff, .inr ⟨rfl, rfl, ?_⟩⟩
      exact (Nat.sub_add_cancel (Nat.pos_of_ne_zero hpos)).symm

theorem poll_of_isDecided {limit : Nat} (outcomes : Nat → ChannelStatus) (previous : UInt16)
    (h : s.phase = .completeSplitFailed) :
    poll (limit + 1) outcomes s previous = .ok (some ([], s)) := by
  rw [poll, Periodic.completeSplit, h]
  rfl

theorem poll_succ {limit : Nat} {outcomes : Nat → ChannelStatus} {s₁ s₂ s₃ : Periodic}
    {frame : UInt16} {frames : List UInt16} (hcomplete : s.completeSplit = .ok (true, s₁))
    (hframe : s₁.frameNumber previous = .ok (frame, s₂)) (hfinish : s₂.finish (outcomes 0) = .ok s₃)
    (hrest : poll limit (fun n => outcomes (n + 1)) s₃ frame = .ok (some (frames, s'))) :
    poll (limit + 1) outcomes s previous = .ok (some (frame :: frames, s')) := by
  rw [poll, hcomplete]
  simp only [bind, Except.bind, if_true, hframe, hfinish, hrest]
  rfl

/-- Complete splits that are answered too early each time go out one frame after another. -/
theorem Due.poll {limit previous : Nat} {outcomes : Nat → ChannelStatus}
    (h : s.Due previous ahead left) (hlimit : left < limit) (houtcomes : ∀ n, Pends (outcomes n)) :
    ∃ s', poll limit outcomes s (numberOf previous) =
        .ok (some ((List.range left).map fun k => numberOf (previous + ahead + k), s')) ∧
      s'.phase = .completeSplitFailed := by
  induction limit generalizing s previous ahead left outcomes with
  | zero => omega
  | succ limit ih =>
    have hahead : 0 < ahead ∧ ahead ≤ 8 := by
      rcases h.phase with ⟨-, rfl, -⟩ | ⟨-, rfl, -⟩ <;> omega
    obtain ⟨s₁, hcomplete, hready⟩ := h.completeSplit
    have hframe := hready.frameNumber hahead.1 hahead.2
    obtain ⟨s₂, hfinish, hnext⟩ := hready.finish (houtcomes 0)
    rcases hnext with ⟨rfl, hfailed⟩ | ⟨rest, rfl, hdue⟩
    · obtain ⟨limit, rfl⟩ : ∃ m, limit = m + 1 := ⟨limit - 1, by omega⟩
      exact ⟨s₂, poll_succ hcomplete hframe hfinish (poll_of_isDecided _ _ hfailed), hfailed⟩
    · obtain ⟨s', hrest, hfailed⟩ := ih hdue (by omega) fun n => houtcomes (n + 1)
      refine ⟨s', ?_, hfailed⟩
      rw [List.range_succ_eq_map, List.map_cons, List.map_map, Nat.add_zero]
      refine poll_succ hcomplete hframe hfinish (hrest.trans ?_)
      congr 3
      refine List.map_congr_left fun k _ => ?_
      rw [Function.comp_apply, Nat.succ_eq_add_one, Nat.add_assoc _ 1, Nat.add_comm 1]

end Rounds

/-- A split that begins, and that the hub acknowledges. -/
theorem begin_split {acknowledgement : ChannelStatus} (hstart : ∃ s', s.startSplit = .ok s')
    (hcurrent : current ≤ maxNumber) (hack : acknowledgement.contains .ack = true) :
    ∃ n s₁ s₂ s₃, s.startSplit = .ok s₁ ∧ s₁.frameNumber current = .ok (numberOf n, s₂) ∧
      s₂.finish acknowledgement = .ok s₃ ∧ s₃.Due n 2 (room n) ∧
      IsLeast {n | current.toNat + s.backoff.toNat < n ∧ n % 8 = upcoming current.toNat} n := by
  obtain ⟨s₁, hbegin⟩ := hstart
  obtain ⟨hphase, hunset, hbackoff⟩ :
      s₁.phase = .startSplit ∧ s₁.microframe = none ∧ s₁.backoff = s.backoff := by
    rw [(startSplit_ok hbegin).2]
    exact ⟨rfl, rfl, rfl⟩
  obtain ⟨microframe, hscheduled, hframe⟩ := s₁.frameNumber_eq hcurrent
  have hupcoming : microframe.toNat = upcoming current.toNat := by
    cases hscheduled with
    | remembered h => cases hunset.symm.trans h
    | chosen _ h => exact h
  have hlt : microframe.toNat < 8 := hupcoming ▸ upcoming_lt current.toNat
  have hfinish : Periodic.finish { s₁ with microframe := some microframe, backoff := 0 }
      acknowledgement = .ok ⟨.startSplitComplete, s₁.tries, some microframe, 0⟩ := by
    rw [Periodic.finish, hphase, if_pos hack]
  refine ⟨_, s₁, _, _, hbegin, hframe, hfinish, ⟨?_, rfl, .inl ⟨rfl, rfl, rfl⟩⟩, ?_⟩
  · rw [Option.some_inj, ← UInt16.toNat_inj, microframe_numberOf, nextIn_mod, Nat.mod_eq_of_lt hlt]
  · rw [← hupcoming, ← hbackoff]
    exact isLeast_nextIn hlt _

/-- The frames behind `first` that complete splits are placed at. -/
def behind (first : UInt16) : List UInt16 :=
  if first &&& 7 = 5 then [add first 2, add first 3, add first 4]
  else [add first 2, add first 3, add first 4, add first 5]

theorem behind_numberOf (start : Nat) :
    behind (numberOf start) = (List.range (room start)).map fun k => numberOf (start + 2 + k) := by
  have hfive : numberOf start &&& 7 = 5 ↔ start % 8 = 5 := by
    rw [← UInt16.toNat_inj, microframe_numberOf]
    rfl
  by_cases hmicroframe : start % 8 = 5
  · rw [behind, if_pos (hfive.2 hmicroframe), room, if_pos hmicroframe]
    simp [List.range_succ, add_numberOf, Nat.add_assoc]
  · rw [behind, if_neg (mt hfive.1 hmicroframe), room, if_neg hmicroframe]
    simp [List.range_succ, add_numberOf, Nat.add_assoc]

theorem room_le (start : Nat) : room start ≤ 4 := by
  unfold room
  split <;> omega

/-- Interrupt splits are placed where they belong. Told a frame `current`, a scheduler gives the
first frame behind it and behind the backoff that lies in the microframe of the transaction, which
is the one it remembers or else the upcoming one. Of a split that the hub acknowledges and then is
not ready to finish, the complete splits go out two, three, four and five frames behind the start
split, the last of them unless the start split lies in microframe 5. -/
theorem interrupt_placement (hs : (Scheduler.periodic s).Arises) (hcurrent : current ≤ maxNumber) :
    (∃ microframe n, s.Scheduled current microframe ∧
      IsLeast {n | current.toNat + s.backoff.toNat < n ∧ n % 8 = microframe.toNat} n ∧
      s.frameNumber current =
        .ok (numberOf n, { s with microframe := some microframe, backoff := 0 })) ∧
    ((∃ s', s.startSplit = .ok s') → ∀ limit > 4, ∀ acknowledgement outcomes,
      acknowledgement.contains .ack = true → (∀ n, Pends (outcomes n)) → ∃ n s',
        IsLeast {n | current.toNat + s.backoff.toNat < n ∧ n % 8 = upcoming current.toNat} n ∧
        drive limit acknowledgement outcomes s current =
          .ok (some (numberOf n, behind (numberOf n), s')) ∧
        s'.phase = .completeSplitFailed) := by
  constructor
  · obtain ⟨microframe, hscheduled, hframe⟩ := s.frameNumber_eq hcurrent
    exact ⟨microframe, _, hscheduled, isLeast_nextIn (hs.regular.scheduled_lt hscheduled) _, hframe⟩
  · intro hstart limit hlimit acknowledgement outcomes hack houtcomes
    obtain ⟨n, s₁, s₂, s₃, hbegin, hframe, hfinish, hdue, hleast⟩ :=
      begin_split hstart hcurrent hack
    obtain ⟨s', hpoll, hfailed⟩ := hdue.poll (Nat.lt_of_le_of_lt (room_le n) hlimit) houtcomes
    refine ⟨n, s', hleast, ?_, hfailed⟩
    rw [drive, hbegin]
    simp only [bind, Except.bind, hframe, hfinish, hpoll, behind_numberOf]
    rfl

/-- A complete split has been refused in microframe 6. -/
def refused : Periodic := ⟨.completeSplitFailed, 3, some 6, 5⟩

/-- The start split goes out in the last frame before the wrap, the complete splits behind it. -/
theorem interrupt_placement_refused : (Scheduler.periodic refused).Arises ∧ 0x3ff6 ≤ maxNumber ∧
    (∃ microframe n, refused.Scheduled 0x3ff6 microframe ∧
      IsLeast {n | 0x3ff6 + 5 < n ∧ n % 8 = microframe.toNat} n ∧ refused.frameNumber 0x3ff6 =
        .ok (numberOf n, ⟨.completeSplitFailed, 3, some microframe, 0⟩)) ∧
    (∃ n s', IsLeast {n | 0x3ff6 + 5 < n ∧ n % 8 = 7} n ∧
      drive 5 .ack (fun _ => .nyet) refused 0x3ff6 =
        .ok (some (numberOf n, behind (numberOf n), s')) ∧ s'.phase = .completeSplitFailed) ∧
    drive 5 .ack (fun _ => .nyet) refused 0x3ff6 =
      .ok (some (0x3fff, [1, 2, 3, 4], ⟨.completeSplitFailed, 0, some 4, 8⟩)) :=
  have hrefused : (Scheduler.periodic refused).Arises := Dispatcher.arises_delayRefused _ rfl
  have hcurrent : 0x3ff6 ≤ maxNumber := by decide
  have hplacement := interrupt_placement hrefused hcurrent
  ⟨hrefused, hcurrent, hplacement.1,
    hplacement.2 ⟨_, rfl⟩ 5 (by decide) .ack (fun _ => .nyet) rfl fun _ => ⟨rfl, rfl⟩, rfl⟩

end Periodic

end UsbHost.Frame
