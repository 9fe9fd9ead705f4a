import Mathlib.Tactic.SplitIfs
import UsbHost.Proofs.Ring.Operations
import UsbHost.Proofs.Trb.Control

/-!
What the memory of a producer ring holds after any number of turns. The enqueueing end goes round
the ring in laps, each of which has its cycle bit. Places before the end hold TRBs of the current
lap, places behind it those of the lap before, or have never been written; the cycle bits tell the
two apart. The Link TRB changes hands between two laps.
-/

namespace UsbHost

/-- Cycle bit of a lap: laps are counted from 0, and the cycle bit starts set. -/
def Ring.lapCycle (lap : Nat) : Bool := lap % 2 = 0

@[simp] theorem Ring.lapCycle_succ (lap : Nat) : lapCycle (lap + 1) = !lapCycle lap := by
  rcases Nat.mod_two_eq_zero_or_one lap with hpar | hpar
  · have hsucc : (lap + 1) % 2 = 1 := by omega
    simp [lapCycle, hpar, hsucc]
  · have hsucc : (lap + 1) % 2 = 0 := by omega
    simp [lapCycle, hpar, hsucc]

namespace ProducerRing

/-- The memory of `r` when `accepted` has been enqueued and the enqueueing end is in lap `lap`.
Places before the end hold TRBs of this lap, places behind it those of the lap before, if there
was one, with the other cycle bit. The Link TRB is that of the lap before. -/
structure Holds (r : ProducerRing) (accepted : List Trb) (lap : Nat) : Prop where
  wellFormed : r.WellFormed
  length_eq : accepted.length = lap * r.capacity + r.enqueueIndex
  cycle_eq : r.cycle = Ring.lapCycle lap
  notLink : ∀ t ∈ accepted, t.kind? ≠ some .link
  current : ∀ i < r.enqueueIndex, ∀ t, accepted[lap * r.capacity + i]? = some t →
    r.trbAt i = t.withCycle r.cycle
  stale : ∀ i < r.capacity, r.enqueueIndex ≤ i → (r.trbAt i).cycle = !r.cycle
  before : ∀ l, lap = l + 1 → ∀ i < r.capacity, r.enqueueIndex ≤ i →
    ∀ t, accepted[l * r.capacity + i]? = some t → r.trbAt i = t.withCycle (!r.cycle)
  link_kind : (r.trbAt r.capacity).kind? = some .link
  link_target : (r.trbAt r.capacity).parameter = r.base
  link_toggles : (r.trbAt r.capacity).flags.contains .toggleCycle = true
  link_cycle : (r.trbAt r.capacity).cycle = !r.cycle
  link_chain : ∀ l, lap = l + 1 → ∀ t, accepted[l * r.capacity + (r.capacity - 1)]? = some t →
    (r.trbAt r.capacity).flags.contains .chain = t.flags.contains .chain

theorem trbAt_create (kind : Ring.Kind) {count : Nat} (base : UInt64) (hcount : 0 < count)
    (i : Nat) : (create kind count base).trbAt i =
      if i = count - 1 then .link base else .blank := by
  simp only [trbAt, create, Array.getD_eq_getD_getElem?, Array.getElem?_setIfInBounds,
    Array.getElem?_replicate, Array.size_replicate]
  split_ifs <;> first | rfl | omega

theorem holds_create (kind : Ring.Kind) {count : Nat} {base : UInt64} (hcount : 3 ≤ count)
    (hfits : Ring.Fits base count) : (create kind count base).Holds [] 0 := by
  have hcapacity : (create kind count base).capacity = count - 1 := by simp [create, capacity]
  have hlink : (create kind count base).trbAt (create kind count base).capacity =
      .link base := by
    rw [trbAt_create kind base (by omega), hcapacity, if_pos rfl]
  constructor
  case wellFormed => exact wellFormed_create kind hcount hfits
  case length_eq => simp [create]
  case cycle_eq => rfl
  case notLink => simp
  case current => simp
  case stale =>
    intro i hi _
    rw [trbAt_create kind base (by omega), if_neg (by omega)]
    rfl
  case before => simp
  case link_kind => simp [hlink]
  case link_target => rw [hlink]; rfl
  case link_toggles => simp [hlink]
  case link_cycle => rw [hlink, Trb.cycle_link]; rfl
  case link_chain => simp

variable {r : ProducerRing} {accepted : List Trb} {lap : Nat}

/-- What has been enqueued in this lap is at its place. -/
theorem Holds.place_accept (h : r.Holds accepted lap) (t : Trb) {i : Nat}
    (hi : i ≤ r.enqueueIndex) {u : Trb} (hu : (accepted ++ [t])[lap * r.capacity + i]? = some u) :
    (r.accept t).trbAt i = u.withCycle r.cycle := by
  have hlength := h.length_eq
  rw [trbAt_accept h.wellFormed t (Nat.lt_of_le_of_lt hi h.wellFormed.enqueue_lt)]
  rcases Ring.getElem?_concat_cases hu with hold | ⟨hlast, rfl⟩
  · have hlt := (List.getElem?_eq_some_iff.1 hold).1
    rw [if_neg (by omega)]
    exact h.current i (by omega) u hold
  · rw [if_pos (by omega)]

theorem Holds.notLink_accept (h : r.Holds accepted lap) {t : Trb} (ht : t.kind? ≠ some .link) :
    ∀ u ∈ accepted ++ [t], u.kind? ≠ some .link :=
  List.forall_mem_append.2 ⟨h.notLink, List.forall_mem_singleton.2 ht⟩

/-- Enqueueing inside a lap. -/
theorem Holds.accept_inside (h : r.Holds accepted lap) {t : Trb} (ht : t.kind? ≠ some .link)
    (hinside : r.enqueueIndex + 1 < r.capacity) :
    (r.accept t).Holds (accepted ++ [t]) lap := by
  have hr := h.wellFormed
  have hne := Nat.ne_of_lt hinside
  have henqueue : (r.accept t).enqueueIndex = r.enqueueIndex + 1 := by
    simp [hr, next_eq hr.enqueue_lt, hinside]
  have hcycle : (r.accept t).cycle = r.cycle := by rw [cycle_accept hr h.link_toggles, if_neg hne]
  have hlink : (r.accept t).trbAt r.capacity = r.trbAt r.capacity := by
    rw [link_accept hr, if_neg hne]
  have hlength := h.length_eq
  constructor
  case wellFormed => exact hr.accept t
  case length_eq => simp [henqueue, hlength, Nat.add_assoc]
  case cycle_eq => rw [hcycle, h.cycle_eq]
  case notLink => exact h.notLink_accept ht
  case current =>
    simp only [capacity_accept, henqueue, hcycle]
    intro i hi u hu
    exact h.place_accept t (Nat.le_of_lt_succ hi) hu
  case stale =>
    simp only [capacity_accept, henqueue, hcycle]
    intro i hi hbehind
    rw [trbAt_accept hr t hi, if_neg (by omega)]
    exact h.stale i hi (by omega)
  case before =>
    simp only [capacity_accept, henqueue, hcycle]
    intro l hl i hi hbehind u hu
    have hlap : lap * r.capacity = l * r.capacity + r.capacity := by rw [hl, Nat.succ_mul]
    rw [trbAt_accept hr t hi, if_neg (by omega)]
    rcases Ring.getElem?_concat_cases hu with hold | ⟨hplace, -⟩
    · exact h.before l hl i hi (by omega) u hold
    · omega
  case link_kind => simp [hlink, h.link_kind]
  case link_target => simp [hlink, h.link_target]
  case link_toggles => simp [hlink, h.link_toggles]
  case link_cycle => simp [hlink, h.link_cycle, hcycle]
  case link_chain =>
    simp only [capacity_accept, hlink]
    intro l hl u hu
    have hlap : lap * r.capacity = l * r.capacity + r.capacity := by rw [hl, Nat.succ_mul]
    rcases Ring.getElem?_concat_cases hu with hold | ⟨hplace, -⟩
    · exact h.link_chain l hl u hold
    · omega

/-- Enqueueing the last TRB of a lap hands the Link TRB over too and begins the next lap. -/
theorem Holds.accept_last (h : r.Holds accepted lap) {t : Trb} (ht : t.kind? ≠ some .link)
    (hlast : r.enqueueIndex + 1 = r.capacity) :
    (r.accept t).Holds (accepted ++ [t]) (lap + 1) := by
  have hr := h.wellFormed
  have henqueue : (r.accept t).enqueueIndex = 0 := by
    rw [enqueueIndex_accept hr, next_eq hr.enqueue_lt, if_neg (by omega)]
  have hcycle : (r.accept t).cycle = !r.cycle := by
    rw [cycle_accept hr h.link_toggles, if_pos hlast]
  have hlink : (r.accept t).trbAt r.capacity = r.linkBehind t := by
    rw [link_accept hr, if_pos hlast]
  have hlength : (accepted ++ [t]).length = (lap + 1) * r.capacity := by
    rw [List.length_append, List.length_singleton, h.length_eq, Nat.add_assoc, hlast, Nat.succ_mul]
  constructor
  case wellFormed => exact hr.accept t
  case length_eq => simp [henqueue, hlength]
  case cycle_eq => simp [hcycle, h.cycle_eq]
  case notLink => exact h.notLink_accept ht
  case current =>
    -- Nothing has been enqueued in the new lap.
    rw [henqueue]
    intro i hi
    omega
  case stale =>
    -- The lap is complete: each of its places holds a TRB of this lap.
    simp only [capacity_accept, hcycle, Bool.not_not]
    intro i hi _
    have hlt : lap * r.capacity + i < (accepted ++ [t]).length := by
      rw [hlength, Nat.succ_mul]
      omega
    simp [h.place_accept t (by omega) (List.getElem?_eq_getElem hlt)]
  case before =>
    simp only [capacity_accept, hcycle, Bool.not_not]
    intro l hl i hi _ u hu
    obtain rfl : lap = l := by omega
    exact h.place_accept t (by omega) hu
  case link_kind => simp [hlink, h.link_kind]
  case link_target => simp [hlink, h.link_target]
  case link_toggles => simp [hlink, h.link_toggles]
  case link_cycle => simp [hlink, hcycle]
  case link_chain =>
    simp only [capacity_accept, hlink]
    intro l hl u hu
    obtain rfl : lap = l := by omega
    have hbefore := h.length_eq
    rcases Ring.getElem?_concat_cases hu with hold | ⟨-, rfl⟩
    · have hlt := (List.getElem?_eq_some_iff.1 hold).1
      omega
    · simp

/-- Whatever is enqueued, the ring holds it. -/
theorem Holds.accept (h : r.Holds accepted lap) {t : Trb} (ht : t.kind? ≠ some .link) :
    ∃ lap', (r.accept t).Holds (accepted ++ [t]) lap' := by
  rcases Nat.lt_or_eq_of_le (Nat.succ_le_of_lt h.wellFormed.enqueue_lt) with hinside | hlast
  · exact ⟨lap, h.accept_inside ht hinside⟩
  · exact ⟨lap + 1, h.accept_last ht hlast⟩

/-- Releasing does not touch the memory of the ring. -/
theorem Holds.drop (h : r.Holds accepted lap) (n : Nat) : (r.drop n).Holds accepted lap :=
  { h with wellFormed := h.wellFormed.drop n }

end ProducerRing

end UsbHost
