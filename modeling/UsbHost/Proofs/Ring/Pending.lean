import UsbHost.Proofs.Ring.Operations
import UsbHost.Proofs.Trb.Control

/-!
What a ring holds for the controller: the outstanding TRBs, oldest first. Enqueueing adds one at
the end, because it writes a place that is free; releasing takes some away at the beginning and
writes nothing.
-/

namespace UsbHost.ProducerRing

variable {r : ProducerRing}

/-- The outstanding TRBs, oldest first, without their cycle bits. -/
def pending (r : ProducerRing) : List Trb :=
  (List.range r.outstanding).map fun k =>
    (r.trbAt ((r.dequeueIndex + k) % r.capacity)).withCycle false

@[simp] theorem length_pending (r : ProducerRing) : r.pending.length = r.outstanding := by
  simp [pending]

theorem pending_create (kind : Ring.Kind) {count : Nat} {base : UInt64} (hcount : 3 ≤ count)
    (hfits : Ring.Fits base count) : (create kind count base).pending = [] := by
  rw [← List.length_eq_zero_iff, length_pending,
    outstanding_eq (wellFormed_create kind hcount hfits)]
  simp [create]

/-- The TRB `k` places behind the oldest one is not where the next one goes. -/
theorem outstanding_ne_enqueueIndex (hr : r.WellFormed) {k : Nat} (hk : k < r.outstanding) :
    (r.dequeueIndex + k) % r.capacity ≠ r.enqueueIndex := by
  have := hr.dequeue_lt
  have hlt := outstanding_lt hr
  rw [enqueueIndex_eq hr, Ring.mod_eq_ite (by omega), Ring.mod_eq_ite (by omega)]
  split_ifs <;> omega

theorem pending_accept (hr : r.WellFormed) (hroom : r.outstanding < r.capacity - 1) (t : Trb) :
    (r.accept t).pending = r.pending ++ [t.withCycle false] := by
  have hlt := hr.one_lt_capacity
  have hkeep : ∀ k ∈ List.range r.outstanding,
      ((r.accept t).trbAt ((r.dequeueIndex + k) % r.capacity)).withCycle false =
        (r.trbAt ((r.dequeueIndex + k) % r.capacity)).withCycle false := by
    intro k hk
    rw [trbAt_accept hr t (Nat.mod_lt _ (by omega)),
      if_neg (outstanding_ne_enqueueIndex hr (List.mem_range.1 hk))]
  have hlast : (r.accept t).trbAt ((r.dequeueIndex + r.outstanding) % r.capacity) =
      t.withCycle r.cycle := by
    rw [← enqueueIndex_eq hr, trbAt_accept hr t hr.enqueue_lt, if_pos rfl]
  simp [pending, outstanding_accept hr hroom, List.range_succ, List.map_congr_left hkeep, hlast]

theorem pending_acceptAll (hr : r.WellFormed) {ts : List Trb}
    (hroom : r.outstanding + ts.length ≤ r.capacity - 1) :
    (r.acceptAll ts).pending = r.pending ++ ts.map (·.withCycle false) := by
  induction ts generalizing r with
  | nil => simp
  | cons t ts ih =>
    rw [List.length_cons] at hroom
    rw [acceptAll_cons, ih (hr.accept t) (room_accept hr hroom t), pending_accept hr (by omega),
      List.map_cons, List.append_assoc, List.singleton_append]

theorem pending_drop (hr : r.WellFormed) {n : Nat} (hn : n ≤ r.outstanding) :
    (r.drop n).pending = r.pending.drop n := by
  apply List.ext_getElem
  · simp [outstanding_drop hr hn]
  · intro k hk _
    rw [length_pending, outstanding_drop hr hn] at hk
    simp [pending, Nat.add_assoc]

/-- A TRB that has not been released is among the pending ones. -/
theorem mem_pending (hr : r.WellFormed) {i : Nat} (hi : r.isOutstanding i = true) :
    (r.trbAt i).withCycle false ∈ r.pending := by
  rw [isOutstanding, Bool.and_eq_true, decide_eq_true_eq, decide_eq_true_eq] at hi
  obtain ⟨hlt, hdistance⟩ := hi
  refine List.mem_map.2 ⟨r.distance i, List.mem_range.2 hdistance, ?_⟩
  rw [place_distance hr hlt]

end UsbHost.ProducerRing
