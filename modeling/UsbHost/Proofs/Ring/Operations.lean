import Mathlib.Tactic.SplitIfs
import UsbHost.Proofs.Ring.Positions
import UsbHost.Proofs.Trb.Control

/-!
What the operations of a producer ring do. On a ring whose indices lie on it, enqueueing succeeds
unless the ring is full, and releasing succeeds as long as something is outstanding; neither can
fault. Each operation is described once here, by the ring that comes out of it.
-/

namespace UsbHost.ProducerRing

variable {r : ProducerRing}

/-! ### Storing and advancing -/

@[simp] theorem capacity_store (index : Nat) (t : Trb) :
    (r.store index t).capacity = r.capacity := by
  simp [capacity, store]

@[simp] theorem size_store (index : Nat) (t : Trb) :
    (r.store index t).trbs.size = r.trbs.size := by
  simp [store]

@[simp] theorem base_store (index : Nat) (t : Trb) : (r.store index t).base = r.base := rfl

@[simp] theorem kind_store (index : Nat) (t : Trb) : (r.store index t).kind = r.kind := rfl

@[simp] theorem enqueueIndex_store (index : Nat) (t : Trb) :
    (r.store index t).enqueueIndex = r.enqueueIndex := rfl

@[simp] theorem dequeueIndex_store (index : Nat) (t : Trb) :
    (r.store index t).dequeueIndex = r.dequeueIndex := rfl

@[simp] theorem cycle_store (index : Nat) (t : Trb) : (r.store index t).cycle = r.cycle := rfl

theorem trbAt_store {index : Nat} (hindex : index < r.trbs.size) (t : Trb) (i : Nat) :
    (r.store index t).trbAt i = if i = index then t else r.trbAt i :=
  Ring.getD_setIfInBounds hindex t i

/-- The Link TRB as it is handed over at the end of a traversal. -/
def link (r : ProducerRing) : Trb :=
  ((r.trbAt r.capacity).withChain
    ((r.trbAt (r.capacity - 1)).flags.contains .chain)).withCycle r.cycle

theorem advance_of_lt (h : r.enqueueIndex + 1 < r.capacity) :
    r.advance = { r with enqueueIndex := r.enqueueIndex + 1 } := by
  unfold capacity at h
  unfold advance
  exact if_neg (Nat.ne_of_lt h)

theorem advance_of_eq (h : r.enqueueIndex + 1 = r.capacity) :
    r.advance = { r.store r.capacity r.link with
      enqueueIndex := 0
      cycle := if r.link.flags.contains .toggleCycle then !r.cycle else r.cycle } := by
  unfold advance
  exact if_pos h

@[simp] theorem base_advance : r.advance.base = r.base := by
  simp only [advance]
  split <;> rfl

@[simp] theorem size_advance : r.advance.trbs.size = r.trbs.size := by
  simp only [advance]
  split <;> simp

@[simp] theorem capacity_advance : r.advance.capacity = r.capacity := by
  simp [capacity]

@[simp] theorem dequeueIndex_advance : r.advance.dequeueIndex = r.dequeueIndex := by
  simp only [advance]
  split <;> rfl

/-- Advancing moves the enqueueing end to the next place. -/
theorem enqueueIndex_advance (h : r.enqueueIndex < r.capacity) :
    r.advance.enqueueIndex = r.next r.enqueueIndex := by
  rw [next_eq h]
  split_ifs with hlt
  · rw [advance_of_lt hlt]
  · rw [advance_of_eq (by omega)]

/-! ### Enqueueing -/

/-- The ring that has taken `t`. -/
def accept (r : ProducerRing) (t : Trb) : ProducerRing :=
  (r.store r.enqueueIndex (t.withCycle r.cycle)).advance

@[simp] theorem base_accept (t : Trb) : (r.accept t).base = r.base := by
  simp [accept]

@[simp] theorem size_accept (t : Trb) : (r.accept t).trbs.size = r.trbs.size := by
  simp [accept]

@[simp] theorem capacity_accept (t : Trb) : (r.accept t).capacity = r.capacity := by
  simp [accept]

@[simp] theorem dequeueIndex_accept (t : Trb) :
    (r.accept t).dequeueIndex = r.dequeueIndex := by
  simp [accept]

@[simp] theorem addressAt_accept (t : Trb) (index : Nat) :
    (r.accept t).addressAt index = r.addressAt index := by
  simp [addressAt]

/-- Taking a TRB moves the enqueueing end to the next place. -/
@[simp] theorem enqueueIndex_accept (hr : r.WellFormed) (t : Trb) :
    (r.accept t).enqueueIndex = r.next r.enqueueIndex := by
  rw [accept, enqueueIndex_advance (by simpa using hr.enqueue_lt)]
  simp [next]

theorem WellFormed.accept (hr : r.WellFormed) (t : Trb) : (r.accept t).WellFormed where
  one_lt_capacity := by simpa using hr.one_lt_capacity
  enqueue_lt := by simpa [hr] using next_lt hr _
  dequeue_lt := by simpa using hr.dequeue_lt
  fits := by simpa using hr.fits

/-- Enqueueing is refused exactly by a full ring, and otherwise uses the next free TRB. -/
theorem enqueue_eq (hr : r.WellFormed) (t : Trb) :
    r.enqueue t = .ok (if r.isFull then none else
      some (r.addressAt r.enqueueIndex, r.accept t)) := by
  unfold enqueue nextAddress?
  by_cases hfull : r.isFull = true
  · simp [hfull, bind, Except.bind, pure, Except.pure]
  · simp [hfull, address_eq hr (Nat.le_of_lt hr.enqueue_lt), bind, Except.bind, pure,
      Except.pure, Functor.map, Except.map, ProducerRing.accept]

/-- An accepted TRB is one more outstanding. -/
theorem outstanding_accept (hr : r.WellFormed) (hroom : r.outstanding < r.capacity - 1)
    (t : Trb) : (r.accept t).outstanding = r.outstanding + 1 := by
  have := hr.enqueue_lt
  have := hr.dequeue_lt
  rw [outstanding_eq hr] at hroom
  rw [outstanding_eq (hr.accept t), outstanding_eq hr, enqueueIndex_accept hr,
    next_eq hr.enqueue_lt, dequeueIndex_accept, capacity_accept]
  split_ifs at hroom ⊢ <;> omega

/-- What there is room for behind `t` still fits when `t` has been taken. -/
theorem room_accept (hr : r.WellFormed) {n : Nat} (hroom : r.outstanding + (n + 1) ≤ r.capacity - 1)
    (t : Trb) : (r.accept t).outstanding + n ≤ (r.accept t).capacity - 1 := by
  rw [outstanding_accept hr (by omega), capacity_accept]
  omega

/-- The ring that has taken all of `ts`, in order. -/
def acceptAll (r : ProducerRing) (ts : List Trb) : ProducerRing := ts.foldl accept r

@[simp] theorem acceptAll_nil : r.acceptAll [] = r := rfl

@[simp] theorem acceptAll_cons (t : Trb) (ts : List Trb) :
    r.acceptAll (t :: ts) = (r.accept t).acceptAll ts := rfl

theorem WellFormed.acceptAll (hr : r.WellFormed) (ts : List Trb) :
    (r.acceptAll ts).WellFormed := by
  induction ts generalizing r with
  | nil => exact hr
  | cons t ts ih => exact ih (hr.accept t)

@[simp] theorem base_acceptAll (ts : List Trb) : (r.acceptAll ts).base = r.base := by
  induction ts generalizing r with
  | nil => rfl
  | cons t ts ih => simp [ih]

@[simp] theorem capacity_acceptAll (ts : List Trb) : (r.acceptAll ts).capacity = r.capacity := by
  induction ts generalizing r with
  | nil => rfl
  | cons t ts ih => simp [ih]

@[simp] theorem dequeueIndex_acceptAll (ts : List Trb) :
    (r.acceptAll ts).dequeueIndex = r.dequeueIndex := by
  induction ts generalizing r with
  | nil => rfl
  | cons t ts ih => simp [ih]

theorem outstanding_acceptAll (hr : r.WellFormed) {ts : List Trb}
    (hroom : r.outstanding + ts.length ≤ r.capacity - 1) :
    (r.acceptAll ts).outstanding = r.outstanding + ts.length := by
  induction ts generalizing r with
  | nil => rfl
  | cons t ts ih =>
    rw [List.length_cons] at hroom ⊢
    rw [acceptAll_cons, ih (hr.accept t) (room_accept hr hroom t),
      outstanding_accept hr (by omega)]
    omega

/-! ### What enqueueing writes -/

/-- The Link TRB as it is handed over behind `t`, if `t` is the last TRB of a traversal. -/
def linkBehind (r : ProducerRing) (t : Trb) : Trb :=
  ((r.trbAt r.capacity).withChain (t.flags.contains .chain)).withCycle r.cycle

@[simp] theorem kind?_linkBehind (t : Trb) :
    (r.linkBehind t).kind? = (r.trbAt r.capacity).kind? := by
  simp [linkBehind]

@[simp] theorem parameter_linkBehind (t : Trb) :
    (r.linkBehind t).parameter = (r.trbAt r.capacity).parameter := rfl

@[simp] theorem contains_toggleCycle_linkBehind (t : Trb) :
    (r.linkBehind t).flags.contains .toggleCycle =
      (r.trbAt r.capacity).flags.contains .toggleCycle := by
  simp [linkBehind]

@[simp] theorem contains_chain_linkBehind (t : Trb) :
    (r.linkBehind t).flags.contains .chain = t.flags.contains .chain := by
  simp [linkBehind]

@[simp] theorem cycle_linkBehind (t : Trb) : (r.linkBehind t).cycle = r.cycle := by
  simp [linkBehind]

theorem accept_of_lt (t : Trb) (h : r.enqueueIndex + 1 < r.capacity) :
    r.accept t = { r.store r.enqueueIndex (t.withCycle r.cycle) with
      enqueueIndex := r.enqueueIndex + 1 } := by
  rw [accept, advance_of_lt (by simpa using h), enqueueIndex_store]

/-- The TRB before the link is the one just written, so the link takes over its chain bit. -/
theorem link_store_last (hr : r.WellFormed) (t : Trb) (h : r.enqueueIndex + 1 = r.capacity) :
    (r.store r.enqueueIndex (t.withCycle r.cycle)).link = r.linkBehind t := by
  have hsize := hr.size_eq
  rw [link, capacity_store, trbAt_store (by omega), trbAt_store (by omega), if_neg (by omega),
    if_pos (by omega), Trb.contains_chain_withCycle]
  rfl

theorem accept_of_eq (hr : r.WellFormed) (t : Trb) (h : r.enqueueIndex + 1 = r.capacity) :
    r.accept t =
      { (r.store r.enqueueIndex (t.withCycle r.cycle)).store r.capacity (r.linkBehind t) with
        enqueueIndex := 0
        cycle := if (r.trbAt r.capacity).flags.contains .toggleCycle then !r.cycle
          else r.cycle } := by
  rw [accept, advance_of_eq (by simpa using h), link_store_last hr t h, capacity_store,
    cycle_store, contains_toggleCycle_linkBehind]

/-- Taking a TRB writes it where the enqueueing end is, and changes no other place. -/
theorem trbAt_accept (hr : r.WellFormed) (t : Trb) {i : Nat} (hi : i < r.capacity) :
    (r.accept t).trbAt i = if i = r.enqueueIndex then t.withCycle r.cycle else r.trbAt i := by
  have hsize := hr.size_eq
  have hend := hr.enqueue_lt
  have hstore := trbAt_store (r := r) (by omega : r.enqueueIndex < r.trbs.size)
    (t.withCycle r.cycle) i
  rcases Nat.lt_or_eq_of_le (Nat.succ_le_of_lt hend) with hinside | hlast
  · rw [accept_of_lt t hinside]
    exact hstore
  · -- At the end of the ring the Link TRB is written too, behind the last place.
    rw [accept_of_eq hr t hlast, ← hstore]
    refine (trbAt_store ?_ (r.linkBehind t) i).trans (if_neg (Nat.ne_of_lt hi))
    rw [size_store]
    omega

/-- The Link TRB is handed over with the last place of a traversal only. -/
theorem link_accept (hr : r.WellFormed) (t : Trb) : (r.accept t).trbAt r.capacity =
    if r.enqueueIndex + 1 = r.capacity then r.linkBehind t else r.trbAt r.capacity := by
  have hsize := hr.size_eq
  have hend := hr.enqueue_lt
  split_ifs with hlast
  · rw [accept_of_eq hr t hlast]
    refine (trbAt_store ?_ (r.linkBehind t) r.capacity).trans (if_pos rfl)
    rw [size_store]
    omega
  · rw [accept_of_lt t (by omega)]
    exact (trbAt_store (by omega) _ _).trans (if_neg (by omega))

/-- So the cycle state flips there, if the Link TRB says so. -/
theorem cycle_accept (hr : r.WellFormed)
    (htoggles : (r.trbAt r.capacity).flags.contains .toggleCycle = true) (t : Trb) :
    (r.accept t).cycle = if r.enqueueIndex + 1 = r.capacity then !r.cycle else r.cycle := by
  have hend := hr.enqueue_lt
  split_ifs with hlast
  · rw [accept_of_eq hr t hlast, htoggles]
    rfl
  · rw [accept_of_lt t (by omega)]
    rfl

/-! ### Releasing -/

/-- The ring that has released `n` TRBs. -/
def drop (r : ProducerRing) (n : Nat) : ProducerRing :=
  { r with dequeueIndex := (r.dequeueIndex + n) % r.capacity }

@[simp] theorem base_drop (n : Nat) : (r.drop n).base = r.base := rfl

@[simp] theorem trbs_drop (n : Nat) : (r.drop n).trbs = r.trbs := rfl

@[simp] theorem capacity_drop (n : Nat) : (r.drop n).capacity = r.capacity := rfl

@[simp] theorem enqueueIndex_drop (n : Nat) : (r.drop n).enqueueIndex = r.enqueueIndex := rfl

@[simp] theorem dequeueIndex_drop (n : Nat) :
    (r.drop n).dequeueIndex = (r.dequeueIndex + n) % r.capacity := rfl

@[simp] theorem cycle_drop (n : Nat) : (r.drop n).cycle = r.cycle := rfl

@[simp] theorem trbAt_drop (n i : Nat) : (r.drop n).trbAt i = r.trbAt i := rfl

@[simp] theorem addressAt_drop (n index : Nat) : (r.drop n).addressAt index = r.addressAt index :=
  rfl

theorem WellFormed.drop (hr : r.WellFormed) (n : Nat) : (r.drop n).WellFormed where
  one_lt_capacity := hr.one_lt_capacity
  enqueue_lt := hr.enqueue_lt
  dequeue_lt := Nat.mod_lt _ (by have := hr.one_lt_capacity; omega)
  fits := hr.fits

theorem outstanding_drop (hr : r.WellFormed) {n : Nat} (hn : n ≤ r.outstanding) :
    (r.drop n).outstanding = r.outstanding - n := by
  have := hr.enqueue_lt
  have := hr.dequeue_lt
  have hcount := outstanding_eq hr
  have hdequeue : (r.dequeueIndex + n) % r.capacity = if r.dequeueIndex + n < r.capacity then
      r.dequeueIndex + n else r.dequeueIndex + n - r.capacity :=
    Ring.mod_eq_ite (by split_ifs at hcount <;> omega)
  rw [outstanding_eq (hr.drop n), dequeueIndex_drop, hdequeue, enqueueIndex_drop, capacity_drop]
  split_ifs at hcount ⊢ <;> omega

/-- What is released can be enqueued again. -/
theorem freeSlots_drop (hr : r.WellFormed) {n : Nat} (hn : n ≤ r.outstanding) :
    (r.drop n).freeSlots = r.freeSlots + n := by
  have hout := outstanding_lt hr
  rw [freeSlots, freeSlots, outstanding_drop hr hn, capacity_drop]
  omega

theorem drop_zero (hr : r.WellFormed) : r.drop 0 = r := by
  simp [ProducerRing.drop, Nat.mod_eq_of_lt hr.dequeue_lt]

@[simp] theorem drop_drop (m n : Nat) : (r.drop m).drop n = r.drop (m + n) := by
  simp [ProducerRing.drop, capacity, Nat.add_assoc]

/-- Releasing the oldest TRB faults only on a ring without outstanding TRBs. -/
theorem releaseOne_eq (hr : r.WellFormed) (h : 0 < r.outstanding) :
    r.releaseOne = .ok (r.addressAt (r.next r.dequeueIndex), r.drop 1) := by
  have hne : ¬ r.dequeueIndex = r.enqueueIndex := by
    intro heq
    rw [outstanding_eq hr, heq] at h
    simp at h
  have haddress := address_eq hr (Nat.le_of_lt (next_lt hr r.dequeueIndex))
  simp only [releaseOne, if_neg hne, haddress]
  rfl

theorem release_eq (hr : r.WellFormed) {n : Nat} (hn : n ≤ r.outstanding) :
    r.release n = .ok (r.drop n) := by
  induction n generalizing r with
  | zero => rw [release, drop_zero hr]
  | succ n ih =>
    have hrest : n ≤ (r.drop 1).outstanding := by
      rw [outstanding_drop hr (by omega)]
      omega
    rw [release, releaseOne_eq hr (by omega)]
    change (r.drop 1).release n = _
    simp [ih (hr.drop 1) hrest, Nat.add_comm]

/-- Releasing up to the `n`-th oldest outstanding TRB releases exactly the `n` oldest ones. -/
theorem releaseThrough_eq (hr : r.WellFormed) {n : Nat} (hpos : 0 < n) (hn : n ≤ r.outstanding) :
    r.releaseThrough (r.addressAt ((r.dequeueIndex + n - 1) % r.capacity)) =
      .ok (n, r.drop n) := by
  have hlt := outstanding_lt hr
  have := hr.dequeue_lt
  have hindex : (r.dequeueIndex + n - 1) % r.capacity < r.capacity := Nat.mod_lt _ (by omega)
  have hdistance : r.distance ((r.dequeueIndex + n - 1) % r.capacity) = n - 1 := by
    rw [distance_eq hr hindex, Ring.mod_eq_ite (by omega)]
    split_ifs <;> omega
  have hout : r.isOutstanding ((r.dequeueIndex + n - 1) % r.capacity) = true := by
    simp only [isOutstanding, hdistance, hindex, decide_true, Bool.true_and, decide_eq_true_eq]
    omega
  have hsucc : n - 1 + 1 = n := by omega
  simp only [releaseThrough, indexOf?_addressAt hr (Nat.le_of_lt hindex), hout, if_true,
    hdistance, hsucc, release_eq hr hn]
  rfl

end UsbHost.ProducerRing
