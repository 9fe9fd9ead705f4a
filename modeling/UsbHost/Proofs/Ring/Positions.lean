import Mathlib.Tactic.SplitIfs
import UsbHost.Proofs.Attempt
import UsbHost.Ring.Producer

/-!
Positions on a producer ring. Both ends of a ring are indices below its capacity that move
forward one place at a time and start over at the end. All counts are read off these two indices;
they are right because one place always stays free. An address names the TRB of an index exactly
when it is the address of that TRB, provided that the memory of the ring lies inside the 64-bit
address space.
-/

namespace UsbHost

theorem Config.checkRingSize_eq_ok {name : String} {size : Nat} :
    checkRingSize name size = .ok () ↔ minRingSize ≤ size ∧ size % 4 = 0 := by
  rw [← Nat.not_lt]
  by_cases hmin : size < minRingSize
  · simp [checkRingSize, hmin, bind, Except.bind, throw, throwThe, MonadExceptOf.throw]
  · by_cases hfour : size % 4 = 0
    · simp [checkRingSize, hmin, hfour, pure, Except.pure]
    · simp [checkRingSize, hmin, hfour, throw, throwThe, MonadExceptOf.throw]

namespace Ring

/-- The memory of a ring of `count` TRBs at `base` lies inside the bus address space. -/
def Fits (base : UInt64) (count : Nat) : Prop := base.toNat + count * Trb.byteSize ≤ UInt64.size

instance (base : UInt64) (count : Nat) : Decidable (Fits base count) :=
  inferInstanceAs (Decidable (_ ≤ _))

/-- A ring that has a layout has at least 16 TRBs, a multiple of four, inside one segment. -/
theorem layout_bounds {count : Nat} {layout : Dma.Layout}
    (h : (Ring.layout count).run = .ok (.ok layout)) :
    Config.minRingSize ≤ count ∧ count % 4 = 0 ∧
      count * Trb.byteSize ≤ Dma.structureBoundary := by
  unfold Ring.layout at h
  obtain ⟨_, hsize, h⟩ := Attempt.run_bind_eq_ok.1 h
  rw [Attempt.run_liftExcept, Except.ok.injEq, Config.checkRingSize_eq_ok] at hsize
  refine ⟨hsize.1, hsize.2, Nat.le_of_not_lt fun hbig => ?_⟩
  simp only [if_pos hbig] at h
  split at h
  · obtain ⟨_, hfault, -⟩ := Attempt.run_bind_eq_ok.1 h
    cases hfault
  · obtain ⟨_, hrefused, -⟩ := Attempt.run_bind_eq_ok.1 h
    cases hrefused

/-- The smallest ring can be allocated. -/
theorem layout_minRingSize : (Ring.layout Config.minRingSize).run = .ok (.ok ⟨256, 256⟩) := by
  cbv

/-- A TRB that has been stored is read back, and no other TRB changes. -/
theorem getD_setIfInBounds {trbs : Array Trb} {index : Nat} (hindex : index < trbs.size) (t : Trb)
    (i : Nat) : (trbs.setIfInBounds index t).getD i .blank =
      if i = index then t else trbs.getD i .blank := by
  rw [Array.getD_eq_getD_getElem?, Array.getD_eq_getD_getElem?, Array.getElem?_setIfInBounds]
  by_cases hi : i = index
  · simp [hi, hindex]
  · simp [hi, Ne.symm hi]

/-- What is in a history with one more entry was there before, or is the new entry. -/
theorem getElem?_concat_cases {α : Type} {as : List α} {a b : α} {k : Nat}
    (h : (as ++ [a])[k]? = some b) : as[k]? = some b ∨ k = as.length ∧ b = a := by
  rcases Nat.lt_or_ge k as.length with hlt | hge
  · rw [List.getElem?_append_left hlt] at h
    exact .inl h
  · rw [List.getElem?_append_right hge, List.getElem?_singleton] at h
    obtain ⟨hzero, h⟩ := Option.ite_none_right_eq_some.1 h
    exact .inr ⟨by omega, (Option.some.inj h).symm⟩

/-- A remainder by comparison, for what is less than one turn too far. -/
theorem mod_eq_ite {a c : Nat} (h : a < 2 * c) : a % c = if a < c then a else a - c := by
  split
  · rename_i hlt
    exact Nat.mod_eq_of_lt hlt
  · rw [Nat.mod_eq_sub_mod (by omega), Nat.mod_eq_of_lt (by omega)]

/-- One step further on a ring of `n` places: to the next place, or to the first of the next lap. -/
theorem succ_place {n : Nat} (hn : 0 < n) (k : Nat) :
    k % n + 1 = n ∧ (k + 1) % n = 0 ∧ (k + 1) / n = k / n + 1 ∨
      k % n + 1 ≠ n ∧ (k + 1) % n = k % n + 1 ∧ (k + 1) / n = k / n := by
  have hplace := Nat.mod_lt k hn
  have hsplit : k + 1 = (k % n + 1) + n * (k / n) := by
    have := Nat.mod_add_div k n
    omega
  by_cases hend : k % n + 1 = n
  · left
    rw [hsplit, hend, Nat.add_mul_mod_self_left, Nat.add_mul_div_left _ _ hn, Nat.mod_self,
      Nat.div_self hn]
    exact ⟨rfl, rfl, Nat.add_comm _ _⟩
  · right
    have hlt : k % n + 1 < n := by omega
    refine ⟨hend, ?_, ?_⟩
    · rw [hsplit, Nat.add_mul_mod_self_left, Nat.mod_eq_of_lt hlt]
    · rw [hsplit, Nat.add_mul_div_left _ _ hn, Nat.div_eq_of_lt hlt, Nat.zero_add]

/-- Less than a turn apart, different positions are different places. -/
theorem place_ne {n j k : Nat} (hlt : j < k) (hturn : k < j + n) : k % n ≠ j % n := by
  intro hsame
  have hnone : (k - j) % n = 0 := Nat.sub_mod_eq_zero_of_mod_eq hsame
  rw [Nat.mod_eq_of_lt (by omega)] at hnone
  omega

end Ring

namespace ProducerRing

/-- The bus address of TRB `index`, where it exists. -/
def addressAt (r : ProducerRing) (index : Nat) : UInt64 :=
  r.base + UInt64.ofNat (index * Trb.byteSize)

/-- The indices of the ring lie on it, and its memory has addresses. -/
structure WellFormed (r : ProducerRing) : Prop where
  one_lt_capacity : 1 < r.capacity
  enqueue_lt : r.enqueueIndex < r.capacity
  dequeue_lt : r.dequeueIndex < r.capacity
  fits : Ring.Fits r.base r.trbs.size

theorem WellFormed.size_eq {r : ProducerRing} (hr : r.WellFormed) :
    r.trbs.size = r.capacity + 1 := by
  have := hr.one_lt_capacity
  unfold capacity at this ⊢
  omega

/-- The places of the ring lie below the end of the address space. -/
theorem WellFormed.offset_lt {r : ProducerRing} (hr : r.WellFormed) {index : Nat}
    (hindex : index ≤ r.capacity) : r.base.toNat + index * Trb.byteSize < UInt64.size := by
  have hfits := hr.fits
  have hsize := hr.size_eq
  simp only [Ring.Fits, Trb.byteSize] at hfits ⊢
  omega

theorem wellFormed_create (kind : Ring.Kind) {count : Nat} {base : UInt64}
    (hcount : 3 ≤ count) (hfits : Ring.Fits base count) :
    (create kind count base).WellFormed where
  one_lt_capacity := by simp [create, capacity]; omega
  enqueue_lt := by simp [create, capacity]; omega
  dequeue_lt := by simp [create, capacity]; omega
  fits := by simpa [create] using hfits

/-! ### Addresses -/

@[simp] theorem addressAt_zero (r : ProducerRing) : r.addressAt 0 = r.base := by
  simp [addressAt]

theorem addressAt_succ (r : ProducerRing) (index : Nat) :
    r.addressAt (index + 1) = r.addressAt index + UInt64.ofNat Trb.byteSize := by
  rw [addressAt, addressAt, Nat.succ_mul, UInt64.ofNat_add, UInt64.add_assoc]

theorem toNat_addressAt {r : ProducerRing} (hr : r.WellFormed) {index : Nat}
    (hindex : index ≤ r.capacity) :
    (r.addressAt index).toNat = r.base.toNat + index * Trb.byteSize := by
  rw [addressAt, UInt64.toNat_add, UInt64.toNat_ofNat', Nat.add_mod_mod,
    Nat.mod_eq_of_lt (hr.offset_lt hindex)]

theorem address_eq {r : ProducerRing} (hr : r.WellFormed) {index : Nat}
    (hindex : index ≤ r.capacity) : r.address index = .ok (r.addressAt index) := by
  rw [address, Ring.address, Dma.busOffset, if_pos (hr.offset_lt hindex), addressAt]

/-- Every TRB of the ring, the Link TRB included, is found at its address. -/
theorem indexOf?_addressAt {r : ProducerRing} (hr : r.WellFormed) {index : Nat}
    (hindex : index ≤ r.capacity) : r.indexOf? (r.addressAt index) = some index := by
  have hnat := toNat_addressAt hr hindex
  have hle : r.base ≤ r.addressAt index := by
    rw [UInt64.le_iff_toNat_le, hnat]
    omega
  have hoffset : (r.addressAt index - r.base).toNat = index * Trb.byteSize := by
    rw [UInt64.toNat_sub_of_le _ _ hle, hnat]
    omega
  have hlt : ¬ r.addressAt index < r.base := UInt64.not_lt.2 hle
  have hsize := hr.size_eq
  simp only [indexOf?, Ring.indexOf?, if_neg hlt, hoffset, Trb.byteSize] at *
  rw [if_pos ⟨by omega, by omega⟩, Option.some.injEq]
  omega

/-- An address that names a TRB of the ring is the address of this TRB. -/
theorem eq_addressAt {r : ProducerRing} (hr : r.WellFormed) {address : UInt64} {index : Nat}
    (h : r.indexOf? address = some index) :
    index ≤ r.capacity ∧ address = r.addressAt index := by
  have hsize := hr.size_eq
  simp only [indexOf?, Ring.indexOf?, Option.ite_none_left_eq_some,
    Option.ite_none_right_eq_some, Option.some.injEq] at h
  obtain ⟨hbelow, ⟨haligned, hlt⟩, rfl⟩ := h
  have hoffset : (address - r.base).toNat / Trb.byteSize * Trb.byteSize =
      (address - r.base).toNat := Nat.div_mul_cancel (Nat.dvd_of_mod_eq_zero haligned)
  refine ⟨by omega, ?_⟩
  rw [addressAt, hoffset, UInt64.ofNat_toNat, UInt64.add_comm, UInt64.sub_add_cancel]

theorem addressAt_inj {r : ProducerRing} (hr : r.WellFormed) {i j : Nat} (hi : i ≤ r.capacity)
    (hj : j ≤ r.capacity) (h : r.addressAt i = r.addressAt j) : i = j := by
  have hindex := indexOf?_addressAt hr hi
  rw [h, indexOf?_addressAt hr hj] at hindex
  exact (Option.some.inj hindex).symm

/-! ### Counting -/

theorem outstanding_eq {r : ProducerRing} (hr : r.WellFormed) :
    r.outstanding = if r.dequeueIndex ≤ r.enqueueIndex then r.enqueueIndex - r.dequeueIndex
      else r.enqueueIndex + r.capacity - r.dequeueIndex := by
  have := hr.enqueue_lt
  have := hr.dequeue_lt
  rw [outstanding, Ring.mod_eq_ite (by omega)]
  split_ifs <;> omega

theorem distance_eq {r : ProducerRing} (hr : r.WellFormed) {index : Nat}
    (hindex : index < r.capacity) :
    r.distance index = if r.dequeueIndex ≤ index then index - r.dequeueIndex
      else index + r.capacity - r.dequeueIndex := by
  have := hr.dequeue_lt
  rw [distance, Ring.mod_eq_ite (by omega)]
  split_ifs <;> omega

/-- The place `k` behind the oldest one is recovered as `k`. -/
theorem distance_place {r : ProducerRing} (hr : r.WellFormed) {k : Nat} (hk : k < r.capacity) :
    r.distance ((r.dequeueIndex + k) % r.capacity) = k := by
  have := hr.dequeue_lt
  rw [distance_eq hr (Nat.mod_lt _ (by omega)), Ring.mod_eq_ite (by omega)]
  split_ifs <;> omega

/-- An index is as far behind the oldest one as it is said to be. -/
theorem place_distance {r : ProducerRing} (hr : r.WellFormed) {index : Nat}
    (hindex : index < r.capacity) : (r.dequeueIndex + r.distance index) % r.capacity = index := by
  have := hr.dequeue_lt
  rw [distance_eq hr hindex, Ring.mod_eq_ite (by split_ifs <;> omega)]
  split_ifs <;> omega

theorem next_eq {r : ProducerRing} {index : Nat} (hindex : index < r.capacity) :
    r.next index = if index + 1 < r.capacity then index + 1 else 0 := by
  rw [next, Ring.mod_eq_ite (by omega)]
  split_ifs <;> omega

theorem next_lt {r : ProducerRing} (hr : r.WellFormed) (index : Nat) :
    r.next index < r.capacity :=
  Nat.mod_lt _ (by have := hr.one_lt_capacity; omega)

theorem outstanding_lt {r : ProducerRing} (hr : r.WellFormed) : r.outstanding < r.capacity :=
  Nat.mod_lt _ (by have := hr.one_lt_capacity; omega)

/-- The enqueueing end is as far ahead of the other one as the count says. -/
theorem enqueueIndex_eq {r : ProducerRing} (hr : r.WellFormed) :
    r.enqueueIndex = (r.dequeueIndex + r.outstanding) % r.capacity := by
  have := hr.enqueue_lt
  have := hr.dequeue_lt
  have hcount := outstanding_eq hr
  rw [Ring.mod_eq_ite (by split_ifs at hcount <;> omega)]
  split_ifs at hcount ⊢ <;> omega

theorem isFull_iff {r : ProducerRing} (hr : r.WellFormed) :
    r.isFull = true ↔ r.outstanding = r.capacity - 1 := by
  have := hr.enqueue_lt
  have := hr.dequeue_lt
  have := hr.one_lt_capacity
  rw [isFull, beq_iff_eq, next_eq hr.enqueue_lt, outstanding_eq hr]
  split_ifs <;> omega

end ProducerRing

end UsbHost
