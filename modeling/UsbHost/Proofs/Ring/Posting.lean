import UsbHost.Proofs.Ring.Laps
import UsbHost.Ring.Event

/-!
An event ring and the controller that writes it. The two share the memory of the ring only: each
counts its own way round it, and the cycle bits of a lap tell the reader how far the writer has
come. As long as the writer is at most one turn ahead, the places in between hold the events that
have been posted and not taken, and every other place carries the bit of the lap before.
-/

namespace UsbHost

namespace EventRing

/-- The memory and the reader of `r`, when `s` has posted the events `posted` and `taken` of them
have been taken off. -/
structure Follows (r : EventRing) (s : EventSource) (posted : List Trb) (taken : Nat) : Prop where
  size_pos : 0 < r.trbs.size
  taken_le : taken ≤ posted.length
  ahead_le : posted.length ≤ taken + r.trbs.size
  dequeueIndex_eq : r.dequeueIndex = taken % r.trbs.size
  cycle_eq : r.cycle = Ring.lapCycle (taken / r.trbs.size)
  source_index_eq : s.index = posted.length % r.trbs.size
  source_cycle_eq : s.cycle = Ring.lapCycle (posted.length / r.trbs.size)
  fresh : ∀ k t, taken ≤ k → posted[k]? = some t →
    r.trbAt (k % r.trbs.size) = t.withCycle (Ring.lapCycle (k / r.trbs.size))
  stale : ∀ k, posted.length ≤ k → k < taken + r.trbs.size →
    (r.trbAt (k % r.trbs.size)).cycle = !Ring.lapCycle (k / r.trbs.size)

variable {r : EventRing} {s : EventSource} {posted : List Trb} {taken : Nat}

theorem follows_create {count : Nat} (hcount : 0 < count) (base : UInt64) :
    (create count base).Follows {} [] 0 := by
  have hsize : (create count base).trbs.size = count := Array.size_replicate
  have hblank : ∀ i, (create count base).trbAt i = .blank := by
    intro i
    rw [trbAt, create, Array.getD_eq_getD_getElem?, Array.getElem?_replicate]
    split <;> rfl
  have hlap : Ring.lapCycle (0 / count) = true := by
    rw [Nat.zero_div]
    rfl
  constructor
  case size_pos => rwa [hsize]
  case taken_le => exact Nat.le_refl _
  case ahead_le => exact Nat.zero_le _
  case dequeueIndex_eq => exact (Nat.zero_mod _).symm
  case cycle_eq =>
    rw [hsize, hlap]
    rfl
  case source_index_eq => exact (Nat.zero_mod _).symm
  case source_cycle_eq => rw [hsize, List.length_nil, hlap]
  case fresh => exact fun _ _ _ => nofun
  case stale =>
    intro k _ hk
    rw [hsize, Nat.zero_add] at hk
    rw [hblank, hsize, Nat.div_eq_of_lt hk]
    rfl

theorem trbAt_store {index : Nat} (hindex : index < r.trbs.size) (t : Trb) (i : Nat) :
    (r.store index t).trbAt i = if i = index then t else r.trbAt i :=
  Ring.getD_setIfInBounds hindex t i

@[simp] theorem size_store (r : EventRing) (index : Nat) (t : Trb) :
    (r.store index t).trbs.size = r.trbs.size :=
  Array.size_setIfInBounds

/-! ### Posting -/

/-- The ring after an event has been posted is the one with the event written. -/
@[simp] theorem snd_post (s : EventSource) (r : EventRing) (t : Trb) :
    (s.post r t).2 = r.store s.index (t.withCycle s.cycle) := by
  rw [EventSource.post]
  split <;> rfl

/-- The writer goes on to the next place, and to the next lap behind the last one. -/
theorem Follows.source_post (h : r.Follows s posted taken) (t : Trb) :
    (s.post r t).1.index = (posted.length + 1) % r.trbs.size ∧
      (s.post r t).1.cycle = Ring.lapCycle ((posted.length + 1) / r.trbs.size) := by
  rw [EventSource.post, h.source_index_eq, h.source_cycle_eq]
  rcases Ring.succ_place h.size_pos posted.length with ⟨hend, hmod, hdiv⟩ | ⟨hend, hmod, hdiv⟩
  · simp [hend, hmod, hdiv]
  · rw [if_neg hend, hmod, hdiv]
    exact ⟨rfl, rfl⟩

/-- The event goes where no other event of the current turn is. -/
theorem Follows.trbAt_post (h : r.Follows s posted taken)
    (hroom : posted.length < taken + r.trbs.size) (t : Trb) {k : Nat} (hle : taken ≤ k)
    (hk : k < taken + r.trbs.size) :
    (r.store s.index (t.withCycle s.cycle)).trbAt (k % r.trbs.size) =
      if k = posted.length then t.withCycle s.cycle else r.trbAt (k % r.trbs.size) := by
  have hindex : s.index < r.trbs.size := by
    rw [h.source_index_eq]
    exact Nat.mod_lt _ h.size_pos
  have hahead := h.taken_le
  rw [trbAt_store hindex, h.source_index_eq]
  rcases Nat.lt_trichotomy k posted.length with hlt | rfl | hgt
  · rw [if_neg (Ring.place_ne hlt (by omega)).symm, if_neg (Nat.ne_of_lt hlt)]
  · rw [if_pos rfl, if_pos rfl]
  · rw [if_neg (Ring.place_ne hgt (by omega)), if_neg (Nat.ne_of_gt hgt)]

theorem Follows.post (h : r.Follows s posted taken) (hroom : posted.length < taken + r.trbs.size)
    (t : Trb) : (s.post r t).2.Follows (s.post r t).1 (posted ++ [t]) taken := by
  have hahead := h.taken_le
  obtain ⟨hindex, hcycle⟩ := h.source_post t
  have hlength : (posted ++ [t]).length = posted.length + 1 := by simp
  have hsize : (r.store s.index (t.withCycle s.cycle)).trbs.size = r.trbs.size := size_store r _ _
  rw [snd_post]
  constructor
  case size_pos => rw [hsize]; exact h.size_pos
  case taken_le => rw [hlength]; exact Nat.le_succ_of_le hahead
  case ahead_le => rw [hlength, hsize]; exact hroom
  case dequeueIndex_eq => rw [hsize]; exact h.dequeueIndex_eq
  case cycle_eq => rw [hsize]; exact h.cycle_eq
  case source_index_eq => rw [hlength, hsize]; exact hindex
  case source_cycle_eq => rw [hlength, hsize]; exact hcycle
  case fresh =>
    intro k u hle hu
    rw [hsize]
    rcases Ring.getElem?_concat_cases hu with hold | ⟨rfl, rfl⟩
    · have hlt := (List.getElem?_eq_some_iff.1 hold).1
      rw [h.trbAt_post hroom t hle (by omega), if_neg (Nat.ne_of_lt hlt)]
      exact h.fresh k u hle hold
    · rw [h.trbAt_post hroom u hle hroom, if_pos rfl, h.source_cycle_eq]
  case stale =>
    intro k hle hk
    rw [hlength] at hle
    rw [hsize] at hk ⊢
    rw [h.trbAt_post hroom t (by omega) hk, if_neg (by omega)]
    exact h.stale k (by omega) hk

/-! ### Taking off -/

/-- The reader finds the oldest event that has not been taken, and nothing if there is none. -/
theorem Follows.peek?_eq (h : r.Follows s posted taken) :
    r.peek? = posted[taken]?.map (·.withCycle (Ring.lapCycle (taken / r.trbs.size))) := by
  have hn := h.size_pos
  rw [peek?, h.dequeueIndex_eq, h.cycle_eq]
  rcases Nat.lt_or_eq_of_le h.taken_le with hlt | heq
  · have hget := List.getElem?_eq_getElem hlt
    simp [h.fresh taken _ (Nat.le_refl _) hget, hget]
  · have hstale := h.stale taken (Nat.le_of_eq heq.symm) (by omega)
    rw [List.getElem?_eq_none (Nat.le_of_eq heq.symm), if_neg]
    · rfl
    · rw [hstale]
      simp

theorem advance_frame (r : EventRing) :
    r.advance.base = r.base ∧ r.advance.trbs = r.trbs := by
  rw [advance]
  split <;> exact ⟨rfl, rfl⟩

/-- The reader goes on to the next place, and to the next lap behind the last one. -/
theorem Follows.reader_advance (h : r.Follows s posted taken) :
    r.advance.dequeueIndex = (taken + 1) % r.trbs.size ∧
      r.advance.cycle = Ring.lapCycle ((taken + 1) / r.trbs.size) := by
  rw [EventRing.advance, h.dequeueIndex_eq]
  rcases Ring.succ_place h.size_pos taken with ⟨hend, hmod, hdiv⟩ | ⟨hend, hmod, hdiv⟩
  · rw [if_pos hend, hmod, hdiv, Ring.lapCycle_succ, ← h.cycle_eq]
    exact ⟨rfl, rfl⟩
  · rw [if_neg hend, hmod, hdiv]
    exact ⟨rfl, h.cycle_eq⟩

theorem Follows.advance (h : r.Follows s posted taken) (hsome : taken < posted.length) :
    r.advance.Follows s posted (taken + 1) := by
  have hn := h.size_pos
  have hahead := h.ahead_le
  obtain ⟨-, htrbs⟩ := r.advance_frame
  obtain ⟨hindex, hcycle⟩ := h.reader_advance
  have htrbAt : ∀ i, r.advance.trbAt i = r.trbAt i := fun i => by rw [trbAt, htrbs, trbAt]
  constructor
  case size_pos => rwa [htrbs]
  case taken_le => exact hsome
  case ahead_le => rw [htrbs]; omega
  case dequeueIndex_eq => rwa [htrbs]
  case cycle_eq => rwa [htrbs]
  case source_index_eq => rw [htrbs]; exact h.source_index_eq
  case source_cycle_eq => rw [htrbs]; exact h.source_cycle_eq
  case fresh =>
    intro k t hle ht
    rw [htrbs, htrbAt]
    exact h.fresh k t (by omega) ht
  case stale =>
    intro k hle hk
    rw [htrbs] at hk ⊢
    rw [htrbAt]
    rcases Nat.lt_or_ge k (taken + r.trbs.size) with hlt | hge
    · exact h.stale k hle hlt
    · -- The place of the event just taken is free for the next lap.
      obtain rfl : k = taken + r.trbs.size := by omega
      have hfresh := h.fresh taken _ (Nat.le_refl _) (List.getElem?_eq_getElem hsome)
      simp [Nat.add_div_right _ hn, hfresh]

/-- Taking an event off tells where the next one will be. -/
theorem Follows.consume_eq (h : r.Follows s posted taken) (hfits : Ring.Fits r.base r.trbs.size) :
    r.consume = .ok
      (r.base + UInt64.ofNat ((taken + 1) % r.trbs.size * Trb.byteSize), r.advance) := by
  have hlt := Nat.mod_lt (taken + 1) h.size_pos
  have hoffset : r.base.toNat + (taken + 1) % r.trbs.size * Trb.byteSize < UInt64.size := by
    unfold Ring.Fits at hfits
    simp only [Trb.byteSize] at hfits ⊢
    omega
  have haddress : r.advance.address r.advance.dequeueIndex =
      .ok (r.base + UInt64.ofNat ((taken + 1) % r.trbs.size * Trb.byteSize)) := by
    rw [address, Ring.address, Dma.busOffset, r.advance_frame.1, h.reader_advance.1,
      if_pos hoffset]
  rw [consume, haddress]
  rfl

end EventRing

end UsbHost
