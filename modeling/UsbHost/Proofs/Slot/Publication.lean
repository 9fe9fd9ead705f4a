import UsbHost.Proofs.Slot.Binding

/-!
The array that the controller reads, against the table of devices. Slot `n` has place `n - 1` in the
table and entry `n` in the array; entry 0 belongs to no slot and holds the scratchpad pointer. Every
operation that writes the one writes the other, so the array shows where the contexts of the devices
in the table lie, and nothing else.
-/

namespace UsbHost.SlotTable

variable {t : SlotTable} {slot : UInt8} {i : Nat} {context? : DeviceRef → Option UInt64}
  {pointer : UInt64}

/-! ### Places and entries -/

theorem index_ofNat {n : Nat} (hpos : 0 < n) (hle : n ≤ t.maxSlots.toNat) :
    t.index (.ofNat n) = .ok (n - 1) := by
  have hsmall : n < UInt8.size := Nat.lt_of_le_of_lt hle t.maxSlots.toNat_lt_size
  have hn : (UInt8.ofNat n).toNat = n := UInt8.toNat_ofNat_of_lt' hsmall
  refine index_eq_ok.2 ⟨fun hzero => ?_, ?_, by rw [hn]⟩
  · rw [hzero, UInt8.toNat_zero] at hn
    exact Nat.ne_of_gt hpos hn.symm
  · rw [UInt8.lt_iff_toNat_lt, hn]
    exact Nat.not_lt.2 hle

theorem contextAt_eq {address : UInt64} (h : t.contexts[slot.toNat]? = some address) :
    t.contextAt slot = .ok address := by
  obtain ⟨hlt, hget⟩ := Array.getElem?_eq_some_iff.1 h
  rw [contextAt, dif_pos hlt, hget]

/-- The table lists the devices in slots 1, 2 and so on. -/
theorem toList_devices (h : t.devices.size = t.maxSlots.toNat) :
    t.devices.toList = (List.range' 1 t.maxSlots.toNat).map fun n => t.device? (.ofNat n) := by
  apply List.ext_getElem?
  intro i
  rw [Array.getElem?_toList, List.getElem?_map]
  by_cases hi : i < t.maxSlots.toNat
  · have hplace : t.index (.ofNat (1 + i)) = .ok i := by
      rw [index_ofNat (by omega) (by omega), Nat.add_sub_cancel_left]
    rw [List.getElem?_range' hi, Nat.one_mul, Option.map_some, device?_of_index hplace,
      Array.getElem?_eq_getElem (h ▸ hi)]
    rfl
  · rw [Array.getElem?_eq_none (h ▸ Nat.not_lt.1 hi), List.getElem?_eq_none]
    · rfl
    · rw [List.length_range']
      exact Nat.not_lt.1 hi

/-! ### What the array shows -/

/-- What the controller reads for a slot: where the context of its device lies, or 0. -/
inductive Shows (context? : DeviceRef → Option UInt64) : Option DeviceRef → UInt64 → Prop
  | vacant : Shows context? none 0
  | bound {d : DeviceRef} {address : UInt64} (h : context? d = some address) :
      Shows context? (some d) address

/-- What is shown stays right as long as contexts stay where they are. -/
theorem Shows.mono {context?' : DeviceRef → Option UInt64} {occupant : Option DeviceRef}
    {address : UInt64} (h : Shows context? occupant address)
    (hstays : ∀ d address, context? d = some address → context?' d = some address) :
    Shows context?' occupant address := by
  cases h with
  | vacant => exact .vacant
  | bound hcontext => exact .bound (hstays _ _ hcontext)

/-- The array shows the devices in the table. The context of a device lies where `context?` says,
and `pointer` is the scratchpad pointer. -/
structure Publishes (t : SlotTable) (context? : DeviceRef → Option UInt64) (pointer : UInt64) :
    Prop where
  size_eq : t.devices.size = t.maxSlots.toNat
  scratchpad : t.contexts[0]? = some pointer
  entry : ∀ i < t.maxSlots.toNat, ∃ address, t.contexts[i + 1]? = some address ∧
    Shows context? t.devices[i]?.join address

theorem publishes_empty (maxSlots : UInt8) (context? : DeviceRef → Option UInt64) :
    (empty maxSlots).Publishes context? 0 := by
  refine ⟨Array.size_replicate, ?_, fun i hi => ⟨0, ?_, ?_⟩⟩
  · rw [empty, Array.getElem?_replicate, if_pos (Nat.succ_pos _)]
  · rw [empty, Array.getElem?_replicate]
    exact if_pos (Nat.succ_lt_succ hi)
  · rw [empty, Array.getElem?_replicate]
    split <;> exact .vacant

namespace Publishes

/-- A device and where its context lies are written together. -/
theorem put (h : t.Publishes context? pointer) (hi : t.index slot = .ok i)
    {occupant : Option DeviceRef} {address : UInt64} (hshows : Shows context? occupant address) :
    (t.put slot i occupant address).Publishes context? pointer := by
  obtain ⟨hslot, hlt⟩ := toNat_of_index hi
  constructor
  case size_eq => simp [h.size_eq]
  case scratchpad => rw [contexts_put_of_ne (by omega), h.scratchpad]
  case entry =>
    intro j hj
    by_cases hij : j = i
    · subst hij
      obtain ⟨_, hbefore, -⟩ := h.entry j hj
      obtain ⟨hin, -⟩ := Array.getElem?_eq_some_iff.1 hbefore
      refine ⟨address, ?_, ?_⟩
      · rw [← hslot, contexts_put, hslot, if_pos hin]
      · rw [devices_put, if_pos (h.size_eq ▸ hlt)]
        exact hshows
    · obtain ⟨address', hcontext, hdevice⟩ := h.entry j hj
      refine ⟨address', ?_, ?_⟩
      · rw [contexts_put_of_ne (by omega), hcontext]
      · simpa [hij] using hdevice

theorem setScratchpad (h : t.Publishes context? pointer) (pointer' : UInt64) :
    (t.setScratchpad pointer').Publishes context? pointer' := by
  obtain ⟨hin, -⟩ := Array.getElem?_eq_some_iff.1 h.scratchpad
  refine ⟨h.size_eq, ?_, fun i hi => ?_⟩
  · rw [SlotTable.setScratchpad, Array.getElem?_setIfInBounds_self_of_lt hin]
  · rw [SlotTable.setScratchpad, Array.getElem?_setIfInBounds_ne (Nat.succ_ne_zero i).symm]
    exact h.entry i hi

theorem mono (h : t.Publishes context? pointer) {context?' : DeviceRef → Option UInt64}
    (hstays : ∀ d address, context? d = some address → context?' d = some address) :
    t.Publishes context?' pointer := by
  refine ⟨h.size_eq, h.scratchpad, fun i hi => ?_⟩
  obtain ⟨address, hcontext, hshows⟩ := h.entry i hi
  exact ⟨address, hcontext, hshows.mono hstays⟩

/-- The entry of a slot shows the device in it. -/
theorem contextAt (h : t.Publishes context? pointer) (hi : t.index slot = .ok i) :
    ∃ address, t.contextAt slot = .ok address ∧ Shows context? (t.device? slot) address := by
  obtain ⟨hslot, hlt⟩ := toNat_of_index hi
  obtain ⟨address, hcontext, hshows⟩ := h.entry i hlt
  rw [← hslot] at hcontext
  rw [device?_of_index hi]
  exact ⟨address, contextAt_eq hcontext, hshows⟩

theorem assigned_eq (h : t.Publishes context? pointer) :
    t.assigned =
      (List.range' 1 t.maxSlots.toNat).countP fun n => (t.device? (.ofNat n)).isSome := by
  rw [assigned, toList_devices h.size_eq, List.countP_map]
  rfl

end Publishes

end UsbHost.SlotTable
