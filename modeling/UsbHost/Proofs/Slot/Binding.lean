import UsbHost.Proofs.Attempt
import UsbHost.Slot.Table

/-!
Bindings of slots. Binding a device to a slot and unbinding it concern this slot and no other, both
in the table and in the array that the controller reads.
-/

namespace UsbHost.SlotTable

variable {t t' : SlotTable} {slot slot' : UInt8} {i i' : Nat}

theorem index_eq_ok :
    t.index slot = .ok i ↔ slot ≠ 0 ∧ ¬ t.maxSlots < slot ∧ i = slot.toNat - 1 := by
  unfold index
  split
  · rename_i h
    constructor
    · exact nofun
    · rintro ⟨hzero, hmax, -⟩
      exact absurd h (not_or.2 ⟨hzero, hmax⟩)
  · rename_i h
    obtain ⟨hzero, hmax⟩ := not_or.1 h
    constructor
    · rintro ⟨⟩
      exact ⟨hzero, hmax, rfl⟩
    · rintro ⟨-, -, rfl⟩
      rfl

/-- The place of a slot is one before its entry. -/
theorem toNat_of_index (h : t.index slot = .ok i) : slot.toNat = i + 1 ∧ i < t.maxSlots.toNat := by
  obtain ⟨hzero, hmax, rfl⟩ := index_eq_ok.1 h
  rw [ne_eq, ← UInt8.toNat_inj, UInt8.toNat_zero] at hzero
  rw [UInt8.lt_iff_toNat_lt] at hmax
  omega

/-- Different slots have different places. -/
theorem index_ne (h : t.index slot = .ok i) (h' : t.index slot' = .ok i') (hne : slot' ≠ slot) :
    i ≠ i' := by
  have hslot := (toNat_of_index h).1
  have hslot' := (toNat_of_index h').1
  intro heq
  exact hne (UInt8.toNat_inj.1 (by omega))

theorem device?_of_index (h : t.index slot = .ok i) : t.device? slot = t.devices[i]?.join := by
  unfold device?
  rw [h]

/-- A slot with a device has a place. -/
theorem index_of_device? {d : DeviceRef} (h : t.device? slot = some d) :
    ∃ i, t.index slot = .ok i := by
  cases hi : t.index slot with
  | error error =>
    rw [device?, hi] at h
    cases h
  | ok i => exact ⟨i, rfl⟩

/-! ### Writing one slot -/

/-- The table with another device and another context address in one slot. -/
def put (t : SlotTable) (slot : UInt8) (i : Nat) (device : Option DeviceRef) (context : UInt64) :
    SlotTable :=
  { t with
    devices := t.devices.setIfInBounds i device
    contexts := t.contexts.setIfInBounds slot.toNat context }

section Reading

variable (t : SlotTable) (slot : UInt8) (i : Nat) (device : Option DeviceRef) (context : UInt64)

@[simp] theorem maxSlots_put : (t.put slot i device context).maxSlots = t.maxSlots := rfl

@[simp] theorem index_put : (t.put slot i device context).index slot' = t.index slot' := rfl

@[simp] theorem size_devices_put :
    (t.put slot i device context).devices.size = t.devices.size :=
  Array.size_setIfInBounds

theorem devices_put : (t.put slot i device context).devices[i]? =
    if i < t.devices.size then some device else none :=
  Array.getElem?_setIfInBounds_self

theorem contexts_put : (t.put slot i device context).contexts[slot.toNat]? =
    if slot.toNat < t.contexts.size then some context else none :=
  Array.getElem?_setIfInBounds_self

variable {t slot i device context} {j : Nat}

@[simp] theorem devices_put_of_ne (h : j ≠ i) :
    (t.put slot i device context).devices[j]? = t.devices[j]? :=
  Array.getElem?_setIfInBounds_ne h.symm

@[simp] theorem contexts_put_of_ne (h : j ≠ slot.toNat) :
    (t.put slot i device context).contexts[j]? = t.contexts[j]? :=
  Array.getElem?_setIfInBounds_ne h.symm

end Reading

/-- Two tables differ at most in one slot. -/
structure AgreesOff (slot : UInt8) (t t' : SlotTable) : Prop where
  device?_eq : ∀ slot' ≠ slot, t'.device? slot' = t.device? slot'
  contexts_eq : ∀ i ≠ slot.toNat, t'.contexts[i]? = t.contexts[i]?

theorem agreesOff_put (h : t.index slot = .ok i) (device : Option DeviceRef) (context : UInt64) :
    t.AgreesOff slot (t.put slot i device context) := by
  constructor
  · intro slot' hne
    cases hi : t.index slot' with
    | error error => simp [device?, hi]
    | ok i' => simp [device?, hi, (index_ne h hi hne).symm]
  · intro j hj
    exact contexts_put_of_ne hj

theorem device?_put (h : t.index slot = .ok i) (device : Option DeviceRef) (context : UInt64) :
    (t.put slot i device context).device? slot = if i < t.devices.size then device else none := by
  rw [device?_of_index (by simpa using h), devices_put]
  split <;> rfl

/-! ### Binding and unbinding -/

theorem free_refused {error : Error} (h : t.index slot = .error error) :
    t.free slot = .error error := by
  rw [free, h]
  rfl

theorem free_eq (h : t.index slot = .ok i) :
    t.free slot = .ok (t.device? slot, t.put slot i none 0) := by
  rw [free, h]
  rfl

theorem free_cases {d : Option DeviceRef} (h : t.free slot = .ok (d, t')) :
    d = t.device? slot ∧ t'.device? slot = none ∧ t.AgreesOff slot t' := by
  cases hi : t.index slot with
  | error error => cases (free_refused hi).symm.trans h
  | ok i =>
    cases (free_eq hi).symm.trans h
    refine ⟨rfl, ?_, agreesOff_put hi none 0⟩
    rw [device?_put hi]
    split <;> rfl

/-- There is no device in a slot that cannot be freed. -/
theorem device?_of_free_error {error : Error} (h : t.free slot = .error error) :
    t.device? slot = none := by
  cases hi : t.index slot with
  | error error' => rw [device?, hi]
  | ok i => cases (free_eq hi).symm.trans h

theorem AgreesOff.refl (slot : UInt8) (t : SlotTable) : t.AgreesOff slot t :=
  ⟨fun _ _ => rfl, fun _ _ => rfl⟩

theorem AgreesOff.trans {t'' : SlotTable} (h : t.AgreesOff slot t') (h' : t'.AgreesOff slot t'') :
    t.AgreesOff slot t'' :=
  ⟨fun s hs => (h'.device?_eq s hs).trans (h.device?_eq s hs),
    fun i hi => (h'.contexts_eq i hi).trans (h.contexts_eq i hi)⟩

/-- A slot with a device can be freed. -/
theorem free_of_device? {d : DeviceRef} (h : t.device? slot = some d) :
    ∃ t', t.free slot = .ok (some d, t') := by
  obtain ⟨i, hi⟩ := index_of_device? h
  exact ⟨t.put slot i none 0, by rw [free_eq hi, h]⟩

theorem assign_eq (h : t.index slot = .ok i) (d : DeviceRef) (context : UInt64) :
    t.assign slot d context = match t.device? slot with
      | some _ => .error (.slotOccupied slot)
      | none => .ok (t.put slot i (some d) context) := by
  rw [assign, h]
  cases t.device? slot with
  | some d' => rfl
  | none => rfl

/-- A device may have come into a slot that was free; nothing else has changed. -/
structure Admits (slot : UInt8) (d : DeviceRef) (t t' : SlotTable) : Prop where
  free : t.device? slot = none
  only : ∀ d', t'.device? slot = some d' → d' = d
  agreesOff : t.AgreesOff slot t'

theorem admits_of_free (h : t.device? slot = none) (d : DeviceRef) : t.Admits slot d t := by
  refine ⟨h, fun d' hd' => ?_, .refl slot t⟩
  rw [h] at hd'
  cases hd'

theorem admits_of_assign {d : DeviceRef} {context : UInt64} (h : t.assign slot d context = .ok t') :
    t.Admits slot d t' := by
  cases hi : t.index slot with
  | error error =>
    rw [assign, hi] at h
    cases h
  | ok i =>
    rw [assign_eq hi] at h
    cases hd : t.device? slot with
    | some d' =>
      rw [hd] at h
      cases h
    | none =>
      rw [hd] at h
      cases h
      refine ⟨hd, fun d' hd' => ?_, agreesOff_put hi (some d) context⟩
      rw [device?_put hi] at hd'
      split at hd'
      · exact (Option.some.inj hd').symm
      · cases hd'

/-- Unless the slot is occupied, there is no device in a slot that is refused. -/
theorem device?_of_refused {d : DeviceRef} {context : UInt64} {error : Error}
    (h : t.assign slot d context = .error error) (hne : error ≠ .slotOccupied slot) :
    t.device? slot = none := by
  cases hi : t.index slot with
  | error error' => rw [device?, hi]
  | ok i =>
    rw [assign_eq hi] at h
    cases hd : t.device? slot with
    | some d' =>
      rw [hd] at h
      cases h
      exact absurd rfl hne
    | none => rfl

/-! ### A place for every slot -/

/-- Every slot has its place in the table. -/
def Placed (t : SlotTable) : Prop := t.devices.size = t.maxSlots.toNat

/-- Binding a device to a slot puts it there. -/
theorem assign_cases {d : DeviceRef} {context : UInt64} (ht : t.Placed)
    (h : t.assign slot d context = .ok t') : t'.Placed ∧ t'.device? slot = some d := by
  cases hi : t.index slot with
  | error error =>
    rw [assign, hi] at h
    cases h
  | ok i =>
    have hlt := (toNat_of_index hi).2
    rw [assign_eq hi] at h
    split at h
    · cases h
    · cases h
      refine ⟨by simpa [Placed] using ht, ?_⟩
      rw [device?_put hi, ht, if_pos hlt]

theorem placed_of_free {occupant : Option DeviceRef} (ht : t.Placed)
    (h : t.free slot = .ok (occupant, t')) : t'.Placed := by
  cases hi : t.index slot with
  | error error => cases (free_refused hi).symm.trans h
  | ok i =>
    cases (free_eq hi).symm.trans h
    simpa [Placed] using ht

end UsbHost.SlotTable
