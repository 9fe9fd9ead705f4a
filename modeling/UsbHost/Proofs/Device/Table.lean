import UsbHost.Device.Basic

/-!
The endpoint table of a device, as a map from endpoint IDs to endpoints. Registering writes one
entry, whatever was there; shutting down empties the table.
-/

namespace UsbHost.Device

variable {d d' : Device} {id id' : UInt8} {r : EndpointRef}

theorem endpoint?_eq_some :
    d.endpoint? id = some r ↔ id ≠ 0 ∧ d.endpoints[id.toNat - 1]? = some (some r) := by
  rw [endpoint?]
  split
  · rename_i h
    exact ⟨nofun, fun hr => absurd h hr.1⟩
  · rename_i h
    rw [Option.join_eq_some_iff]
    exact ⟨fun hr => ⟨h, hr⟩, And.right⟩

/-- The registered endpoints are those that the table names. -/
theorem mem_registered_iff : r ∈ d.registered ↔ ∃ id, d.endpoint? id = some r := by
  have hmem : r ∈ d.registered ↔ ∃ i : Nat, d.endpoints[i]? = some (some r) := by
    rw [registered, List.mem_filterMap]
    constructor
    · rintro ⟨_, hr, rfl⟩
      obtain ⟨i, hi⟩ := List.mem_iff_getElem?.1 hr
      exact ⟨i, by rwa [Vector.getElem?_toList] at hi⟩
    · rintro ⟨i, hi⟩
      exact ⟨some r, List.mem_iff_getElem?.2 ⟨i, by rwa [Vector.getElem?_toList]⟩, rfl⟩
  rw [hmem]
  constructor
  · rintro ⟨i, hi⟩
    have hlt : i < Context.maxEndpoints := (Vector.getElem?_eq_some_iff.1 hi).1
    have hsmall : i + 1 < UInt8.size := Nat.lt_of_le_of_lt hlt (by decide)
    refine ⟨UInt8.ofNat (i + 1), endpoint?_eq_some.2 ⟨fun hzero => ?_, ?_⟩⟩
    · have := congrArg UInt8.toNat hzero
      rw [UInt8.toNat_ofNat_of_lt' hsmall] at this
      exact Nat.succ_ne_zero i this
    · rwa [UInt8.toNat_ofNat_of_lt' hsmall, Nat.add_sub_cancel]
  · rintro ⟨id, hid⟩
    exact ⟨_, (endpoint?_eq_some.1 hid).2⟩

/-! ### Changes -/

theorem owner_of_register (h : d.register id r = .ok d') : d'.owner = d.owner := by
  unfold register at h
  split at h
  · cases h
    rfl
  · cases h

theorem endpoint?_register (h : d.register id r = .ok d') :
    d'.endpoint? id' = if id' = id then some r else d.endpoint? id' := by
  unfold register at h
  split at h
  case isFalse => cases h
  case isTrue hid =>
    cases h
    have hzero : id ≠ 0 := by
      rintro rfl
      exact absurd hid.1 (by decide)
    split
    · rename_i heq
      subst heq
      rw [endpoint?, if_neg hzero]
      simp
    · rename_i hne
      by_cases hzero' : id' = 0
      · rw [endpoint?, if_pos hzero', endpoint?, if_pos hzero']
      · -- Different IDs, none of them 0, have different places.
        have hplace : id.toNat - 1 ≠ id'.toNat - 1 := by
          have hpos : id'.toNat ≠ 0 := fun heq => hzero' (UInt8.toNat_inj.1 heq)
          have hdiff : id'.toNat ≠ id.toNat := fun heq => hne (UInt8.toNat_inj.1 heq)
          omega
        rw [endpoint?, if_neg hzero', endpoint?, if_neg hzero', Vector.getElem?_set_ne _ hplace]

theorem endpoint?_of_empty (h : d.endpoints = .replicate Context.maxEndpoints none)
    (id : UInt8) : d.endpoint? id = none := by
  cases hid : d.endpoint? id with
  | none => rfl
  | some r =>
    obtain ⟨-, hr⟩ := endpoint?_eq_some.1 hid
    rw [h, Vector.getElem?_replicate] at hr
    split at hr <;> cases hr

/-- In a table that was empty only what has been registered is found. -/
theorem eq_of_register_of_empty (hempty : d.endpoints = .replicate Context.maxEndpoints none)
    (h : d.register id r = .ok d') {r' : EndpointRef} (hr : d'.endpoint? id' = some r') :
    id' = id ∧ r' = r := by
  rw [endpoint?_register h] at hr
  split at hr
  · rename_i heq
    exact ⟨heq, (Option.some.inj hr).symm⟩
  · rw [endpoint?_of_empty hempty] at hr
    cases hr

end UsbHost.Device
