import UsbHost.Proofs.Endpoint.Closing
import UsbHost.Proofs.Host.Administration
import UsbHost.Proofs.Host.Detach

/-!
The tables of a host over time. A slot names a device and a device names its endpoints, and what
they name is there. Devices and endpoints never go away; a device that has left its slot does not
come back into one, and as long as it is in its slot, an entry of its endpoint table is only ever
replaced by an endpoint that is made later.
-/

namespace UsbHost

variable {σ ρ α : Type} {m : AddressMap σ} {managing : Bool}

namespace World

/-- What the tables name is there: the device in a slot is one of this slot, and an endpoint under
an ID has this ID and the owner of the device. -/
structure Housed (w : World σ ρ) : Prop where
  device : ∀ slot d, w.controller.slots.device? slot = some d →
    ∃ device, w.devices[d.index]? = some device ∧ device.owner.slot = slot
  endpoint : ∀ (d : DeviceRef) device id r, w.devices[d.index]? = some device →
    device.endpoint? id = some r →
      ∃ e, w.endpoints[r.index]? = some e ∧ e.owner = device.owner ∧ e.id = id

/-- The table of a device that is still in its slot names under each ID the same endpoint as before,
or one that has been made since. -/
def KeepsTable (d : DeviceRef) (w w' : World σ ρ) : Prop :=
  ∀ device id r, w.devices[d.index]? = some device → device.endpoint? id = some r →
    ∃ device' r', w'.devices[d.index]? = some device' ∧ device'.endpoint? id = some r' ∧
      (r' = r ∨ w.endpoints.size ≤ r'.index)

/-- What has become of the devices and endpoints of a host. -/
structure Evolves (w w' : World σ ρ) : Prop where
  devices_le : w.devices.size ≤ w'.devices.size
  endpoints_le : w.endpoints.size ≤ w'.endpoints.size
  device : ∀ (d : DeviceRef) device, w.devices[d.index]? = some device →
    ∃ device', w'.devices[d.index]? = some device' ∧ device'.owner = device.owner
  endpoint : ∀ (r : EndpointRef) e, w.endpoints[r.index]? = some e →
    ∃ e', w'.endpoints[r.index]? = some e' ∧ e.Follows e'
  /-- Only new devices come into slots. -/
  bound : ∀ slot d, w'.controller.slots.device? slot = some d →
    w.controller.slots.device? slot = some d ∨ w.devices.size ≤ d.index
  table : ∀ slot d, w'.controller.slots.device? slot = some d → w.KeepsTable d w'

variable {w w' w'' : World σ ρ}

theorem Evolves.trans (h : w.Evolves w') (h' : w'.Evolves w'') : w.Evolves w'' := by
  constructor
  case devices_le => exact Nat.le_trans h.devices_le h'.devices_le
  case endpoints_le => exact Nat.le_trans h.endpoints_le h'.endpoints_le
  case device =>
    intro d device hd
    obtain ⟨device₁, hd₁, howner₁⟩ := h.device d device hd
    obtain ⟨device₂, hd₂, howner₂⟩ := h'.device d device₁ hd₁
    exact ⟨device₂, hd₂, howner₂.trans howner₁⟩
  case endpoint =>
    intro r e hr
    obtain ⟨e₁, hr₁, hfollows₁⟩ := h.endpoint r e hr
    obtain ⟨e₂, hr₂, hfollows₂⟩ := h'.endpoint r e₁ hr₁
    exact ⟨e₂, hr₂, hfollows₁.trans hfollows₂⟩
  case bound =>
    intro slot d hbound
    rcases h'.bound slot d hbound with hbound₁ | hnew
    · exact h.bound slot d hbound₁
    · exact .inr (Nat.le_trans h.devices_le hnew)
  case table =>
    intro slot d hbound device id r hd hr
    -- The device is an old one, so it has been in the slot in between as well.
    have hbound₁ : w'.controller.slots.device? slot = some d := by
      refine (h'.bound slot d hbound).resolve_right fun hnew => ?_
      exact absurd (Nat.le_trans h.devices_le hnew)
        (Nat.not_le.2 (Array.getElem?_eq_some_iff.1 hd).1)
    obtain ⟨device₁, r₁, hd₁, hr₁, hsame₁⟩ := h.table slot d hbound₁ device id r hd hr
    obtain ⟨device₂, r₂, hd₂, hr₂, hsame₂⟩ := h'.table slot d hbound device₁ id r₁ hd₁ hr₁
    refine ⟨device₂, r₂, hd₂, hr₂, ?_⟩
    rcases hsame₂ with rfl | hnew
    · exact hsame₁
    · exact .inr (Nat.le_trans h.endpoints_le hnew)

/-- What is in the tables stays in order, and evolves. -/
def Follows (w w' : World σ ρ) : Prop := w.Housed → w'.Housed ∧ w.Evolves w'

theorem Follows.trans (h : w.Follows w') (h' : w'.Follows w'') : w.Follows w'' := by
  intro hw
  obtain ⟨hw', hevolves⟩ := h hw
  obtain ⟨hw'', hevolves'⟩ := h' hw'
  exact ⟨hw'', hevolves.trans hevolves'⟩

theorem KeepsTable.of_eq {d : DeviceRef}
    (h : ∀ device, w.devices[d.index]? = some device → ∃ device',
      w'.devices[d.index]? = some device' ∧ device'.endpoints = device.endpoints) :
    w.KeepsTable d w' := by
  intro device id r hd hr
  obtain ⟨device', hd', htable⟩ := h device hd
  refine ⟨device', r, hd', ?_, .inl rfl⟩
  rwa [Device.endpoint?, htable]

/-- Nothing happens but to endpoints. -/
theorem follows_of_endpoints (hslots : w'.controller.slots = w.controller.slots)
    (hdevices : w'.devices = w.devices) (hsize : w.endpoints.size ≤ w'.endpoints.size)
    (hendpoints : ∀ (r : EndpointRef) e, w.endpoints[r.index]? = some e →
      ∃ e', w'.endpoints[r.index]? = some e' ∧ e.Follows e') : w.Follows w' := by
  refine fun hw => ⟨⟨?_, ?_⟩, ?_⟩
  · rw [hslots, hdevices]
    exact hw.device
  · intro d device id r hd hr
    rw [hdevices] at hd
    obtain ⟨e, he, howner, hid⟩ := hw.endpoint d device id r hd hr
    obtain ⟨e', he', hfollows⟩ := hendpoints r e he
    refine ⟨e', he', hfollows.owner_eq.trans howner, ?_⟩
    rw [← hid, Endpoint.id, hfollows.traits_eq, Endpoint.id]
  · refine ⟨Nat.le_of_eq (by rw [hdevices]), hsize, fun d device hd => ⟨device, ?_, rfl⟩,
      hendpoints, fun slot d hbound => .inl ?_, fun slot d _ => .of_eq fun device hd => ?_⟩
    · rwa [hdevices]
    · rwa [← hslots]
    · exact ⟨device, by rwa [hdevices], rfl⟩

theorem follows_of_eq (hslots : w'.controller.slots = w.controller.slots)
    (hdevices : w'.devices = w.devices) (hendpoints : w'.endpoints = w.endpoints) :
    w.Follows w' :=
  follows_of_endpoints hslots hdevices (Nat.le_of_eq (by rw [hendpoints])) fun r e he =>
    ⟨e, by rwa [hendpoints], .refl e⟩

theorem endpoints_put {r : EndpointRef} {e e' : Endpoint ρ} (hw : w.endpoints[r.index]? = some e)
    (hfollows : e.Follows e') (r' : EndpointRef) (e₁ : Endpoint ρ)
    (h : w.endpoints[r'.index]? = some e₁) :
    ∃ e₂, (w.put r e').endpoints[r'.index]? = some e₂ ∧ e₁.Follows e₂ := by
  by_cases hr : r'.index = r.index
  · rw [hr] at h ⊢
    obtain rfl : e₁ = e := Option.some.inj (h.symm.trans hw)
    exact ⟨e', by simp [hw], hfollows⟩
  · exact ⟨e₁, by simpa [hr] using h, .refl e₁⟩

theorem follows_put {r : EndpointRef} {e e' : Endpoint ρ} (hw : w.endpoints[r.index]? = some e)
    (hfollows : e.Follows e') : w.Follows (w.put r e') :=
  follows_of_endpoints rfl rfl (by simp) (endpoints_put hw hfollows)

theorem endpoints_addEndpoint (w : World σ ρ) (e : Endpoint ρ) (r : EndpointRef)
    (e₁ : Endpoint ρ) (h : w.endpoints[r.index]? = some e₁) :
    ∃ e₂, (w.addEndpoint e).endpoints[r.index]? = some e₂ ∧ e₁.Follows e₂ :=
  ⟨_, endpoint_addEndpoint_of_some h, .refl _⟩

theorem follows_addEndpoint (w : World σ ρ) (e : Endpoint ρ) : w.Follows (w.addEndpoint e) :=
  follows_of_endpoints rfl rfl (by simp) (w.endpoints_addEndpoint e)

theorem follows_writeContext (w : World σ ρ) (d : DeviceRef)
    (f : Context.Device → Context.Device) : w.Follows (w.writeContext d f) := by
  have hlook : ∀ i : Nat, (w.writeContext d f).devices[i]? = w.devices[i]?.map fun device =>
      if d.index = i then { device with context := f device.context } else device := by
    intro i
    rw [writeContext, Array.getElem?_modify]
    split
    · rfl
    · exact Option.map_id'.symm
  have hdevice : ∀ (i : Nat) device, w.devices[i]? = some device → ∃ device',
      (w.writeContext d f).devices[i]? = some device' ∧ device'.owner = device.owner ∧
        device'.endpoints = device.endpoints := by
    intro i device hi
    refine ⟨_, by rw [hlook, hi]; rfl, ?_⟩
    split <;> exact ⟨rfl, rfl⟩
  refine fun hw => ⟨⟨fun slot d' hbound => ?_, fun d' device' id r hd' hr => ?_⟩, ?_⟩
  · obtain ⟨device, hd', hslot⟩ := hw.device slot d' hbound
    obtain ⟨device', hd', howner, -⟩ := hdevice _ device hd'
    exact ⟨device', hd', by rw [howner, hslot]⟩
  · rw [hlook] at hd'
    obtain ⟨device, hd, rfl⟩ := Option.map_eq_some_iff.1 hd'
    have hsame : ∀ device' : Device, (if d.index = d'.index then
        { device' with context := f device'.context } else device').owner = device'.owner ∧
        (if d.index = d'.index then
          { device' with context := f device'.context } else device').endpoint? id =
        device'.endpoint? id := by
      intro device'
      split <;> exact ⟨rfl, rfl⟩
    rw [(hsame device).2] at hr
    rw [(hsame device).1]
    exact hw.endpoint d' device id r hd hr
  · refine ⟨Nat.le_of_eq Array.size_modify.symm, Nat.le_refl _, fun d' device hd' => ?_,
      fun r e he => ⟨e, he, .refl e⟩, fun _ _ hbound => .inl hbound, fun _ d' _ => .of_eq ?_⟩
    · obtain ⟨device', hd', howner, -⟩ := hdevice _ device hd'
      exact ⟨device', hd', howner⟩
    · intro device hd'
      obtain ⟨device', hd', -, htable⟩ := hdevice _ device hd'
      exact ⟨device', hd', htable⟩

/-! ### New devices -/

section Gains

variable {ran : σ → List ρ} {device : Device} {e : Endpoint ρ}

theorem Gains.device_old (h : w.Gains ran device e w') {d : DeviceRef} {device₁ : Device}
    (hd : w.devices[d.index]? = some device₁) : w'.devices[d.index]? = some device₁ := by
  obtain ⟨hlt, rfl⟩ := Array.getElem?_eq_some_iff.1 hd
  rw [h.devices_eq]
  exact Array.getElem?_push_lt hlt

theorem Gains.device_new (h : w.Gains ran device e w') :
    w'.devices[w.devices.size]? = some device := by
  rw [h.devices_eq, Array.getElem?_push_size]

theorem Gains.device_cases (h : w.Gains ran device e w') {d : DeviceRef} {device₁ : Device}
    (hd : w'.devices[d.index]? = some device₁) :
    w.devices[d.index]? = some device₁ ∨ d.index = w.devices.size ∧ device₁ = device := by
  rw [h.devices_eq, Array.getElem?_push] at hd
  split at hd
  · rename_i heq
    exact .inr ⟨heq, (Option.some.inj hd).symm⟩
  · exact .inl hd

theorem Gains.endpoint_old (h : w.Gains ran device e w') (r : EndpointRef) (e₁ : Endpoint ρ)
    (hr : w.endpoints[r.index]? = some e₁) :
    ∃ e₂, w'.endpoints[r.index]? = some e₂ ∧ e₁.Follows e₂ := by
  rw [h.endpoints_eq]
  exact w.endpoints_addEndpoint e r e₁ hr

theorem Gains.endpoint_named (h : w.Gains ran device e w') (hw : w.Housed) (d : DeviceRef)
    (device₁ : Device) (id : UInt8) (r : EndpointRef) (hd : w'.devices[d.index]? = some device₁)
    (hr : device₁.endpoint? id = some r) :
    ∃ e, w'.endpoints[r.index]? = some e ∧ e.owner = device₁.owner ∧ e.id = id := by
  rcases h.device_cases hd with hd | ⟨-, rfl⟩
  · obtain ⟨e₁, hr₁, howner, hid⟩ := hw.endpoint d device₁ id r hd hr
    obtain ⟨e₂, hr₂, hfollows⟩ := h.endpoint_old r e₁ hr₁
    refine ⟨e₂, hr₂, hfollows.owner_eq.trans howner, ?_⟩
    rw [← hid, Endpoint.id, hfollows.traits_eq, Endpoint.id]
  · obtain ⟨rfl, rfl⟩ := h.endpoint?_eq id r hr
    obtain ⟨traits, config, ring, rfl⟩ := h.created
    refine ⟨_, ?_, rfl, rfl⟩
    rw [h.endpoints_eq, Array.getElem?_push_size]

/-- A new device is in no slot, or in the slot that it is made for. -/
theorem Gains.follows_setSlots (h : w.Gains ran device e w') {slots : SlotTable}
    (hslots : ∀ slot d, slots.device? slot = some d → w.controller.slots.device? slot = some d ∨
      slot = device.owner.slot ∧ d = ⟨w.devices.size⟩) : w.Follows (w'.setSlots slots) := by
  refine fun hw => ⟨⟨fun slot d hbound => ?_, h.endpoint_named hw⟩, ?_⟩
  · rcases hslots slot d hbound with hbound | ⟨rfl, rfl⟩
    · obtain ⟨device₁, hd, hslot⟩ := hw.device slot d hbound
      exact ⟨device₁, h.device_old hd, hslot⟩
    · exact ⟨device, h.device_new, rfl⟩
  · refine ⟨?_, ?_, fun d device₁ hd => ⟨device₁, h.device_old hd, rfl⟩, h.endpoint_old,
      fun slot d hbound => ?_, fun _ d _ => .of_eq fun device₁ hd =>
        ⟨device₁, h.device_old hd, rfl⟩⟩
    · change _ ≤ w'.devices.size
      rw [h.devices_eq, Array.size_push]
      exact Nat.le_succ _
    · change _ ≤ w'.endpoints.size
      rw [h.endpoints_eq, Array.size_push]
      exact Nat.le_succ _
    · rcases hslots slot d hbound with hbound | ⟨-, rfl⟩
      · exact .inl hbound
      · exact .inr (Nat.le_refl _)

theorem Gains.follows (h : w.Gains ran device e w') : w.Follows w' := by
  have hsame : w'.setSlots w'.controller.slots = w' := rfl
  rw [← hsame]
  refine h.follows_setSlots fun slot d hbound => .inl ?_
  rwa [← h.slots_eq]

theorem Gains.follows_assign (h : w.Gains ran device e w') {context : UInt64} {slots : SlotTable}
    (hassign : w'.controller.slots.assign device.owner.slot ⟨w.devices.size⟩ context = .ok slots) :
    w.Follows (w'.setSlots slots) := by
  refine h.follows_setSlots fun slot d hbound => ?_
  have hadmits := SlotTable.admits_of_assign hassign
  by_cases hslot : slot = device.owner.slot
  · exact .inr ⟨hslot, hadmits.only d (hslot ▸ hbound)⟩
  · rw [hadmits.agreesOff.device?_eq slot hslot, h.slots_eq] at hbound
    exact .inl hbound

end Gains

/-! ### Slots that are freed -/

theorem follows_free {slot : UInt8} {occupant : Option DeviceRef} {slots : SlotTable}
    (hfree : w.controller.slots.free slot = .ok (occupant, slots)) :
    w.Follows (w.setSlots slots) := by
  obtain ⟨-, hfreed, hagrees⟩ := SlotTable.free_cases hfree
  have hbefore : ∀ slot' d, slots.device? slot' = some d →
      w.controller.slots.device? slot' = some d := by
    intro slot' d hbound
    have hne : slot' ≠ slot := by
      rintro rfl
      cases hfreed.symm.trans hbound
    rwa [← hagrees.device?_eq slot' hne]
  refine fun hw => ⟨⟨fun slot' d hbound => hw.device slot' d (hbefore slot' d hbound),
    hw.endpoint⟩, Nat.le_refl _, Nat.le_refl _, fun d device hd => ⟨device, hd, rfl⟩,
    fun r e he => ⟨e, he, .refl e⟩, fun slot' d hbound => .inl (hbefore slot' d hbound),
    fun _ d _ => .of_eq fun device hd => ⟨device, hd, rfl⟩⟩

theorem getElem?_putDevice {d d' : DeviceRef} {device device' : Device}
    (h : w.devices[d'.index]? = some device') :
    (w.putDevice d device).devices[d'.index]? =
      some (if d'.index = d.index then device else device') := by
  rw [putDevice, Array.getElem?_setIfInBounds]
  by_cases hd : d.index = d'.index
  · rw [if_pos hd, if_pos hd.symm, if_pos (hd ▸ (Array.getElem?_eq_some_iff.1 h).1)]
  · rw [if_neg hd, if_neg (Ne.symm hd), h]

/-- A device that loses its endpoints is not in its slot any more. -/
theorem follows_release {slot : UInt8} {d : DeviceRef} {occupant : Option DeviceRef}
    {device : Device} {slots : SlotTable}
    (hfree : w.controller.slots.free slot = .ok (occupant, slots))
    (hd : w.devices[d.index]? = some device)
    (hslot : slot = device.owner.slot ∨ occupant = some d) :
    w.Follows ((w.setSlots slots).putDevice d device.unregisterAll.2) := by
  intro hw
  obtain ⟨hfreed, hevolves⟩ := follows_free hfree hw
  obtain ⟨hoccupant, hnone, -⟩ := SlotTable.free_cases hfree
  have hhome : slot = device.owner.slot := by
    rcases hslot with hslot | hslot
    · exact hslot
    · obtain ⟨device', hd', hslot'⟩ := hw.device slot d (hoccupant.symm.trans hslot)
      rw [← hslot', Option.some.inj (hd'.symm.trans hd)]
  have hunbound : ∀ slot', slots.device? slot' ≠ some d := by
    intro slot' hbound
    obtain ⟨device', hd', hslot'⟩ := hfreed.device slot' d hbound
    rw [Option.some.inj (hd'.symm.trans hd), ← hhome] at hslot'
    rw [← hslot', hnone] at hbound
    cases hbound
  have hother : ∀ d', (∃ slot', slots.device? slot' = some d') → d'.index ≠ d.index := by
    rintro d' ⟨slot', hbound⟩ heq
    exact hunbound slot' (DeviceRef.ext heq ▸ hbound)
  have hput : ∀ (d' : DeviceRef) device', w.devices[d'.index]? = some device' →
      ((w.setSlots slots).putDevice d device.unregisterAll.2).devices[d'.index]? =
        some (if d'.index = d.index then device.unregisterAll.2 else device') :=
    fun d' device' hd' => getElem?_putDevice (w := w.setSlots slots) hd'
  refine ⟨⟨fun slot' d' hbound => ?_, fun d' device' id r hd' hr => ?_⟩, ?_⟩
  · obtain ⟨device', hd', hslot'⟩ := hfreed.device slot' d' hbound
    refine ⟨device', ?_, hslot'⟩
    rw [hput d' device' hd', if_neg (hother d' ⟨slot', hbound⟩)]
  · rcases device_putDevice_cases hd' with ⟨-, rfl⟩ | ⟨-, hbefore⟩
    · rw [Device.endpoint?_of_empty rfl] at hr
      cases hr
    · exact hw.endpoint d' device' id r hbefore hr
  · refine ⟨Nat.le_of_eq Array.size_setIfInBounds.symm, Nat.le_refl _, fun d' device' hd' => ?_,
      hevolves.endpoint, hevolves.bound, fun slot' d' hbound => .of_eq fun device' hd' => ?_⟩
    · refine ⟨_, hput d' device' hd', ?_⟩
      split
      · rename_i heq
        rw [heq] at hd'
        obtain rfl : device = device' := Option.some.inj (hd.symm.trans hd')
        rfl
      · rfl
    · refine ⟨device', ?_, rfl⟩
      rw [hput d' device' hd', if_neg (hother d' ⟨slot', hbound⟩)]

/-! ### Endpoints that are registered -/

/-- An endpoint that has been made for a device is its own for ever. -/
theorem owner_of_made {w₁ : World σ ρ} {owner : Owner} {traits : EndpointTraits} {config : Config}
    {ring : ProducerRing} {e : Endpoint ρ} (hw : w.Housed)
    (h : (w.addEndpoint (.create owner traits config ring)).Follows w₁)
    (he : w₁.endpoints[w.endpoints.size]? = some e) : e.owner = owner := by
  obtain ⟨-, hevolves⟩ := h ((w.follows_addEndpoint _) hw).1
  obtain ⟨e', he', hfollows⟩ := hevolves.endpoint ⟨w.endpoints.size⟩
    (.create owner traits config ring) Array.getElem?_push_size
  rw [Option.some.inj (he.symm.trans he'), hfollows.owner_eq]
  rfl

/-- Registering an endpoint changes the entry of its ID in the table of the device, and no other
entry of any table. -/
theorem putDevice_registered {d d' : DeviceRef} {device device' device₂ : Device} {id : UInt8}
    {r : EndpointRef} (hd : w.devices[d.index]? = some device)
    (hregister : device.register id r = .ok device')
    (hd₂ : w.devices[d'.index]? = some device₂) : ∃ device₃,
      (w.putDevice d device').devices[d'.index]? = some device₃ ∧
        device₃.owner = device₂.owner ∧ ∀ id' r', device₂.endpoint? id' = some r' →
          ∃ r₃, device₃.endpoint? id' = some r₃ ∧ (r₃ = r' ∨ r₃ = r) := by
  refine ⟨_, getElem?_putDevice hd₂, ?_⟩
  split
  · rename_i heq
    rw [heq] at hd₂
    obtain rfl : device = device₂ := Option.some.inj (hd.symm.trans hd₂)
    refine ⟨Device.owner_of_register hregister, fun id' r' hr' => ?_⟩
    rw [Device.endpoint?_register hregister]
    split
    · exact ⟨r, rfl, .inr rfl⟩
    · exact ⟨r', hr', .inl rfl⟩
  · exact ⟨rfl, fun id' r' hr' => ⟨r', hr', .inl rfl⟩⟩

theorem follows_register {w₁ : World σ ρ} {d : DeviceRef} {device device₁ device' : Device}
    {traits : EndpointTraits} {config : Config} {ring : ProducerRing} {e : Endpoint ρ}
    (hd : w.devices[d.index]? = some device)
    (h : (w.addEndpoint (.create device.owner traits config ring)).Follows w₁)
    (hd₁ : w₁.devices[d.index]? = some device₁)
    (he : w₁.endpoints[w.endpoints.size]? = some e)
    (hregister : device₁.register e.id ⟨w.endpoints.size⟩ = .ok device') :
    w.Follows (w₁.putDevice d device') := by
  intro hw
  have hall : w.Follows w₁ := (w.follows_addEndpoint _).trans h
  obtain ⟨hw₁, hevolves⟩ := hall hw
  have howner₁ : device₁.owner = device.owner := by
    obtain ⟨device₂, hd₂, howner₂⟩ := hevolves.device d device hd
    rwa [Option.some.inj (hd₁.symm.trans hd₂)]
  have howner' : device'.owner = device₁.owner := Device.owner_of_register hregister
  have hmade : e.owner = device'.owner := by
    rw [owner_of_made hw h he, howner', howner₁]
  refine ⟨⟨fun slot d' hbound => ?_, fun d' device₂ id r hd₂ hr => ?_⟩, ?_⟩
  · obtain ⟨device₂, hd₂, hslot⟩ := hw₁.device slot d' hbound
    obtain ⟨device₃, hd₃, howner, -⟩ := putDevice_registered hd₁ hregister hd₂
    exact ⟨device₃, hd₃, by rw [howner, hslot]⟩
  · rcases device_putDevice_cases hd₂ with ⟨-, rfl⟩ | ⟨-, hd₂⟩
    · rw [Device.endpoint?_register hregister] at hr
      split at hr
      · rename_i hid
        rw [← Option.some.inj hr]
        exact ⟨e, he, hmade, hid.symm⟩
      · rw [howner']
        exact hw₁.endpoint d device₁ id r hd₁ hr
    · exact hw₁.endpoint d' device₂ id r hd₂ hr
  · refine ⟨?_, hevolves.endpoints_le, fun d' device₂ hd₂ => ?_, hevolves.endpoint,
      hevolves.bound, fun slot d' hbound device₂ id r hd₂ hr => ?_⟩
    · exact Nat.le_trans hevolves.devices_le (Nat.le_of_eq Array.size_setIfInBounds.symm)
    · obtain ⟨device₃, hd₃, howner₃⟩ := hevolves.device d' device₂ hd₂
      obtain ⟨device₄, hd₄, howner₄, -⟩ := putDevice_registered hd₁ hregister hd₃
      exact ⟨device₄, hd₄, howner₄.trans howner₃⟩
    · obtain ⟨device₃, r₃, hd₃, hr₃, hsame₃⟩ := hevolves.table slot d' hbound device₂ id r hd₂ hr
      obtain ⟨device₄, hd₄, -, htable⟩ := putDevice_registered hd₁ hregister hd₃
      obtain ⟨r₄, hr₄, hsame₄⟩ := htable id r₃ hr₃
      refine ⟨device₄, r₄, hd₄, hr₄, ?_⟩
      rcases hsame₄ with rfl | rfl
      · exact hsame₃
      · exact .inr (Nat.le_refl _)

end World

/-! ### Conduct -/

/-- The tables stay in order, and evolve. -/
def Conduct.tables : Conduct σ ρ where
  Leads := World.Follows
  refl _ := World.follows_of_eq rfl rfl rfl
  trans := World.Follows.trans

/-- Nothing is remembered of routines here. -/
def noneRun : σ → List ρ := fun _ => []

theorem Platform.mute_noneRun (p : Platform σ) : p.Mute (noneRun : σ → List ρ) :=
  ⟨fun _ _ => rfl, fun _ _ _ => rfl, fun _ _ => rfl⟩

namespace Host

variable {env : Env σ ρ}

theorem tables_admits (henv : env.Obeys .tables) :
    Conduct.tables.Admits noneRun (fun _ _ => True) env where
  mute := env.mute_noneRun
  yieldNow := henv.yieldNow
  portChanged := henv.portChanged
  elsewhere h := World.follows_of_eq h.slots_eq h.devices_eq h.endpoints_eq
  step {w r e e' op reply ds} hw hstep _ _ := by
    have hput : w.Follows (w.put r e') := World.follows_put hw (Endpoint.follows_of_step hstep)
    have hhand : (handOn env e.owner ds).Obeys .tables :=
      .handOn henv.complete (fun _ _ => World.follows_of_eq rfl rfl rfl) e.owner
        fun _ _ _ _ _ => World.follows_of_eq rfl rfl rfl
    exact ⟨hput, hhand.continued hput⟩
  packetSize size hw := World.follows_put hw (Endpoint.follows_packetSize _ size)
  newEndpoint w _ _ _ _ := w.follows_addEndpoint _
  register := World.follows_register
  newDevice h := h.follows
  settle h := h.follows_assign
  free := World.follows_free
  release := World.follows_release
  flush _ _ := World.follows_of_eq rfl rfl rfl
  dequeue {w queue queue' request} _ _ := by
    have htake : w.Follows { w with completions := some queue' } :=
      World.follows_of_eq rfl rfl rfl
    exact (HostM.Obeys.callRoutine henv.complete request).continued htake

end Host

theorem Conduct.tables_admitsPrograms :
    (Conduct.tables : Conduct σ ρ).AdmitsPrograms m managing where
  platform _ _ _ := World.follows_of_eq rfl rfl rfl
  events _ _ := World.follows_of_eq rfl rfl rfl
  context d f w := w.follows_writeContext d f
  call _ henv call _ :=
    call.obeys (Host.tables_admits henv) (call.fits_of_forall fun _ _ => trivial)

/-- A program keeps the tables in order. -/
theorem Program.tables {p : HostM σ ρ α} (h : Program m managing p) : p.Obeys .tables :=
  h.obeys Conduct.tables_admitsPrograms

@[simp] theorem SlotTable.device?_empty (maxSlots slot : UInt8) :
    (SlotTable.empty maxSlots).device? slot = none := by
  unfold device?
  split
  · rw [empty, Array.getElem?_replicate]
    split <;> rfl
  · rfl

theorem World.Unused.housed {w : World σ ρ} (h : w.Unused) : w.Housed := by
  constructor
  · intro slot d hbound
    obtain ⟨maxSlots, hslots⟩ := h.slots_eq
    rw [hslots, SlotTable.device?_empty] at hbound
    cases hbound
  · intro d device id r hd
    rw [h.devices_eq] at hd
    simp at hd

theorem World.Reachable.housed {w : World σ ρ} (h : w.Reachable m) : w.Housed := by
  induction h with
  | create henv config h =>
    have hw := World.unused_of_create henv h
    exact ⟨hw.housed.device, hw.housed.endpoint⟩
  | run _ hp ih => exact (hp.tables.after _ ih).1

/-- What a program makes of the devices and endpoints of a reachable host. -/
theorem World.Reachable.evolves {w : World σ ρ} (h : w.Reachable m) {p : HostM σ ρ α}
    (hp : Program m managing p) : w.Evolves (w.after p) :=
  (hp.tables.after w h.housed).2

end UsbHost
