import UsbHost.Proofs.Device.SlotContext
import UsbHost.Proofs.Host.Administration
import UsbHost.Proofs.Host.Attach
import UsbHost.Proofs.Host.Configuration
import UsbHost.Proofs.Host.Servant

/-!
Devices on a controller that copies contexts. The slot context makes a round trip on each call that
configures an endpoint: the driver takes it out of the output context, lets it reach to the new
endpoint, and the controller copies it back if the command succeeds. So after any sequence of such
calls, whichever of them have failed, the output slot context is the one that the device has
introduced itself with, and it reaches to the last endpoint that has been configured.
-/

namespace UsbHost

variable {σ ρ : Type} {m : AddressMap σ} {managing : Bool}

theorem Moves.placed {w w' : World σ ρ} (h : Moves m managing w w')
    (hw : w.controller.slots.Placed) : w'.controller.slots.Placed := by
  induction h with
  | trans _ _ ih ih' => exact ih' (ih hw)
  | aside haside =>
    rw [haside.slots_eq]
    exact hw
  | register _ _ _ _ _ ih => exact ih hw
  | assign _ hassign => exact (SlotTable.assign_cases hw hassign).1
  | free _ hfree => exact SlotTable.placed_of_free hw hfree
  | input _ _ _ ih => exact ih hw
  | _ => exact hw

theorem World.Reachable.placed {w : World σ ρ} (h : w.Reachable m) :
    w.controller.slots.Placed := by
  refine h.invariant (fun w hw => ?_) fun w w' hmoves hw => hmoves.placed hw
  obtain ⟨maxSlots, hslots⟩ := hw.slots_eq
  rw [hslots]
  exact Array.size_replicate

/-! ### What leaves devices alone -/

namespace World

variable {w w₁ w₂ : World σ ρ}

theorem Undisturbed.idle (h : w.Undisturbed m w₁) (hw : w.Idle) : w₁.Idle :=
  ⟨h.isTaken_eq.trans hw.isTaken_eq, h.wellFormed hw.wellFormed⟩

theorem Undisturbed.contents_eq (h : w.Undisturbed m w₁) : w₁.contents = w.contents := by
  rw [contents, h.inputs_eq, contents]

/-- An endpoint has come into being that no device names. -/
theorem undisturbed_addEndpoint (w : World σ ρ) {bus : Bus σ}
    (haddresses : m.Extends w.bus.platform bus.platform) (e : Endpoint ρ) :
    w.Undisturbed m (({ w with bus := bus } : World σ ρ).addEndpoint e) := by
  exact ⟨rfl, rfl, rfl, id, rfl, rfl, rfl,
    fun i e' he => ⟨e', endpoint_addEndpoint_of_some he, rfl, rfl, rfl⟩, haddresses⟩

end World

namespace Host

open HostAttempt (lift)

variable {env : Env σ ρ} {j : JobJournal σ} {effect : Job.Effect} {w : World σ ρ} {owner : Owner}
  {config : Config}

/-! ### Endpoints come into being -/

theorem producerRing_serving (henv : env.Serves j m effect) (kind : Ring.Kind) (count : Nat)
    (b : Bus σ) :
    HostAttempt.AllOrNothing (BusAttempt.producerRing env.toPlatform kind count) b fun _ b' =>
      m.Extends b.platform b'.platform ∧ j.jobs b'.platform = j.jobs b.platform := by
  have hlayout : HostAttempt.AllOrNothing
      (BusAttempt.ofAttempt (Ring.layout count) : BusAttempt σ _) b fun _ => (· = b) :=
    BusAttempt.ends_ofAttempt (fun _ _ => rfl) (fun _ _ => rfl) fun _ _ => rfl
  have hmemory : HostAttempt.AllOrNothing (BusAttempt.ringMemory env.toPlatform count) b
      fun _ b' => m.Extends b.platform b'.platform ∧ j.jobs b'.platform = j.jobs b.platform :=
    hlayout.bind fun _ => ⟨henv.platform.busAddress _ _, henv.busAddress _ _⟩
  exact HostAttempt.Ends.bind hmemory fun _ _ h => h

/-- A new endpoint disturbs nobody. -/
theorem newEndpoint_serving (henv : env.Serves j m effect) (owner : Owner)
    (traits : EndpointTraits) (config : Config) (w : World σ ρ) :
    HostAttempt.AllOrNothing (newEndpoint env owner traits config) w fun r w' =>
      w.Undisturbed m w' ∧ w'.jobs j = w.jobs j ∧
        ∃ e, w'.endpoints[r.index]? = some e ∧ e.traits = traits := by
  refine HostAttempt.Ends.bind (HostAttempt.onBus_gives
    (producerRing_serving henv .transfer config.transferRingSize w.bus)) ?_
  rintro ring _ ⟨bus, ⟨haddresses, hjobs⟩, rfl⟩
  exact ⟨w.undisturbed_addEndpoint haddresses _, hjobs, _, Array.getElem?_push_size, rfl⟩

theorem toNat_endpointId (descriptor : EndpointDescriptor) :
    descriptor.endpointId.toNat =
      descriptor.number.toNat * 2 + (if descriptor.isIn then 1 else 0) := by
  have hnumber : descriptor.number.toNat ≤ 15 := Nat.and_le_right
  have htwo : (descriptor.number * 2).toNat = descriptor.number.toNat * 2 := by
    rw [UInt8.toNat_mul]
    exact Nat.mod_eq_of_lt (by change _ * 2 < 256; omega)
  rw [EndpointDescriptor.endpointId, UInt8.toNat_add, htwo]
  split
  · change (_ + 1) % 256 = _
    omega
  · change (_ + 0) % 256 = _
    omega

/-- The ID of an endpoint with a descriptor is that of an endpoint context. -/
theorem id_of_ofDescriptor {speed : Speed} {descriptor : EndpointDescriptor}
    {traits : EndpointTraits} (h : EndpointTraits.ofDescriptor speed descriptor = .ok traits) :
    traits.id = descriptor.endpointId ∧ 1 ≤ traits.id.toNat ∧
      traits.id.toNat ≤ Context.maxEndpoints := by
  have hid : descriptor.number ≠ 0 ∧ traits.id = descriptor.endpointId := by
    unfold EndpointTraits.ofDescriptor at h
    dsimp only at h
    split at h
    · cases h
    · rename_i hnumber
      split at h
      · cases h
        exact ⟨hnumber, rfl⟩
      · cases h
        exact ⟨hnumber, rfl⟩
  obtain ⟨hnumber, hid⟩ := hid
  have hpos : descriptor.number.toNat ≠ 0 := fun h => hnumber (UInt8.toNat_inj.1 h)
  have hle : descriptor.number.toNat ≤ 15 := Nat.and_le_right
  refine ⟨hid, ?_⟩
  rw [hid, toNat_endpointId, Context.maxEndpoints]
  split <;> omega

theorem newEndpointFor_serving (henv : env.Serves j m effect) (owner : Owner) (config : Config)
    (descriptor : EndpointDescriptor) (w : World σ ρ) :
    HostAttempt.AllOrNothing (newEndpointFor env owner config descriptor) w fun r w' =>
      w.Undisturbed m w' ∧ w'.jobs j = w.jobs j ∧
        ∃ e, w'.endpoints[r.index]? = some e ∧ e.id = descriptor.endpointId ∧ 1 ≤ e.id.toNat ∧
          e.id.toNat ≤ Context.maxEndpoints := by
  unfold newEndpointFor
  cases htraits : EndpointTraits.ofDescriptor owner.speed descriptor with
  | error error => exact rfl
  | ok traits =>
    have hid := id_of_ofDescriptor htraits
    refine HostAttempt.ends_bind_of_ok (a := traits) rfl
      ((newEndpoint_serving henv owner traits config w).mono (fun _ h => h) (fun _ _ h => h) ?_)
    rintro r w' ⟨hmade, hjobs, e, he, rfl⟩
    exact ⟨hmade, hjobs, e, he, hid⟩

/-! ### Input contexts -/

variable {d : DeviceRef} {device : Device} {r : EndpointRef} {e : Endpoint ρ}

theorem addressInput_makes (hd : w.devices[d.index]? = some device)
    (hcontrol : device.endpoint? controlEndpointId = some r)
    (hr : w.endpoints[r.index]? = some e) :
    HostAttempt.AllOrNothing (addressInput d : HostAttempt σ ρ Dma.BufferId) w fun id w' =>
      id = ⟨w.bus.nextBuffer⟩ ∧ ∃ content : Context.Input,
        (content.adds 0 = true ∧ content.device.slot = device.slotContext) ∧
          w' = w.addInput content := by
  obtain ⟨content, hcontent, hbrings⟩ := device.addressInput_gives e
  refine HostAttempt.ends_bind_of_ok (HostAttempt.lift_of_ok (device_eq hd)) ?_
  rw [hcontrol]
  exact HostAttempt.ends_bind_of_ok (HostAttempt.lift_of_ok (endpoint_eq hr))
    (makes_of_content hcontent hbrings)

theorem configureInput_makes (hd : w.devices[d.index]? = some device)
    (hr : w.endpoints[r.index]? = some e)
    (hid : 1 ≤ e.id.toNat ∧ e.id.toNat ≤ Context.maxEndpoints) :
    HostAttempt.AllOrNothing (configureInput d r : HostAttempt σ ρ Dma.BufferId) w fun id w' =>
      id = ⟨w.bus.nextBuffer⟩ ∧ ∃ content : Context.Input,
        (content.Configures e.id ∧ content.device.slot = device.context.slot.setEntries
          (max device.context.slot.getEntries e.id)) ∧ w' = w.addInput content := by
  obtain ⟨content, hcontent, hbrings⟩ := device.configureInput_gives e hid
  exact HostAttempt.ends_bind_of_ok (HostAttempt.lift_of_ok (device_eq hd))
    (HostAttempt.ends_bind_of_ok (HostAttempt.lift_of_ok (endpoint_eq hr))
      (makes_of_content hcontent hbrings))

end Host

/-! ### Output contexts -/

theorem Job.copy_of_success {job : Job} {content : Context.Input} (hcode : job.code = .success)
    (hkind : job.command.kind? = some .addressDevice ∨
      job.command.kind? = some .configureEndpoint) (hinput : job.input = some content)
    (old : Context.Device) : job.copy old = content.applyTo old := by
  rw [copy, if_pos ⟨hcode, hkind⟩, hinput]
  rfl

theorem Job.copy_of_failure {job : Job} (hcode : job.code ≠ .success) (old : Context.Device) :
    job.copy old = old :=
  if_neg fun h => hcode h.1

namespace World

variable {w w' : World σ ρ} {d : DeviceRef} {device : Device} {slot : UInt8} {done : Option Job}

/-- The output context of a device after a job for the slot that it is in. -/
theorem Outputs.device_eq (h : w.Outputs Job.Copies done w')
    (hslot : ∀ job ∈ done, job.command.slot = slot)
    (hbound : w.controller.slots.device? slot = some d)
    (hd : w.devices[d.index]? = some device) :
    w'.devices[d.index]? = some { device with
      context := done.elim device.context fun job => job.copy device.context } := by
  cases done with
  | none =>
    rw [show w'.devices = w.devices from h, hd]
    rfl
  | some job =>
    obtain ⟨_, rfl, houtput⟩ := h
    rw [houtput, hslot job rfl, writeOutput, hbound]
    simp [hd]

theorem Outputs.others_eq (h : w.Outputs Job.Copies done w')
    (hslot : ∀ job ∈ done, job.command.slot = slot)
    (hbound : w.controller.slots.device? slot = some d) {i : Nat} (hi : i ≠ d.index) :
    w'.devices[i]? = w.devices[i]? := by
  cases done with
  | none => rw [show w'.devices = w.devices from h]
  | some job =>
    obtain ⟨_, rfl, houtput⟩ := h
    rw [houtput, hslot job rfl, writeOutput, hbound]
    simp [hi]

/-- A device in its slot. Its output slot context is `c`, except that it reaches to context `n`. -/
structure Slotted (d : DeviceRef) (slot : UInt8) (c : Context.Slot) (n : UInt8)
    (w : World σ ρ) : Prop where
  idle : w.Idle
  bound : w.controller.slots.device? slot = some d
  device : ∃ device, w.devices[d.index]? = some device ∧ device.owner.slot = slot ∧
    device.context.slot = c.setEntries n
  entries_lt : n < 32

/-- At most the device `d` has changed. -/
structure OnlyChanges (d : DeviceRef) (w w' : World σ ρ) : Prop where
  slots_eq : w'.controller.slots = w.controller.slots
  devices_eq : ∀ i ≠ d.index, w'.devices[i]? = w.devices[i]?

/-- What a call has submitted to configure endpoint `id` of the device in a slot: one input context
at most, and one command with it at most, which has succeeded or not. -/
structure Submits (j : JobJournal σ) (slot id : UInt8) (succeeded : Bool) (w w' : World σ ρ) :
    Prop where
  contents : ∃ made : Option Context.Input, w'.contents = w.contents ++ made.toList ∧
    ∀ content ∈ made, content.Configures id
  jobs : ∃ done : Option Job, w'.jobs j = w.jobs j ++ done.toList ∧
    (∀ job ∈ done, job.command.kind? = some .configureEndpoint ∧ job.command.slot = slot ∧
      ∃ content, job.input = some content ∧ content.Configures id) ∧
    (succeeded = true ↔ ∃ job ∈ done, job.code = .success)

variable {j : JobJournal σ} {id : UInt8} {c : Context.Slot} {n : UInt8}

theorem submits_nothing (hcontents : w'.contents = w.contents) (hjobs : w'.jobs j = w.jobs j) :
    Submits j slot id false w w' := by
  refine ⟨⟨none, ?_, nofun⟩, none, ?_, nofun, ?_⟩
  · rw [hcontents, Option.toList_none, List.append_nil]
  · rw [hjobs, Option.toList_none, List.append_nil]
  · simp

/-- A device is in the slot that it has been given. -/
def IsAttached (w : World σ ρ) (d : DeviceRef) : Prop :=
  ∃ device, w.devices[d.index]? = some device ∧
    w.controller.slots.device? device.owner.slot = some d

theorem IsAttached.slotted (h : w.IsAttached d) (hidle : w.Idle) :
    ∃ slot c n, w.Slotted d slot c n := by
  obtain ⟨device, hd, hbound⟩ := h
  refine ⟨device.owner.slot, device.context.slot, device.context.slot.getEntries, hidle, hbound,
    ⟨device, hd, rfl, ?_⟩, device.context.slot.getEntries_lt⟩
  exact device.context.slot.setEntries_getEntries.symm

theorem OnlyChanges.refl (d : DeviceRef) (w : World σ ρ) : w.OnlyChanges d w :=
  ⟨rfl, fun _ _ => rfl⟩

theorem OnlyChanges.trans {w'' : World σ ρ} (h : w.OnlyChanges d w')
    (h' : w'.OnlyChanges d w'') : w.OnlyChanges d w'' :=
  ⟨h'.slots_eq.trans h.slots_eq,
    fun i hi => (h'.devices_eq i hi).trans (h.devices_eq i hi)⟩

theorem onlyChanges_putDevice (w : World σ ρ) (d : DeviceRef) (device : Device) :
    w.OnlyChanges d (w.putDevice d device) :=
  ⟨rfl, fun _ hi => device_putDevice_of_ne hi⟩

theorem Undisturbed.onlyChanges (h : w.Undisturbed m w') (d : DeviceRef) : w.OnlyChanges d w' :=
  ⟨h.slots_eq, fun _ _ => by rw [h.devices_eq]⟩

/-- Another device stays in its slot, with its output context. -/
theorem OnlyChanges.slotted {d' : DeviceRef} (h : w.OnlyChanges d' w') (hne : d ≠ d')
    (hidle : w'.Idle) (hw : w.Slotted d slot c n) : w'.Slotted d slot c n where
  idle := hidle
  bound := by rw [h.slots_eq, hw.bound]
  device := by
    rw [h.devices_eq d.index fun hsame => hne (congrArg DeviceRef.mk hsame)]
    exact hw.device
  entries_lt := hw.entries_lt

theorem Undisturbed.slotted (h : w.Undisturbed m w') (hw : w.Slotted d slot c n) :
    w'.Slotted d slot c n where
  idle := h.idle hw.idle
  bound := by rw [h.slots_eq, hw.bound]
  device := by
    rw [h.devices_eq]
    exact hw.device
  entries_lt := hw.entries_lt

end World

namespace Host

open HostAttempt (lift)

variable {env : Env σ ρ} {j : JobJournal σ} {w : World σ ρ} {d : DeviceRef} {slot n : UInt8}
  {c : Context.Slot}

/-- An endpoint can be registered on a device in its slot, and the output context stays as it is. -/
theorem register_slotted (hw : w.Slotted d slot c n) {r : EndpointRef} {e : Endpoint ρ}
    (he : w.endpoints[r.index]? = some e)
    (hid : 1 ≤ e.id.toNat ∧ e.id.toNat ≤ Context.maxEndpoints) :
    ∃ device', (register d r : HostAttempt σ ρ Unit).run w = .ok (.ok ()) (w.putDevice d device') ∧
      (w.putDevice d device').Slotted d slot c n := by
  obtain ⟨device, hd, hslot, hcontext⟩ := hw.device
  let device' := { device with
    endpoints := device.endpoints.set (e.id.toNat - 1) (some r) (Context.index_lt e.id hid) }
  have hregister : device.register e.id r = .ok device' := dif_pos hid
  refine ⟨device', register_run hd he hregister, ⟨hw.idle.isTaken_eq, hw.idle.wellFormed⟩,
    hw.bound, ⟨device', ?_, hslot, hcontext⟩, hw.entries_lt⟩
  simp [hd]

section

variable {kind : Trb.Kind} {w₁ w₂ : World σ ρ} {content : Context.Input} {done : Option Job}

/-- What is known of the submissions when the call has made its input context. -/
theorem CallOver.submits {effect : Job.Effect} {id : UInt8} {succeeded : Bool}
    (h : CallOver j m effect .configureEndpoint slot w₁ content done w₂)
    (hcontents : w₁.contents = w.contents) (hjobs : w₁.jobs j = w.jobs j)
    (hcontent : content.Configures id)
    (hsucceeded : succeeded = true ↔ ∃ job ∈ done, job.code = .success) :
    w.Submits j slot id succeeded w₂ where
  contents := by
    refine ⟨some content, h.did.contents_eq.trans (by rw [hcontents, Option.toList_some]), ?_⟩
    rintro _ ⟨⟩
    exact hcontent
  jobs := by
    refine ⟨done, h.did.jobs_eq.trans (by rw [hjobs]), fun job hjob => ?_, hsucceeded⟩
    exact ⟨h.kind?_eq job hjob, h.slot_eq job hjob, content, h.input_eq job hjob, hcontent⟩

theorem CallOver.onlyChanges (h : CallOver j m Job.Copies kind slot w₁ content done w₂)
    (hbound : w₁.controller.slots.device? slot = some d) : w₁.OnlyChanges d w₂ :=
  ⟨h.did.slots_eq, fun _ hi => h.did.outputs.others_eq h.slot_eq hbound hi⟩

/-- The controller writes the output context of the device in the slot. -/
theorem CallOver.slotted (h : CallOver j m Job.Copies kind slot w₁ content done w₂)
    (hw : w₁.Slotted d slot c n) {n' : UInt8} (hlt : n' < 32)
    (hcontext : ∀ device, w₁.devices[d.index]? = some device →
      (done.elim device.context fun job => job.copy device.context).slot = c.setEntries n') :
    w₂.Slotted d slot c n' := by
  obtain ⟨device, hd, hslot, -⟩ := hw.device
  refine ⟨h.idle, ?_, ⟨_, h.did.outputs.device_eq h.slot_eq hw.bound hd, hslot,
    hcontext device hd⟩, hlt⟩
  rw [h.did.slots_eq, hw.bound]

/-- A command that has not succeeded leaves the slot context as it is. -/
theorem CallOver.slotted_of_failure (h : CallOver j m Job.Copies kind slot w₁ content done w₂)
    (hw : w₁.Slotted d slot c n) (hfailed : ∀ job ∈ done, job.code ≠ .success) :
    w₂.Slotted d slot c n := by
  refine h.slotted hw hw.entries_lt fun device hd => ?_
  have hkept : (done.elim device.context fun job => job.copy device.context) = device.context := by
    cases done with
    | none => rfl
    | some job => exact Job.copy_of_failure (hfailed job rfl) _
  obtain ⟨_, hd', -, hcontext⟩ := hw.device
  cases hd'.symm.trans hd
  rw [hkept, hcontext]

/-- A command that has succeeded lets the slot context reach to the new endpoint. -/
theorem CallOver.slotted_of_success {id : UInt8} {job : Job} {device : Device}
    (h : CallOver j m Job.Copies .configureEndpoint slot w₁ content (some job) w₂)
    (hw : w₁.Slotted d slot c n) (hcode : job.code = .success) (hid : id < 32)
    (hd : w₁.devices[d.index]? = some device) (hconfigures : content.Configures id)
    (hcarried : content.device.slot =
      device.context.slot.setEntries (max device.context.slot.getEntries id)) :
    w₂.Slotted d slot c (max n id) := by
  have hlt : max n id < 32 := by
    change (if n ≤ id then id else n) < 32
    split
    · exact hid
    · exact hw.entries_lt
  refine h.slotted hw hlt fun device' hd' => ?_
  have hadds : content.adds 0 = true := (hconfigures.adds_iff 0).2 (.inl rfl)
  obtain ⟨_, hd'', -, hcontext⟩ := hw.device
  cases hd.symm.trans hd'
  cases hd''.symm.trans hd
  simp [Job.copy_of_success hcode (.inr (h.kind?_eq job rfl)) (h.input_eq job rfl), hadds, hcarried,
    hcontext, hw.entries_lt]

end

/-- One call. If it succeeds, the slot context reaches to the new endpoint; if not, it is as before,
whatever has been submitted. -/
theorem configure_slotted (henv : env.Serves j m Job.Copies) (hw : w.Slotted d slot c n)
    (descriptor : EndpointDescriptor) :
    HostAttempt.Ends (configure env d descriptor) w (fun _ => True)
      (fun _ w' => w'.Slotted d slot c n ∧ w.OnlyChanges d w' ∧
        w.Submits j slot descriptor.endpointId false w')
      fun _ w' => w'.Slotted d slot c (max n descriptor.endpointId) ∧ w.OnlyChanges d w' ∧
        w.Submits j slot descriptor.endpointId true w' := by
  obtain ⟨device, hd, hslot, -⟩ := hw.device
  have hlook : (lift HostM.controller : HostAttempt σ ρ _).run w = .ok (.ok w.controller) w := rfl
  refine HostAttempt.ends_bind_of_ok (HostAttempt.lift_of_ok (device_eq hd))
    (HostAttempt.ends_bind_of_ok hlook ?_)
  refine (newEndpointFor_serving henv _ _ descriptor w).bind_ends trivial
    (fun _ => ⟨hw, .refl d w, World.submits_nothing rfl rfl⟩) ?_
  rintro r w₁ ⟨hmade, hjobs, e, he, hid, hvalid⟩
  have hd₁ : w₁.devices[d.index]? = some device := by rwa [hmade.devices_eq]
  have hw₁ := hmade.slotted hw
  rw [hslot]
  refine HostAttempt.Ends.bind (HostAttempt.Ends.mono (withInput_over henv hw₁.idle
    (forInput_configureEndpoint slot false) (configureInput_makes hd₁ he hvalid))
    (fun _ h => h) ?_ fun _ _ h => h) ?_
  · rintro error w₂ (rfl | ⟨content, done, ⟨hconfigures, -⟩, hover, hfailure⟩)
    · exact ⟨hw₁, hmade.onlyChanges d, World.submits_nothing hmade.contents_eq hjobs⟩
    · have hfailed : ∀ job ∈ done, job.code ≠ .success := by
        rintro job rfl
        exact hfailure.1
      refine ⟨hover.slotted_of_failure hw₁ hfailed,
        (hmade.onlyChanges d).trans (hover.onlyChanges hw₁.bound),
        hover.submits hmade.contents_eq hjobs (hid ▸ hconfigures) ⟨nofun, ?_⟩⟩
      rintro ⟨job, hjob, hcode⟩
      exact absurd hcode (hfailed job hjob)
  · rintro - w₂ ⟨content, job, ⟨hconfigures, hcarried⟩, hover, hcode⟩
    obtain ⟨e₂, he₂, hsame⟩ := hover.did.endpoints r.index e he
    rw [hid] at hconfigures hcarried hvalid
    have hlt : descriptor.endpointId < 32 := UInt8.lt_iff_toNat_lt.2 (Nat.lt_succ_of_le hvalid.2)
    have hw₂ := hover.slotted_of_success hw₁ hcode hlt hd₁ hconfigures hcarried
    have hid₂ : e₂.id = descriptor.endpointId :=
      (congrArg EndpointTraits.id hsame.traits_eq).trans hid
    -- The ID is that of an endpoint context, so the call cannot be refused any more.
    obtain ⟨device', hregister, hregistered⟩ := register_slotted hw₂ he₂ (hid₂ ▸ hvalid)
    have hsubmits : w.Submits j slot descriptor.endpointId true w₂ :=
      hover.submits hmade.contents_eq hjobs hconfigures ⟨fun _ => ⟨job, rfl, hcode⟩, fun _ => rfl⟩
    refine HostAttempt.ends_bind_of_ok hregister (HostAttempt.ends_of_ok rfl
      ⟨hregistered, ?_, hsubmits.contents, hsubmits.jobs⟩)
    exact ((hmade.onlyChanges d).trans (hover.onlyChanges hw₁.bound)).trans
      (w₂.onlyChanges_putDevice d device')

/-! ### Attaching a device -/

theorem enableSlot_over {effect : Job.Effect} (henv : env.Serves j m effect) (hw : w.Idle) :
    HostAttempt.Ends (enableSlot env) w (fun _ => True) (fun _ _ => True) fun _ w' =>
      w'.Idle ∧ w'.contents = w.contents ∧ w'.controller.slots = w.controller.slots := by
  have hbrings : w.Brings m Command.enableSlot none := Command.readsInput_enableSlot
  refine ((command_over henv hw hbrings).mono (fun _ h => h) (fun _ _ _ => trivial)
    fun _ _ h => h).bind ?_
  rintro report w' ⟨job, hover, -⟩
  have hlook : (lift HostM.controller : HostAttempt σ ρ _).run w' = .ok (.ok w'.controller) w' :=
    rfl
  refine HostAttempt.ends_bind_of_ok hlook ?_
  dsimp only
  split
  · exact trivial
  · exact ⟨hover.idle, hover.did.contents_eq.trans (List.append_nil _), hover.did.slots_eq⟩

theorem NewDevice.frame {w w' : World σ ρ} (h : NewDevice m w w') :
    w'.controller.commands = w.controller.commands ∧ w'.inputs = w.inputs ∧
      w'.controller.slots = w.controller.slots := by
  obtain ⟨w₁, w₂, e, device, device', id, haside, -, haside₂, -, -, rfl⟩ := h.made
  exact ⟨haside₂.commands_eq.trans haside.commands_eq, haside₂.inputs_eq.trans haside.inputs_eq,
    haside₂.slots_eq.trans haside.slots_eq⟩

/-- A device that has come into being has a control endpoint, and is in no slot yet. -/
theorem newDevice_over {effect : Job.Effect} (henv : env.Serves j m effect) (hw : w.Idle)
    (owner : Owner) (rootPort : UInt8) (route : Option HubRoute) (config : Config) :
    HostAttempt.Ends (newDevice env owner rootPort route config) w (fun _ => True)
      (fun _ _ => True) fun d w' => HasControl w' d owner ∧ w'.Idle ∧ w'.contents = w.contents ∧
        w'.controller.slots = w.controller.slots := by
  rcases hrun : (newDevice env owner rootPort route config).run w with
    ⟨error | d, w'⟩ | ⟨fault, w'⟩
  · exact HostAttempt.ends_of_refused hrun trivial
  · obtain ⟨r, w₁, hmade, -⟩ := HostAttempt.bind_eq_ok hrun
    obtain ⟨d', w'', hrun', hcontrol⟩ := newDevice_of_newEndpoint hmade rootPort route
    cases hrun'.symm.trans hrun
    obtain ⟨hcommands, hinputs, hslots⟩ :=
      ((newDevice_gives henv.platform owner rootPort route config w).of_ok hrun).2.frame
    refine HostAttempt.ends_of_ok hrun ⟨hcontrol, ⟨?_, ?_⟩, ?_, hslots⟩
    · rw [World.isTaken, hcommands]
      exact hw.isTaken_eq
    · rw [hcommands]
      exact hw.wellFormed
    · rw [World.contents, hinputs, World.contents]
  · exact HostAttempt.ends_of_error hrun trivial

/-- A device that has an address has introduced itself with its slot context. -/
theorem address_slotted (henv : env.Serves j m Job.Copies) (hw : w.Idle)
    (hplaced : w.controller.slots.Placed) {owner : Owner} (hd : HasControl w d owner) :
    HostAttempt.Ends (address env owner.slot d) w (fun _ => True) (fun _ _ => True) fun _ w' =>
      ∃ first device, w'.contents = w.contents ++ [first] ∧ w'.devices[d.index]? = some device ∧
        first.device.slot = device.slotContext ∧
          w'.Slotted d owner.slot device.slotContext 1 := by
  obtain ⟨device, r, e, hdevice, howner, hr, he, -, -⟩ := hd
  refine ((assign_ends env owner.slot d w).mono (fun _ _ => trivial) (fun _ _ _ => trivial)
    fun _ _ h => h).bind ?_
  rintro _ _ ⟨id, context, slots, hassign, rfl⟩
  let w₁ := (w.translated env id).setSlots slots
  have hbound : w₁.controller.slots.device? owner.slot = some d :=
    (SlotTable.assign_cases hplaced hassign).2
  have hidle : w₁.Idle := ⟨hw.isTaken_eq, hw.wellFormed⟩
  have hmake := addressInput_makes (w := w₁) hdevice hr he
  refine (withInput_over henv hidle (forInput_addressDevice owner.slot true) hmake).mono
    (fun _ h => h) (fun _ _ _ => trivial) ?_
  rintro _ w' ⟨first, job, ⟨hadds, hfirst⟩, hover, hcode⟩
  have hd' := hover.did.outputs.device_eq hover.slot_eq hbound hdevice
  have hcontext : (job.copy device.context).slot = device.slotContext.setEntries 1 := by
    rw [Job.copy_of_success hcode (.inl (hover.kind?_eq job rfl)) (hover.input_eq job rfl),
      Context.Input.slot_applyTo hadds, hfirst, ← device.slotContext_says.1,
      Context.Slot.setEntries_getEntries]
  refine ⟨first, _, hover.did.contents_eq, hd', hfirst, hover.idle, ?_, ⟨_, hd', ?_, hcontext⟩,
    by decide⟩
  · rw [hover.did.slots_eq, hbound]
  · exact congrArg Owner.slot howner

theorem attach_slotted (henv : env.Serves j m Job.Copies) (hw : w.Idle)
    (hplaced : w.controller.slots.Placed) (rootPort : UInt8) (speed : Speed)
    (route : Option HubRoute) :
    HostAttempt.Ends (attach env rootPort speed route) w (fun _ => True) (fun _ _ => True)
      fun d w' => ∃ slot first device, w'.contents = w.contents ++ [first] ∧
        w'.devices[d.index]? = some device ∧ first.device.slot = device.slotContext ∧
          w'.Slotted d slot device.slotContext 1 := by
  refine (enableSlot_over henv hw).bind ?_
  rintro slot w₁ ⟨hidle₁, hcontents₁, hslots₁⟩
  let w₂ : World σ ρ := { w₁ with controller.nextDevice := w₁.controller.nextDevice + 1 }
  have hid : (lift newDeviceId : HostAttempt σ ρ DeviceId).run w₁ =
      .ok (.ok ⟨w₁.controller.nextDevice⟩) w₂ := rfl
  have hlook : (lift HostM.controller : HostAttempt σ ρ _).run w₂ = .ok (.ok w₂.controller) w₂ :=
    rfl
  have hidle₂ : w₂.Idle := ⟨hidle₁.isTaken_eq, hidle₁.wellFormed⟩
  refine HostAttempt.ends_bind_of_ok hid (HostAttempt.ends_bind_of_ok hlook ?_)
  dsimp only
  have hdevice := newDevice_over henv hidle₂
    ⟨⟨w₁.controller.nextDevice⟩, slot, speed, sink w₂.controller⟩ rootPort route
    w₂.controller.config
  refine HostAttempt.Ends.bind (HostAttempt.ends_lift hdevice) fun result w₃ hend => ?_
  cases result with
  | error error => exact (HostAttempt.ends_lift (HostM.ends_trivial _ w₃)).bind fun _ _ _ => trivial
  | ok d =>
    obtain ⟨hcontrol, hidle₃, hcontents₃, hslots₃⟩ := hend
    have hplaced₃ : w₃.controller.slots.Placed := by
      rw [hslots₃]
      change w₁.controller.slots.Placed
      rwa [hslots₁]
    have haddress := address_slotted henv hidle₃ hplaced₃ hcontrol
    refine HostAttempt.Ends.bind (HostAttempt.ends_lift haddress) fun result w₄ hend => ?_
    cases result with
    | error error =>
      exact (HostAttempt.ends_lift (HostM.ends_trivial _ w₄)).bind fun _ _ _ => trivial
    | ok _ =>
      obtain ⟨first, device, hcontents₄, hd, hfirst, hslotted⟩ := hend
      refine ⟨slot, first, device, ?_, hd, hfirst, hslotted⟩
      rw [hcontents₄, hcontents₃, ← hcontents₁]
      rfl

/-! ### Runs -/

/-- The worlds in which endpoints have been configured since `w₀`, and the IDs of those that have
been configured successfully on the device `d`. Calls come one after the other, for this device and
for others; in between, tasks use endpoints. -/
inductive Reconfigures (j : JobJournal σ) (m : AddressMap σ) (d : DeviceRef) (w₀ : World σ ρ) :
    World σ ρ → List UInt8 → Prop
  | start : Reconfigures j m d w₀ w₀ []
  | meanwhile {w w' : World σ ρ} {ids : List UInt8} (h : Reconfigures j m d w₀ w ids)
      (hmeanwhile : w.Undisturbed m w') : Reconfigures j m d w₀ w' ids
  | configured {w w' : World σ ρ} {ids : List UInt8} (h : Reconfigures j m d w₀ w ids)
      {env : Env σ ρ} (henv : env.Serves j m Job.Copies) {descriptor : EndpointDescriptor}
      {r : EndpointRef} (hcall : (configure env d descriptor).run w = .ok (.ok r) w') :
      Reconfigures j m d w₀ w' (ids ++ [descriptor.endpointId])
  | refused {w w' : World σ ρ} {ids : List UInt8} (h : Reconfigures j m d w₀ w ids)
      {env : Env σ ρ} (henv : env.Serves j m Job.Copies) {descriptor : EndpointDescriptor}
      {error : Error} (hcall : (configure env d descriptor).run w = .ok (.error error) w') :
      Reconfigures j m d w₀ w' ids
  | other {w w' : World σ ρ} {ids : List UInt8} (h : Reconfigures j m d w₀ w ids)
      {env : Env σ ρ} (henv : env.Serves j m Job.Copies) {d' : DeviceRef} (hne : d ≠ d')
      (hattached : w.IsAttached d') {descriptor : EndpointDescriptor}
      {result : Except Error EndpointRef}
      (hcall : (configure env d' descriptor).run w = .ok result w') : Reconfigures j m d w₀ w' ids

/-- The slot context reaches to the last endpoint that has been configured. -/
theorem Reconfigures.slotted {w₀ : World σ ρ} {ids : List UInt8}
    (h : Reconfigures j m d w₀ w ids) (hw₀ : w₀.Slotted d slot c controlEndpointId) :
    w.Slotted d slot c (ids.foldl max controlEndpointId) := by
  induction h with
  | start => exact hw₀
  | meanwhile _ hmeanwhile ih => exact hmeanwhile.slotted ih
  | @configured w w' ids _ env henv descriptor r hcall ih =>
    rw [List.foldl_concat]
    exact ((configure_slotted henv ih descriptor).of_ok hcall).1
  | @refused w w' ids _ env henv descriptor error hcall ih =>
    exact ((configure_slotted henv ih descriptor).of_refused hcall).1
  | @other w w' ids _ env henv d' hne hattached descriptor result hcall ih =>
    -- The step lemma is about any attached device; what it leaves alone includes this one.
    obtain ⟨slot', c', n', hslotted⟩ := hattached.slotted ih.idle
    have hcalled := configure_slotted henv hslotted descriptor
    cases result with
    | ok r =>
      obtain ⟨hslotted', honly, -⟩ := hcalled.of_ok hcall
      exact honly.slotted hne hslotted'.idle ih
    | error error =>
      obtain ⟨hslotted', honly, -⟩ := hcalled.of_refused hcall
      exact honly.slotted hne hslotted'.idle ih

/-- A device is attached on a controller that copies the contexts which are added when a command
succeeds, and then endpoints are configured, with whatever descriptors and whichever commands fail.
After each call the output slot context of the device reaches to the last of its endpoints that has
been configured successfully, the control endpoint included, and puts the device at the place that
Address Device has given. Each call that follows submits one input context at most: it adds the slot
context and the endpoint of the descriptor, takes this endpoint out first, and is empty for all
others. -/
theorem slot_context_survives_reconfiguration {w w₀ w₁ : World σ ρ} (hw : w.Reachable m)
    (hfree : w.isTaken = false) (henv : env.Serves j m Job.Copies) {rootPort : UInt8}
    {speed : Speed} {route : Option HubRoute}
    (hattach : (attach env rootPort speed route).run w = .ok (.ok d) w₀) {ids : List UInt8}
    (h : Reconfigures j m d w₀ w₁ ids) :
    ∃ slot first device₀ device,
      w₀.contents = w.contents ++ [first] ∧ w₀.devices[d.index]? = some device₀ ∧
      first.device.slot = device₀.slotContext ∧
      w₁.controller.slots.device? slot = some d ∧ w₁.devices[d.index]? = some device ∧
      (controlEndpointId :: ids).max? = some device.context.slot.getEntries ∧
      first.device.slot.SamePlace device.context.slot ∧
      ∀ env : Env σ ρ, env.Serves j m Job.Copies → ∀ descriptor,
        HostAttempt.Ends (configure env d descriptor) w₁ (fun _ => True)
          (fun _ => w₁.Submits j slot descriptor.endpointId false)
          fun _ => w₁.Submits j slot descriptor.endpointId true := by
  have hidle : w.Idle := ⟨hfree, hw.guarded.wellFormed⟩
  obtain ⟨slot, first, device₀, hcontents, hd₀, hfirst, hw₀⟩ :=
    (attach_slotted henv hidle hw.placed rootPort speed route).of_ok hattach
  have hw₁ := h.slotted hw₀
  obtain ⟨device, hd, -, hcontext⟩ := hw₁.device
  refine ⟨slot, first, device₀, device, hcontents, hd₀, hfirst, hw₁.bound, hd, ?_, ?_,
    fun env henv descriptor => ?_⟩
  · rw [hcontext, Context.Slot.getEntries_setEntries _ hw₁.entries_lt]
    rfl
  · rw [hfirst, hcontext]
    exact Context.Slot.samePlace_setEntries _ _
  · exact (configure_slotted henv hw₁ descriptor).mono (fun _ h => h) (fun _ _ h => h.2.2)
      fun _ _ h => h.2.2

end Host

namespace Servant

open Host

/-- The controller will refuse the second endpoint, with Parameter Error. -/
def choosy : World Servant Unit := instruct [.success, .success, .success, ⟨17⟩] start

/-- A high-speed device has been attached. -/
def introduced : World Servant Unit := choosy.after (attach env 1 .high none).run

/-- Its endpoint 3 has been configured, -/
def withOne : World Servant Unit :=
  introduced.after (configure env ⟨0⟩ ⟨0x81, 2, 512, 0⟩).run

/-- endpoint 11 has been refused, -/
def stillOne : World Servant Unit := withOne.after (configure env ⟨0⟩ ⟨0x85, 2, 512, 0⟩).run

/-- and endpoint 4 has been configured. -/
def withTwo : World Servant Unit := stillOne.after (configure env ⟨0⟩ ⟨0x02, 2, 512, 0⟩).run

theorem slot_context_reaches_to_last_configured_endpoint :
    choosy.Reachable addresses ∧ choosy.isTaken = false ∧
    env.Serves journal addresses Job.Copies ∧
    (attach env 1 .high none).run choosy = .ok (.ok ⟨0⟩) introduced ∧
    Reconfigures journal addresses ⟨0⟩ introduced withTwo [3, 4] ∧
    ∃ first device₀ device, introduced.contents = choosy.contents ++ [first] ∧
      introduced.devices[0]? = some device₀ ∧ first.device.slot = device₀.slotContext ∧
      withTwo.devices[0]? = some device ∧ device.context.slot.getEntries = 4 ∧
      first.device.slot.SamePlace device.context.slot := by
  have hreachable : choosy.Reachable addresses := reachable_instruct reachable_start _
  have hfree : choosy.isTaken = false := by decide +kernel
  have hattach : (attach env 1 .high none).run choosy = .ok (.ok ⟨0⟩) introduced :=
    run_of_outcome (by decide +kernel)
  have hone : (configure env ⟨0⟩ ⟨0x81, 2, 512, 0⟩).run introduced = .ok (.ok ⟨1⟩) withOne :=
    run_of_outcome (by decide +kernel)
  have hrefused : (configure env ⟨0⟩ ⟨0x85, 2, 512, 0⟩).run withOne =
      .ok (.error (.commandFailed ⟨17⟩)) stillOne := run_of_outcome (by decide +kernel)
  have htwo : (configure env ⟨0⟩ ⟨0x02, 2, 512, 0⟩).run stillOne = .ok (.ok ⟨3⟩) withTwo :=
    run_of_outcome (by decide +kernel)
  have hruns : Reconfigures journal addresses ⟨0⟩ introduced withTwo [3, 4] :=
    ((Reconfigures.start.configured serves hone).refused serves hrefused).configured serves htwo
  obtain ⟨slot, first, device₀, device, hcontents, hd₀, hfirst, -, hd, hentries, hplace, -⟩ :=
    slot_context_survives_reconfiguration hreachable hfree serves hattach hruns
  exact ⟨hreachable, hfree, serves, hattach, hruns, first, device₀, device, hcontents, hd₀, hfirst,
    hd, (Option.some.inj hentries).symm, hplace⟩

end Servant

end UsbHost
