import UsbHost.Proofs.Host.Board
import UsbHost.Proofs.Host.Neighbours

/-!
Detaching a device. No endpoint is ever registered on two devices, so shutting one device down does
not touch the endpoints of another. Hence detaching a device that is in its slot leaves all other
devices alone. But slots are given to other devices again, and `detach` goes by the slot that the
device once had: detaching a device for a second time throws the new device out of the slot.
-/

namespace UsbHost

variable {σ ρ : Type} {m : AddressMap σ} {managing : Bool}

namespace World

/-- No device has registered the endpoint. -/
def Unregistered (r : EndpointRef) (w : World σ ρ) : Prop :=
  ∀ (i : Nat) (device : Device), w.devices[i]? = some device → r ∉ device.registered

/-- Registered endpoints exist, and each is registered on one device only. -/
structure Tidy (w : World σ ρ) : Prop where
  registered_lt : ∀ (i : Nat) (device : Device), w.devices[i]? = some device →
    ∀ r ∈ device.registered, r.index < w.endpoints.size
  registered_once : ∀ (i j : Nat) (device device' : Device) (r : EndpointRef),
    w.devices[i]? = some device → w.devices[j]? = some device' → r ∈ device.registered →
    r ∈ device'.registered → i = j

/-- What a move does to the registration of endpoints. -/
structure StaysTidy (w w' : World σ ρ) : Prop where
  size_le : w.endpoints.size ≤ w'.endpoints.size
  unregistered : ∀ r : EndpointRef, r.index < w.endpoints.size → w.Unregistered r →
    w'.Unregistered r
  tidy : w.Tidy → w'.Tidy

/-- No endpoint is registered where it was not before. -/
structure RegistersNoMore (w w' : World σ ρ) : Prop where
  size_le : w.endpoints.size ≤ w'.endpoints.size
  device : ∀ (i : Nat) (device' : Device), w'.devices[i]? = some device' →
    ∀ r ∈ device'.registered, ∃ device : Device, w.devices[i]? = some device ∧
      r ∈ device.registered

variable {w w' w'' : World σ ρ}

theorem StaysTidy.trans (h : w.StaysTidy w') (h' : w'.StaysTidy w'') : w.StaysTidy w'' where
  size_le := Nat.le_trans h.size_le h'.size_le
  unregistered r hr hw :=
    h'.unregistered r (Nat.lt_of_lt_of_le hr h.size_le) (h.unregistered r hr hw)
  tidy hw := h'.tidy (h.tidy hw)

theorem RegistersNoMore.staysTidy (h : w.RegistersNoMore w') : w.StaysTidy w' := by
  refine ⟨h.size_le, fun r _ hw i device' hdevice' hr => ?_, fun hw => ⟨?_, ?_⟩⟩
  · obtain ⟨device, hdevice, hr⟩ := h.device i device' hdevice' r hr
    exact hw i device hdevice hr
  · intro i device' hdevice' r hr
    obtain ⟨device, hdevice, hr⟩ := h.device i device' hdevice' r hr
    exact Nat.lt_of_lt_of_le (hw.registered_lt i device hdevice r hr) h.size_le
  · intro i j device₁ device₂ r hdevice₁ hdevice₂ hr₁ hr₂
    obtain ⟨device₁', hdevice₁', hr₁⟩ := h.device i device₁ hdevice₁ r hr₁
    obtain ⟨device₂', hdevice₂', hr₂⟩ := h.device j device₂ hdevice₂ r hr₂
    exact hw.registered_once i j device₁' device₂' r hdevice₁' hdevice₂' hr₁ hr₂

theorem registersNoMore_of_eq (hdevices : w'.devices = w.devices)
    (hsize : w.endpoints.size ≤ w'.endpoints.size) : w.RegistersNoMore w' := by
  refine ⟨hsize, fun i device' hdevice' r hr => ⟨device', ?_, hr⟩⟩
  rwa [← hdevices]

theorem staysTidy_put (w : World σ ρ) (r : EndpointRef) (e : Endpoint ρ) :
    w.StaysTidy (w.put r e) := by
  have h : w.RegistersNoMore (w.put r e) :=
    registersNoMore_of_eq rfl (by simp)
  exact h.staysTidy

theorem staysTidy_addEndpoint (w : World σ ρ) (e : Endpoint ρ) :
    w.StaysTidy (w.addEndpoint e) := by
  have h : w.RegistersNoMore (w.addEndpoint e) := registersNoMore_of_eq rfl (by simp)
  exact h.staysTidy

theorem staysTidy_writeContext (w : World σ ρ) (d : DeviceRef)
    (f : Context.Device → Context.Device) : w.StaysTidy (w.writeContext d f) := by
  refine RegistersNoMore.staysTidy ⟨Nat.le_refl _, fun i device' hdevice' r hr => ?_⟩
  rw [writeContext, Array.getElem?_modify] at hdevice'
  split at hdevice'
  · obtain ⟨device, hdevice, rfl⟩ := Option.map_eq_some_iff.1 hdevice'
    exact ⟨device, hdevice, hr⟩
  · exact ⟨device', hdevice', hr⟩

theorem staysTidy_addDevice (w : World σ ρ) {device : Device} (h : device.registered = []) :
    w.StaysTidy (w.addDevice device) := by
  refine RegistersNoMore.staysTidy ⟨Nat.le_refl _, fun i device' hdevice' r hr => ?_⟩
  rw [addDevice, Array.getElem?_push] at hdevice'
  split at hdevice'
  · cases hdevice'
    rw [h] at hr
    cases hr
  · exact ⟨device', hdevice', hr⟩

theorem staysTidy_unregister (w : World σ ρ) (d : DeviceRef) (device : Device) :
    w.StaysTidy (w.putDevice d device.unregisterAll.2) := by
  refine RegistersNoMore.staysTidy ⟨Nat.le_refl _, fun i device' hdevice' r hr => ?_⟩
  rcases device_putDevice_cases hdevice' with ⟨-, rfl⟩ | ⟨-, hdevice⟩
  · rw [Host.registered_eq_nil rfl] at hr
    cases hr
  · exact ⟨device', hdevice, hr⟩

/-- An endpoint that nobody has registered is registered. -/
theorem Tidy.register (h : w.Tidy) {d : DeviceRef} {device device' : Device} {id : UInt8}
    {r : EndpointRef} (hr : r.index < w.endpoints.size) (hnone : w.Unregistered r)
    (hdevice : w.devices[d.index]? = some device) (hregister : device.register id r = .ok device') :
    (w.putDevice d device').Tidy := by
  constructor
  case registered_lt =>
    intro i device₁ hdevice₁ r₁ hr₁
    rcases device_putDevice_cases hdevice₁ with ⟨rfl, rfl⟩ | ⟨-, hdevice₁⟩
    · rcases Device.registered_register hregister hr₁ with hr₁ | rfl
      · exact h.registered_lt _ device hdevice r₁ hr₁
      · exact hr
    · exact h.registered_lt i device₁ hdevice₁ r₁ hr₁
  case registered_once =>
    -- Whoever shares an endpoint with the device has shared it before, or it is the new one.
    have hshare : ∀ i device₁ r₁, w.devices[i]? = some device₁ → r₁ ∈ device₁.registered →
        r₁ ∈ device'.registered → i = d.index := by
      intro i device₁ r₁ hdevice₁ hr₁ hr₁'
      rcases Device.registered_register hregister hr₁' with hr₁' | rfl
      · exact h.registered_once i d.index device₁ device r₁ hdevice₁ hdevice hr₁ hr₁'
      · exact absurd hr₁ (hnone i device₁ hdevice₁)
    intro i j device₁ device₂ r₁ hdevice₁ hdevice₂ hr₁ hr₂
    rcases device_putDevice_cases hdevice₁ with ⟨rfl, rfl⟩ | ⟨-, hbefore₁⟩
    · rcases device_putDevice_cases hdevice₂ with ⟨rfl, -⟩ | ⟨-, hbefore₂⟩
      · rfl
      · exact (hshare j device₂ r₁ hbefore₂ hr₂ hr₁).symm
    · rcases device_putDevice_cases hdevice₂ with ⟨rfl, rfl⟩ | ⟨-, hbefore₂⟩
      · exact hshare i device₁ r₁ hbefore₁ hr₁ hr₂
      · exact h.registered_once i j device₁ device₂ r₁ hbefore₁ hbefore₂ hr₁ hr₂

theorem Tidy.unregistered_new (h : w.Tidy) (e : Endpoint ρ) :
    (w.addEndpoint e).Unregistered ⟨w.endpoints.size⟩ :=
  fun i device hdevice hr => Nat.lt_irrefl _ (h.registered_lt i device hdevice _ hr)

/-- The endpoint is registered after whatever has happened since it was made. -/
theorem staysTidy_register {e : Endpoint ρ} {d : DeviceRef} {device device' : Device} {id : UInt8}
    (h : (w.addEndpoint e).StaysTidy w') (hdevice : w'.devices[d.index]? = some device)
    (hregister : device.register id ⟨w.endpoints.size⟩ = .ok device') :
    w.StaysTidy (w'.putDevice d device') := by
  have hsize : w.endpoints.size < (w.addEndpoint e).endpoints.size := by simp
  refine ⟨Nat.le_trans (Nat.le_of_lt hsize) h.size_le, fun r hr hw => ?_, fun hw => ?_⟩
  · have hbefore := h.unregistered r (Nat.lt_trans hr hsize) hw
    intro i device₁ hdevice₁ hr₁
    rcases device_putDevice_cases hdevice₁ with ⟨rfl, rfl⟩ | ⟨-, hdevice₁⟩
    · rcases Device.registered_register hregister hr₁ with hr₁ | rfl
      · exact hbefore _ device hdevice hr₁
      · exact Nat.lt_irrefl _ hr
    · exact hbefore i device₁ hdevice₁ hr₁
  · refine (h.tidy ((w.staysTidy_addEndpoint e).tidy hw)).register ?_ ?_ hdevice hregister
    · exact Nat.lt_of_lt_of_le hsize h.size_le
    · exact h.unregistered _ hsize (hw.unregistered_new e)

theorem staysTidy_of_moves (h : Moves m managing w w') : w.StaysTidy w' := by
  have hsame : ∀ w₁ w₂ : World σ ρ, w₂.devices = w₁.devices → w₂.endpoints = w₁.endpoints →
      w₁.StaysTidy w₂ := by
    intro w₁ w₂ hdevices hendpoints
    exact (registersNoMore_of_eq hdevices (Nat.le_of_eq (by rw [hendpoints]))).staysTidy
  induction h with
  | refl w => exact hsame _ _ rfl rfl
  | trans _ _ ih ih' => exact ih.trans ih'
  | aside h => exact hsame _ _ h.devices_eq h.endpoints_eq
  | context w d f => exact w.staysTidy_writeContext d f
  | step => exact staysTidy_put _ _ _
  | packetSize => exact staysTidy_put _ _ _
  | newEndpoint w _ => exact w.staysTidy_addEndpoint _
  | newDevice w h => exact w.staysTidy_addDevice h
  | register _ _ _ hdevice hregister ih => exact staysTidy_register ih hdevice hregister
  | unregister => exact staysTidy_unregister _ _ _
  | assign => exact hsame _ _ rfl rfl
  | free => exact hsame _ _ rfl rfl
  | turn => exact hsame _ _ rfl rfl
  | issue => exact hsame _ _ rfl rfl
  | report => exact hsame _ _ rfl rfl
  | signal => exact hsame _ _ rfl rfl
  | conclude => exact hsame _ _ rfl rfl
  | newInput => exact hsame _ _ rfl rfl
  | @input w w₁ content _ _ ih =>
    exact (hsame w (w.addInput content) rfl rfl).trans (ih.trans (hsame w₁ _ rfl rfl))

/-- An unused host has no devices. -/
theorem Unused.tidy (h : w.Unused) : w.Tidy := by
  constructor
  case registered_lt =>
    intro i device hdevice
    rw [h.devices_eq] at hdevice
    simp at hdevice
  case registered_once =>
    intro i j device _ _ hdevice
    rw [h.devices_eq] at hdevice
    simp at hdevice

theorem Reachable.tidy (h : w.Reachable m) : w.Tidy :=
  h.invariant (fun _ hw => hw.tidy) fun _ _ hmoves hw => (staysTidy_of_moves hmoves).tidy hw

/-! ### Detaching -/

/-- A device has left its slot, its endpoints have been closed and its parked requests dropped.
Nothing else has changed but what is kept for tasks. -/
structure Removes (d : DeviceRef) (device : Device) (w w' : World σ ρ) : Prop where
  bus_eq : w'.bus = w.bus
  freed : ∃ slots, w.controller.slots.free device.owner.slot = .ok (some d, slots) ∧
    w'.controller = { w.controller with slots := slots }
  devices_eq : w'.devices = (w.putDevice d device.unregisterAll.2).devices
  completions_eq : w'.completions =
    w.completions.map fun queue => (queue.flushOwner device.owner.device).2
  closed : ∀ r ∈ device.registered, ∃ e, w'.endpoints[r.index]? = some e ∧ e.Closed
  endpoints_eq : ∀ r ∉ device.registered, w'.endpoints[r.index]? = w.endpoints[r.index]?

/-- One device has left its slot, and its endpoints have been shut down. -/
theorem Tidy.spares (h : w.Tidy) {d : DeviceRef} {device : Device} {slot : UInt8}
    (hd : w.devices[d.index]? = some device) (hbound : w.controller.slots.device? slot = some d)
    (hfreed : w'.controller.slots.device? slot = none)
    (hslots : w.controller.slots.AgreesOff slot w'.controller.slots)
    (hkeeps : w.Keeps (· ≠ d) (· ∉ device.registered) w') : w.Spares (· ≠ d) w' := by
  have hother : ∀ slot' d', d' ≠ d → w.controller.slots.device? slot' = some d' →
      slot' ≠ slot := by
    rintro slot' d' hne hd' rfl
    exact hne (Option.some.inj (hd'.symm.trans hbound))
  constructor
  case binding_iff =>
    intro slot' d' hne
    by_cases hslot : slot' = slot
    · rw [hslot, hfreed, hbound, Option.some.injEq]
      exact ⟨nofun, fun heq => absurd heq.symm hne⟩
    · rw [hslots.device?_eq slot' hslot]
  case context_eq =>
    intro slot' d' hne hd'
    refine hslots.contexts_eq _ fun heq => hother slot' d' hne hd' ?_
    exact UInt8.toNat_inj.1 heq
  case device => exact hkeeps.device
  case endpoint =>
    intro d' device' r e hne hdevice' hr he
    have hnot : r ∉ device.registered := by
      intro hr'
      exact hne (DeviceRef.ext (h.registered_once _ _ device' device r hdevice' hd hr hr'))
    obtain ⟨ds, e', he', hcontinues⟩ := hkeeps.endpoint r hnot e he
    exact ⟨e', he', hcontinues.unharmed⟩

end World

namespace Host

variable {env : Env σ ρ}

/-- Before its only command, the detaching of a device frees the slot, shuts the device down and
drops its parked requests. -/
theorem detach_removes (env : Env σ ρ) {w : World σ ρ} (h : w.Tidy) {d : DeviceRef}
    {device : Device} (hd : w.devices[d.index]? = some device)
    (hbound : w.controller.slots.device? device.owner.slot = some d) :
    ∃ w₁, (detach env d).run w = (disableSlot env device.owner.slot).run w₁ ∧
      w.Removes d device w₁ ∧ w.Keeps (· ≠ d) (· ∉ device.registered) w₁ := by
  obtain ⟨slots, hfree⟩ := SlotTable.free_of_device? hbound
  obtain ⟨n, w₁, hshutdown, hcloses, hkeeps⟩ := shutdown_freed_run env hd
    (h.registered_lt d.index device hd) slots
  obtain ⟨n', hflush⟩ := flushParked_eq device.owner.device w₁
  refine ⟨w₁.flushed device.owner.device, ?_, ⟨hcloses.bus_eq, ⟨_, hfree, hcloses.controller_eq⟩,
    hcloses.devices_eq, ?_, hcloses.closed, hcloses.endpoints_eq⟩,
    hkeeps.trans (World.keeps_of_eq rfl rfl)⟩
  · calc (detach env d).run w
        = _ := HostAttempt.bind_of_ok (HostAttempt.lift_of_ok (device_eq hd))
      _ = _ := HostAttempt.bind_of_ok (freeSlot_freed hfree)
      _ = _ := HostAttempt.bind_of_ok (HostAttempt.lift_of_ok hshutdown)
      _ = _ := HostAttempt.bind_of_ok (HostAttempt.lift_of_ok hflush)
  · rw [World.flushed, hcloses.completions_eq]
    rfl

theorem detach_run (env : Env σ ρ) {w : World σ ρ} (h : w.Tidy) {d : DeviceRef} {device : Device}
    (hd : w.devices[d.index]? = some device)
    (hbound : w.controller.slots.device? device.owner.slot = some d) :
    ∃ w₁, (detach env d).run w = (disableSlot env device.owner.slot).run w₁ ∧
      w₁.controller.commands = w.controller.commands ∧
      w₁.controller.slots.device? device.owner.slot = none ∧
      w.controller.slots.AgreesOff device.owner.slot w₁.controller.slots ∧
      w.Keeps (· ≠ d) (· ∉ device.registered) w₁ := by
  obtain ⟨w₁, hrun, hremoves, hkeeps⟩ := detach_removes env h hd hbound
  obtain ⟨slots, hfree, hcontroller⟩ := hremoves.freed
  obtain ⟨-, hfreed, hslots⟩ := SlotTable.free_cases hfree
  refine ⟨w₁, hrun, ?_, ?_, ?_, hkeeps⟩
  · rw [hcontroller]
  · rw [hcontroller]
    exact hfreed
  · rw [hcontroller]
    exact hslots

end Host

/-- Detaching a device that is in its slot issues one command, to disable this slot. Up to then,
and if the surroundings do not manage devices also afterwards, all other devices are untouched. -/
theorem World.Reachable.detach_spares_others {w : World σ ρ} (h : w.Reachable m) (env : Env σ ρ)
    {d : DeviceRef} {device : Device} (hd : w.devices[d.index]? = some device)
    (hbound : w.controller.slots.device? device.owner.slot = some d) :
    ∃ w₁, (Host.detach env d).run w = (Host.disableSlot env device.owner.slot).run w₁ ∧
      w₁.controller.commands = w.controller.commands ∧ w.Spares (· ≠ d) w₁ ∧
      (env.Acts m false → w.Spares (· ≠ d) (w.after (Host.detach env d).run)) := by
  obtain ⟨w₁, hrun, hcommands, hfreed, hslots, hkeeps⟩ :=
    Host.detach_run env h.tidy hd hbound
  refine ⟨w₁, hrun, hcommands, h.tidy.spares hd hbound hfreed hslots hkeeps, fun henv => ?_⟩
  obtain ⟨hsame, hall⟩ := ((Host.moves_disableSlot henv.onlyMoves device.owner.slot).after w₁).keeps
  have hafter : w.after (Host.detach env d).run =
      w₁.after (Host.disableSlot env device.owner.slot).run := by
    rw [World.after, hrun, World.after]
  rw [hafter]
  refine h.tidy.spares hd hbound ?_ ?_ (hkeeps.trans hall.weaken)
  · rw [hsame]
    exact hfreed
  · rw [hsame]
    exact hslots

namespace Board

/-- A second device has been attached, in slot 2. -/
def paired : World Board Unit :=
  (tell (obliging 2) attached).after ((Call.attach 2 .full none).run env)

theorem detach_spares_others_paired : ∃ device, paired.devices[0]? = some device ∧
    paired.controller.slots.device? device.owner.slot = some ⟨0⟩ ∧
    paired.controller.slots.device? 2 = some ⟨1⟩ ∧
    ∃ w₁, (Host.detach env ⟨0⟩).run paired = (Host.disableSlot env device.owner.slot).run w₁ ∧
      w₁.controller.commands = paired.controller.commands ∧ paired.Spares (· ≠ ⟨0⟩) w₁ ∧
      (env.Acts addresses false →
        paired.Spares (· ≠ ⟨0⟩) (paired.after (Host.detach env ⟨0⟩).run)) := by
  have hreachable : paired.Reachable addresses :=
    reachable_call (reachable_tell reachable_attached _) _
  have hlook : (paired.devices[0]?.map fun device =>
      paired.controller.slots.device? device.owner.slot) = some (some ⟨0⟩) := by decide +kernel
  obtain ⟨device, hd, hbound⟩ := Option.map_eq_some_iff.1 hlook
  exact ⟨device, hd, hbound, by decide +kernel,
    hreachable.detach_spares_others env (d := ⟨0⟩) hd hbound⟩

/-- The first device has been detached, and another one has been attached in its slot. -/
def reused : World Board Unit :=
  (attached.after ((Call.detach ⟨0⟩).run env)).after ((Call.attach 1 .high none).run env)

/-- Detaching the first device once more takes the slot away from its new owner. -/
theorem detach_frees_slot_of_another : reused.Reachable addresses ∧
    reused.controller.slots.device? 1 = some ⟨1⟩ ∧
    reused.controller.slots.contexts[1]? ≠ some 0 ∧
    (reused.after ((Call.detach ⟨0⟩).run env)).controller.slots.device? 1 = none ∧
    (reused.after ((Call.detach ⟨0⟩).run env)).controller.slots.contexts[1]? = some 0 ∧
    ¬ reused.Spares (· ≠ ⟨0⟩) (reused.after ((Call.detach ⟨0⟩).run env)) := by
  have hbefore : reused.controller.slots.device? 1 = some ⟨1⟩ := by decide +kernel
  have hafter : (reused.after ((Call.detach ⟨0⟩).run env)).controller.slots.device? 1 = none := by
    decide +kernel
  refine ⟨reachable_call (reachable_call reachable_attached _) _, hbefore, by decide +kernel,
    hafter, by decide +kernel, fun hspares => ?_⟩
  have hbound := (hspares.binding_iff 1 ⟨1⟩ (by decide)).2 hbefore
  rw [hafter] at hbound
  cases hbound

end Board

end UsbHost
