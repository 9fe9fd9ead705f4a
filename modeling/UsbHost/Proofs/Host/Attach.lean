import UsbHost.Proofs.Host.Board
import UsbHost.Proofs.Host.Neighbours

/-!
Attaching a device, when it fails. Whatever fails after the slot has been enabled, the cleanup
unbinds the new device, shuts it down and gives the slot back, so that everything is as it was. This
relies on the slot being free. If the controller hands out a slot with a device in it, the same
cleanup throws this device out.
-/

namespace UsbHost

variable {σ ρ : Type} {m : AddressMap σ}

namespace World

variable {w w' w'' : World σ ρ}

/-- Every binding is as it was, and all devices and endpoints are still there. -/
structure Restores (w w' : World σ ρ) : Prop where
  device?_eq : ∀ slot, w'.controller.slots.device? slot = w.controller.slots.device? slot
  context_eq : ∀ slot d, w.controller.slots.device? slot = some d →
    w'.controller.slots.contexts[slot.toNat]? = w.controller.slots.contexts[slot.toNat]?
  keeps : w.KeepsAll w'

theorem Restores.trans (h : w.Restores w') (h' : w'.Restores w'') : w.Restores w'' where
  device?_eq slot := (h'.device?_eq slot).trans (h.device?_eq slot)
  context_eq slot d hd :=
    (h'.context_eq slot d ((h.device?_eq slot).trans hd)).trans (h.context_eq slot d hd)
  keeps := h.keeps.trans h'.keeps

theorem restores_of_slots_eq (h : w'.controller.slots = w.controller.slots)
    (hkeeps : w.KeepsAll w') : w.Restores w' :=
  ⟨fun slot => by rw [h], fun slot d _ => by rw [h], hkeeps⟩

theorem restores_of_moves (h : Moves m false w w') : w.Restores w' :=
  restores_of_slots_eq h.keeps.1 h.keeps.2

theorem Restores.spares (h : w.Restores w') : w.Spares (fun _ => True) w' where
  binding_iff slot d _ := by rw [h.device?_eq slot]
  context_eq slot d _ := h.context_eq slot d
  device := h.keeps.device
  endpoint d device r e _ _ _ he := by
    obtain ⟨ds, e', he', hcontinues⟩ := h.keeps.endpoint r trivial e he
    exact ⟨e', he', hcontinues.unharmed⟩

/-- It is enough to keep what is there. -/
theorem Keeps.keepsAll {devices : DeviceRef → Prop} {endpoints : EndpointRef → Prop}
    (h : w.Keeps devices endpoints w') (hdevices : ∀ d, d.index < w.devices.size → devices d)
    (hendpoints : ∀ r, r.index < w.endpoints.size → endpoints r) : w.KeepsAll w' where
  device d _ device hd :=
    h.device d (hdevices d (Array.getElem?_eq_some_iff.1 hd).1) device hd
  endpoint r _ e he := h.endpoint r (hendpoints r (Array.getElem?_eq_some_iff.1 he).1) e he

end World

namespace Host

open HostAttempt (lift)

variable {env : Env σ ρ}

/-- The new device has no endpoint but its control endpoint, and nothing else has changed. -/
theorem NewDevice.keeps {w w' : World σ ρ} (h : NewDevice m w w') :
    w'.controller.slots = w.controller.slots ∧ w.KeepsAll w' ∧
      ∃ device, w'.devices[w.devices.size]? = some device ∧ ∀ r ∈ device.registered,
        w.endpoints.size ≤ r.index ∧ r.index < w'.endpoints.size := by
  obtain ⟨w₁, w₂, e, device, device', id, haside, hfresh, haside₂, hnone, hset, rfl⟩ := h.made
  have hdevices : w₂.devices.size = w.devices.size :=
    congrArg Array.size (haside₂.devices_eq.trans haside.devices_eq)
  have hendpoints : w₂.endpoints.size = w.endpoints.size + 1 := by
    rw [haside₂.endpoints_eq, World.size_addEndpoint, haside.endpoints_eq]
  refine ⟨haside₂.slots_eq.trans haside.slots_eq, ?_, device', ?_, fun r hr => ?_⟩
  · have hbefore : w.KeepsAll w₂ :=
      (World.keeps_of_eq haside.devices_eq haside.endpoints_eq).trans
        ((w₁.keeps_addEndpoint e).trans
          (World.keeps_of_eq haside₂.devices_eq haside₂.endpoints_eq))
    have hkeeps : w.Keeps (· ≠ ⟨w.devices.size⟩) (fun _ => True) _ :=
      (hbefore.trans (w₂.keeps_addDevice device)).weaken.trans
        ((w₂.addDevice device).keeps_putDevice ⟨w.devices.size⟩ device')
    refine hkeeps.keepsAll (fun d hd heq => ?_) fun _ _ => trivial
    rw [heq] at hd
    exact Nat.lt_irrefl _ hd
  · rw [← hdevices]
    simpa using World.device_putDevice (w₂.addDevice device) ⟨w₂.devices.size⟩ device'
  · rcases Device.registered_register hset hr with hr | rfl
    · rw [hnone] at hr
      cases hr
    · refine ⟨Nat.le_refl _, ?_⟩
      change w.endpoints.size < w₂.endpoints.size
      rw [hendpoints]
      exact Nat.lt_succ_self _

/-! ### Binding the new device -/

/-- A device is bound to a slot that is free, or nothing happens. -/
theorem assign_admits (env : Env σ ρ) (slot : UInt8) (d : DeviceRef) (w : World σ ρ) :
    HostAttempt.Ends (assign env slot d) w (fun _ => True)
      (fun error w' => w.KeepsAll w' ∧ w'.controller.slots = w.controller.slots ∧
        (error ≠ .slotOccupied slot → w.controller.slots.device? slot = none))
      fun _ w' => w.KeepsAll w' ∧ w.controller.slots.Admits slot d w'.controller.slots := by
  refine (assign_ends env slot d w).mono (fun _ _ => trivial) ?_ ?_
  · rintro error w' (⟨rfl, hindex⟩ | ⟨id, context, rfl, hassign⟩)
    · refine ⟨World.keeps_of_eq rfl rfl, rfl, fun _ => ?_⟩
      rw [SlotTable.device?, hindex]
    · exact ⟨World.keeps_of_eq rfl rfl, rfl, SlotTable.device?_of_refused hassign⟩
  · rintro _ _ ⟨id, context, slots, hassign, rfl⟩
    exact ⟨World.keeps_of_eq rfl rfl, SlotTable.admits_of_assign hassign⟩

/-- When a device could not be addressed, nobody else has come into its slot. -/
theorem address_ends (henv : env.Acts m false) (slot : UInt8) (d : DeviceRef) (w : World σ ρ) :
    HostAttempt.Ends (address env slot d) w (fun _ => True)
      (fun error w' => error ≠ .slotOccupied slot → w.KeepsAll w' ∧
        w.controller.slots.Admits slot d w'.controller.slots)
      fun _ _ => True := by
  refine ((assign_admits env slot d w).mono (fun _ h => h) ?_ fun _ _ h => h).bind ?_
  · rintro error w₁ ⟨hkeeps, hslots, hfree⟩ hne
    rw [hslots]
    exact ⟨hkeeps, SlotTable.admits_of_free (hfree hne) d⟩
  · -- The command that follows does not change the binding.
    rintro _ w₁ ⟨hkeeps, hadmits⟩
    have hmoves := moves_withInput (makesInput_addressInput d)
      (usesInput_addressDevice henv.onlyMoves slot true) w₁
    refine (HostAttempt.ends_of_run hmoves).mono (fun _ _ => trivial) ?_ fun _ _ _ => trivial
    intro error w₂ hmoves _
    obtain ⟨hslots, hall⟩ := hmoves.keeps
    rw [hslots]
    exact ⟨hkeeps.trans hall, hadmits⟩

/-! ### Cleaning up -/

/-- The cleanup empties the slot and shuts down the device in it. -/
theorem abandonSlot_ends (henv : env.Acts m false) {slot : UInt8} {d : DeviceRef} {device : Device}
    {w : World σ ρ} (hd : w.devices[d.index]? = some device)
    (hrs : ∀ r ∈ device.registered, r.index < w.endpoints.size)
    (honly : ∀ d', w.controller.slots.device? slot = some d' → d' = d) :
    HostM.Ends (abandonSlot env slot) w (fun _ => True) fun _ w' =>
      w.Keeps (· ≠ d) (· ∉ device.registered) w' ∧ w'.controller.slots.device? slot = none ∧
        w.controller.slots.AgreesOff slot w'.controller.slots := by
  have hrelease : ∀ w₁ : World σ ρ, w.Keeps (· ≠ d) (· ∉ device.registered) w₁ →
      w₁.controller.slots.device? slot = none →
      w.controller.slots.AgreesOff slot w₁.controller.slots →
      HostM.Ends (releaseSlot env slot) w₁ (fun _ => True) fun _ w' =>
        w.Keeps (· ≠ d) (· ∉ device.registered) w' ∧ w'.controller.slots.device? slot = none ∧
          w.controller.slots.AgreesOff slot w'.controller.slots := by
    intro w₁ hkeeps hempty hoff
    refine (moves_releaseSlot henv.onlyMoves slot w₁).mono (fun _ _ => trivial) ?_
    intro _ w' hmoves
    obtain ⟨hslots, hall⟩ := hmoves.keeps
    rw [hslots]
    exact ⟨hkeeps.trans hall.weaken, hempty, hoff⟩
  cases hfree : w.controller.slots.free slot with
  | error error =>
    exact HostM.ends_bind_of_ok (freeSlot_refused hfree) (hrelease w (World.keeps_of_eq rfl rfl)
      (SlotTable.device?_of_free_error hfree) (.refl slot _))
  | ok result =>
    obtain ⟨occupant, slots⟩ := result
    obtain ⟨hoccupant, hempty, hoff⟩ := SlotTable.free_cases hfree
    refine HostM.ends_bind_of_ok (freeSlot_freed hfree) ?_
    cases occupant with
    | none => exact hrelease (w.setSlots slots) (World.keeps_of_eq rfl rfl) hempty hoff
    | some d' =>
      obtain rfl := honly d' hoccupant.symm
      obtain ⟨n, w₁, hshutdown, hcloses, hkeeps⟩ := shutdown_freed_run env hd hrs slots
      refine HostM.ends_bind_of_ok hshutdown (hrelease w₁ hkeeps ?_ ?_)
      · rw [hcloses.controller_eq]
        exact hempty
      · rw [hcloses.controller_eq]
        exact hoff

/-- A new device that could not be addressed leaves nothing behind. -/
theorem abandonSlot_restores (henv : env.Acts m false) {slot : UInt8} {w w₁ w₂ : World σ ρ}
    (hmade : NewDevice m w w₁) (hkeeps₂ : w₁.KeepsAll w₂)
    (hadmits : w₁.controller.slots.Admits slot ⟨w.devices.size⟩ w₂.controller.slots) :
    HostM.Ends (abandonSlot env slot) w₂ (fun _ => True) fun _ w' => w.Restores w' := by
  obtain ⟨hslots, hkeeps₁, device, hdevice, hregistered⟩ := hmade.keeps
  obtain ⟨device₂, hdevice₂, -, hendpoints⟩ :=
    hkeeps₂.device ⟨w.devices.size⟩ trivial device hdevice
  have hregistered₂ : ∀ r ∈ device₂.registered,
      w.endpoints.size ≤ r.index ∧ r.index < w₁.endpoints.size := by
    intro r hr
    rw [Device.registered, hendpoints] at hr
    exact hregistered r hr
  have hexists : ∀ r ∈ device₂.registered, r.index < w₂.endpoints.size := by
    intro r hr
    have he := Array.getElem?_eq_getElem (hregistered₂ r hr).2
    obtain ⟨_, e₂, he₂, -⟩ := hkeeps₂.endpoint r trivial _ he
    exact (Array.getElem?_eq_some_iff.1 he₂).1
  refine (abandonSlot_ends henv hdevice₂ hexists hadmits.only).mono (fun _ h => h) ?_
  rintro - w' ⟨hkeeps', hempty, hoff'⟩
  have hkeeps : w.Keeps (· ≠ ⟨w.devices.size⟩) (· ∉ device₂.registered) w' :=
    hkeeps₁.weaken.trans (hkeeps₂.weaken.trans hkeeps')
  have hother := hadmits.agreesOff.trans hoff'
  have hfree := hadmits.free
  rw [hslots] at hother hfree
  constructor
  case device?_eq =>
    intro slot'
    by_cases hslot : slot' = slot
    · rw [hslot, hempty, hfree]
    · exact hother.device?_eq slot' hslot
  case context_eq =>
    intro slot' d hd
    refine hother.contexts_eq _ fun heq => ?_
    rw [UInt8.toNat_inj.1 heq, hfree] at hd
    cases hd
  case keeps =>
    refine hkeeps.keepsAll (fun d hd heq => ?_) fun r hr hmem => ?_
    · rw [heq] at hd
      exact Nat.lt_irrefl _ hd
    · exact Nat.lt_irrefl _ (Nat.lt_of_lt_of_le hr (hregistered₂ r hmem).1)

theorem attach_ends (henv : env.Acts m false) (rootPort : UInt8) (speed : Speed)
    (route : Option HubRoute) (w : World σ ρ) :
    HostAttempt.Ends (attach env rootPort speed route) w (fun _ => True)
      (fun error w' => (∀ slot, error ≠ .slotOccupied slot) → w.Restores w') fun _ _ => True := by
  have hcommand := moves_enableSlot henv.onlyMoves w
  refine HostAttempt.Ends.bind ((HostAttempt.ends_of_run hcommand).mono (fun _ _ => trivial)
    (fun _ _ hmoves _ => World.restores_of_moves hmoves) fun _ _ hmoves => hmoves) ?_
  intro slot w₁ hmoves
  let w₂ : World σ ρ := { w₁ with controller.nextDevice := w₁.controller.nextDevice + 1 }
  have hid : (lift newDeviceId : HostAttempt σ ρ DeviceId).run w₁ =
      .ok (.ok ⟨w₁.controller.nextDevice⟩) w₂ := rfl
  have hlook : (lift HostM.controller : HostAttempt σ ρ Controller).run w₂ =
      .ok (.ok w₂.controller) w₂ := rfl
  have hbefore : w.Restores w₂ := (World.restores_of_moves hmoves).trans
    (World.restores_of_slots_eq rfl (World.keeps_of_eq rfl rfl))
  refine HostAttempt.ends_bind_of_ok hid (HostAttempt.ends_bind_of_ok hlook ?_)
  have hnew := newDevice_gives (m := m) henv.platform
    ⟨⟨w₁.controller.nextDevice⟩, slot, speed, sink w₂.controller⟩ rootPort route
    w₂.controller.config w₂
  refine (HostAttempt.ends_lift (hnew.mono (fun _ _ => trivial) (fun _ _ h => h)
    fun _ _ h => h)).bind ?_
  rintro (error | d) w₃ hmade
  · have hrelease := moves_releaseSlot henv.onlyMoves slot w₃
    refine (HostAttempt.ends_lift (hrelease.mono (fun _ _ => trivial) fun _ _ h => h)).bind ?_
    intro _ w₄ hmoves' _
    have hsame : w₃ = w₂ := hmade
    rw [hsame] at hmoves'
    exact hbefore.trans (World.restores_of_moves hmoves')
  · obtain ⟨rfl, hmade⟩ := hmade
    refine (HostAttempt.ends_lift (address_ends henv slot ⟨w₂.devices.size⟩ w₃)).bind ?_
    rintro (error | _) w₄ haddressed
    · by_cases hne : error = .slotOccupied slot
      · refine (HostAttempt.ends_lift (HostM.ends_trivial _ _)).bind ?_
        exact fun _ _ _ h => absurd hne (h slot)
      · obtain ⟨hkeeps, hadmits⟩ := haddressed hne
        refine (HostAttempt.ends_lift (abandonSlot_restores henv hmade hkeeps hadmits)).bind ?_
        exact fun _ w₅ hrestores _ => hbefore.trans hrestores
    · trivial

/-- Unless the slot was occupied, a failed attempt to attach a device leaves everything as it was:
all devices are in their slots with their contexts and endpoints, none has come, and requests in
flight have been handed back at most. -/
theorem spares_all_of_attach_refused (henv : env.Acts m false) {rootPort : UInt8} {speed : Speed}
    {route : Option HubRoute} {error : Error} {w w' : World σ ρ}
    (hrun : (attach env rootPort speed route).run w = .ok (.error error) w')
    (hne : ∀ slot, error ≠ .slotOccupied slot) : w.Spares (fun _ => True) w' :=
  ((attach_ends henv rootPort speed route w).of_refused hrun hne).spares

end Host

namespace Board

/-- The next device is given slot 2, but does not answer when it is to be addressed. -/
def unresponsive : World Board Unit :=
  tell (fun kind => some ⟨if kind = .addressDevice then ⟨4⟩ else .success, 2⟩) sending

theorem spares_all_when_unresponsive :
    refusal? (Host.attach env 2 .full none).run unresponsive = some (.commandFailed ⟨4⟩) ∧
      unresponsive.controller.slots.device? 1 = some ⟨0⟩ ∧
      unresponsive.Spares (fun _ => True)
        (unresponsive.after (Host.attach env 2 .full none).run) := by
  have hrefused : refusal? (Host.attach env 2 .full none).run unresponsive =
      some (.commandFailed ⟨4⟩) := by decide +kernel
  exact ⟨hrefused, by decide +kernel,
    Host.spares_all_of_attach_refused (acts false) (run_of_refusal? hrefused) nofun⟩

/-- The next device is given slot 1, in which there is a device already. -/
def occupied : World Board Unit := tell (obliging 1) sending

/-- The device that was there loses its slot, and its request in flight is dropped. -/
theorem attach_in_occupied_slot_evicts : occupied.Reachable addresses ∧
    refusal? (Host.attach env 2 .full none).run occupied = some (.slotOccupied 1) ∧
    occupied.controller.slots.device? 1 = some ⟨0⟩ ∧
    (occupied.endpoints[0]?.map fun e => (e.valid, e.inFlight.length)) = some (true, 1) ∧
    (occupied.after (Host.attach env 2 .full none).run).controller.slots.device? 1 = none ∧
    ((occupied.after (Host.attach env 2 .full none).run).endpoints[0]?.map fun e =>
      (e.valid, e.inFlight.length)) = some (false, 0) ∧
    ¬ occupied.Spares (fun _ => True) (occupied.after (Host.attach env 2 .full none).run) := by
  have hbefore : occupied.controller.slots.device? 1 = some ⟨0⟩ := by decide +kernel
  have hafter : (occupied.after (Host.attach env 2 .full none).run).controller.slots.device? 1 =
      none := by decide +kernel
  refine ⟨reachable_tell reachable_sending _, by decide +kernel, hbefore, by decide +kernel,
    hafter, by decide +kernel, fun hspares => ?_⟩
  have hbound := (hspares.binding_iff 1 ⟨0⟩ trivial).2 hbefore
  rw [hafter] at hbound
  cases hbound

end Board

end UsbHost
