import UsbHost.Proofs.Host.Operations

/-!
Administration under any conduct: devices are attached and detached, endpoints are configured, time
passes and events come in. Together with the requests this is all that a host offers, so every call
obeys a conduct that admits the changes of which its operations are made.
-/

namespace UsbHost

variable {σ ρ α : Type} {env : Env σ ρ} {c : Conduct σ ρ} {ran : σ → List ρ}
  {allows : EndpointRef → ρ → Prop}

theorem BusAttempt.producerRing_mute {p : Platform σ} (h : p.Mute ran) (kind : Ring.Kind)
    (count : Nat) (b : Bus σ) :
    HostAttempt.AllOrNothing (producerRing p kind count) b fun _ b' =>
      ran b'.platform = ran b.platform := by
  refine (producerRing_makes p kind count b).mono (fun _ h => h) (fun _ _ h => h) ?_
  rintro _ _ ⟨_, -, -, rfl⟩
  exact h.busAddress _ _

/-- A device without endpoints that is added, and put in place again when its control endpoint has
been registered. -/
theorem World.Elsewhere.gains {w w₁ : World σ ρ} (haside : w.Elsewhere ran w₁)
    {device device' : Device} {e : Endpoint ρ}
    (hempty : device.endpoints = .replicate Context.maxEndpoints none)
    (hcreated : ∃ traits config ring, e = .create device.owner traits config ring)
    (hregister : device.register e.id ⟨w.endpoints.size⟩ = .ok device') :
    w.Gains ran device' e
      (((w₁.addEndpoint e).addDevice device).putDevice ⟨w.devices.size⟩ device') where
  config_eq := haside.config_eq
  slots_eq := haside.slots_eq
  devices_eq := by
    change (w₁.devices.push device).setIfInBounds w.devices.size device' = _
    rw [haside.devices_eq]
    grind
  endpoints_eq := congrArg (Array.push · e) haside.endpoints_eq
  completions_eq := haside.completions_eq
  waiters_le := haside.waiters_le
  ran_eq := haside.ran_eq
  created := by rwa [Device.owner_of_register hregister]
  endpoint?_eq _ _ hr := Device.eq_of_register_of_empty hempty hregister hr

namespace Host

open HostAttempt (lift)

/-! ### Devices and endpoints come into being -/

theorem newDevice_gains (hmute : env.toPlatform.Mute ran) (owner : Owner) (rootPort : UInt8)
    (route : Option HubRoute) (config : Config) (w : World σ ρ) :
    HostAttempt.AllOrNothing (newDevice env owner rootPort route config) w fun d w' =>
      d = ⟨w.devices.size⟩ ∧ ∃ device e, device.owner = owner ∧ w.Gains ran device e w' := by
  refine (newDevice_makes (BusAttempt.producerRing_mute hmute _ _ _) owner rootPort route).mono
    (fun _ h => h) (fun _ _ h => h) ?_
  rintro _ _ ⟨rfl, ring, bus, device, device', hran, howner, hempty, hregister, rfl⟩
  let e : Endpoint ρ := .create owner (.control owner.speed) config ring
  have hcreated : ∃ traits config ring, e = .create device.owner traits config ring :=
    ⟨.control owner.speed, config, ring, by rw [howner]⟩
  have haside : w.Elsewhere ran { w with bus := { bus with nextBuffer := bus.nextBuffer + 1 } } :=
    ⟨rfl, rfl, rfl, rfl, rfl, Nat.le_refl _, hran⟩
  exact ⟨rfl, device', e, (Device.owner_of_register hregister).trans howner,
    haside.gains hempty hcreated hregister⟩

section

variable (h : c.Admits ran allows env)
include h

/-! ### Slots -/

omit h in
theorem assign_binds (hmute : env.toPlatform.Mute ran) (slot : UInt8) (d : DeviceRef)
    (w : World σ ρ) :
    HostAttempt.Ends (assign env slot d) w (w.Elsewhere ran) (fun _ => w.Elsewhere ran)
      fun _ w' => ∃ w₁ context slots, w.Elsewhere ran w₁ ∧
        w₁.controller.slots.assign slot d context = .ok slots ∧ w' = w₁.setSlots slots := by
  have htranslated : ∀ id, w.Elsewhere ran (w.translated env id) := fun id =>
    ⟨rfl, rfl, rfl, rfl, rfl, Nat.le_refl _, hmute.busAddress id _⟩
  refine (assign_ends env slot d w).mono ?_ ?_ ?_
  · rintro _ rfl
    exact ⟨rfl, rfl, rfl, rfl, rfl, Nat.le_refl _, rfl⟩
  · rintro error w' (⟨rfl, -⟩ | ⟨id, context, rfl, -⟩)
    · exact ⟨rfl, rfl, rfl, rfl, rfl, Nat.le_refl _, rfl⟩
    · exact htranslated id
  · rintro _ _ ⟨id, context, slots, hassign, rfl⟩
    exact ⟨w.translated env id, context, slots, htranslated id, hassign, rfl⟩

/-- A device is shut down when its slot has been freed. -/
theorem obeys_shutdown {w : World σ ρ} {slot : UInt8} {d : DeviceRef}
    {occupant : Option DeviceRef} {slots : SlotTable}
    (hfree : w.controller.slots.free slot = .ok (occupant, slots))
    (hd : ∀ device, w.devices[d.index]? = some device → slot = device.owner.slot ∨
      occupant = some d) :
    HostM.Ends (shutdown env d) (w.setSlots slots) (c.Leads w) fun _ => c.Leads w := by
  cases hdevice : w.devices[d.index]? with
  | none =>
    have hnone : (w.setSlots slots).devices[d.index]? = none := hdevice
    exact HostM.ends_of_error (HostM.bind_of_error (device_none hnone)) (h.free hfree)
  | some device =>
    have hsome : (w.setSlots slots).devices[d.index]? = some device := hdevice
    have hset : (HostM.setDevice d device.unregisterAll.2 : HostM σ ρ Unit) (w.setSlots slots) =
        .ok () ((w.setSlots slots).putDevice d device.unregisterAll.2) := rfl
    have hrest : (do return (← device.unregisterAll.1.mapM (invalidate env)).foldr (· + ·) 0 :
        HostM σ ρ Nat).Obeys c :=
      (HostM.Obeys.mapM fun r => obeys_invalidate h r).bind fun _ => .pure _
    exact HostM.ends_bind_of_ok (device_eq hsome) (HostM.ends_bind_of_ok hset
      (hrest.continued (h.release hfree hdevice (hd device hdevice))))

theorem obeys_releaseSlot (slot : UInt8) : (releaseSlot env slot).Obeys c :=
  (obeys_disableSlot h slot).map _

theorem obeys_abandonSlot (slot : UInt8) : (abandonSlot env slot).Obeys c := by
  intro w
  have hrelease : (releaseSlot env slot).Obeys c := obeys_releaseSlot h slot
  cases hfree : w.controller.slots.free slot with
  | error error =>
    exact HostM.ends_bind_of_ok (freeSlot_refused hfree) (hrelease w)
  | ok result =>
    obtain ⟨occupant, slots⟩ := result
    refine HostM.ends_bind_of_ok (freeSlot_freed hfree) ?_
    cases occupant with
    | none => exact hrelease.continued (h.free hfree)
    | some d =>
      exact (obeys_shutdown h hfree fun _ _ => .inr rfl).bind fun _ _ hw' =>
        hrelease.continued hw'

/-! ### Attaching and detaching -/

/-- A new device is bound to its slot and addressed. -/
theorem address_leads {w w' : World σ ρ} {device : Device} {e : Endpoint ρ}
    (hgains : w.Gains ran device e w') :
    HostM.Ends (address env device.owner.slot ⟨w.devices.size⟩).run w' (c.Leads w)
      fun _ => c.Leads w := by
  have helsewhere : ∀ w₁, w'.Elsewhere ran w₁ → c.Leads w w₁ := fun w₁ haside =>
    h.newDevice (hgains.trans haside)
  refine HostAttempt.Ends.run (HostAttempt.Ends.bind ((assign_binds h.mute device.owner.slot
    ⟨w.devices.size⟩ w').mono helsewhere (fun _ => helsewhere) fun _ _ hbinds => hbinds) ?_)
  rintro _ _ ⟨w₁, context, slots, haside, hassign, rfl⟩
  have hsettled := h.settle (hgains.trans haside) hassign
  have haddress : (withInput (addressInput ⟨w.devices.size⟩) fun input =>
      addressDevice env device.owner.slot input true).run.Obeys c :=
    obeys_withInput h (makesInput_addressInput _) fun input => obeys_inputCommand h input _
  exact HostAttempt.ends_of_run (haddress.continued hsettled)

theorem obeys_attach (rootPort : UInt8) (speed : Speed) (route : Option HubRoute) :
    (attach env rootPort speed route).run.Obeys c := by
  have hid : (newDeviceId : HostM σ ρ DeviceId).Obeys c := fun _ =>
    h.elsewhere ⟨rfl, rfl, rfl, rfl, rfl, Nat.le_refl _, rfl⟩
  refine .attempt_bind (obeys_enableSlot h) fun slot => .attempt_bind (.lift hid) fun id =>
    .attempt_bind (.lift .controller) fun controller => fun w => HostAttempt.Ends.run ?_
  have hnew := newDevice_gains h.mute ⟨id, slot, speed, sink controller⟩ rootPort route
    controller.config w
  refine HostAttempt.Ends.bind (HostAttempt.ends_lift (hnew.ends (c.refl w) (fun _ => c.refl w)
    fun _ _ hmade => hmade)) ?_
  intro made w' hmade
  cases made with
  | error error =>
    have hrest : (do lift (releaseSlot env slot); throw error : HostAttempt σ ρ DeviceRef).run.Obeys
        c := .attempt_bind (.lift (obeys_releaseSlot h slot)) fun _ => .refuse error
    exact HostAttempt.ends_of_run (hrest.continued hmade)
  | ok d =>
    obtain ⟨rfl, device, e, howner, hgains⟩ := hmade
    have haddress := address_leads h hgains
    rw [howner] at haddress
    refine HostAttempt.Ends.bind (HostAttempt.ends_lift haddress) fun addressed w₁ hw₁ => ?_
    cases addressed with
    | error error =>
      have hrest : (do lift (abandonSlot env slot); throw error :
          HostAttempt σ ρ DeviceRef).run.Obeys c :=
        .attempt_bind (.lift (obeys_abandonSlot h slot)) fun _ => .refuse error
      exact HostAttempt.ends_of_run (hrest.continued hw₁)
    | ok _ => exact hw₁

theorem obeys_flushParked (device : DeviceId) :
    (flushParked device : HostM σ ρ Nat).Obeys c := by
  intro w
  obtain ⟨n, hrun⟩ := flushParked_eq device w
  exact HostM.ends_of_ok hrun (h.flush w device)

theorem obeys_detach (d : DeviceRef) : (detach env d).run.Obeys c := by
  intro w
  cases hd : w.devices[d.index]? with
  | none =>
    have hfault := HostAttempt.lift_of_error (device_none hd)
    exact HostM.ends_of_error (HostAttempt.bind_of_error hfault) (c.refl w)
  | some device =>
    have hrest : (do
        let _ ← lift (flushParked device.owner.device)
        disableSlot env device.owner.slot : HostAttempt σ ρ Unit).run.Obeys c :=
      .attempt_bind (.lift (obeys_flushParked h _)) fun _ => obeys_disableSlot h _
    refine HostAttempt.Ends.run (HostAttempt.ends_bind_of_ok
      (HostAttempt.lift_of_ok (device_eq hd)) ?_)
    cases hfree : w.controller.slots.free device.owner.slot with
    | error error =>
      exact HostAttempt.ends_of_refused (HostAttempt.bind_of_refused (freeSlot_refused hfree))
        (c.refl w)
    | ok result =>
      obtain ⟨occupant, slots⟩ := result
      have hshutdown := obeys_shutdown h (d := d) hfree fun device' hd' =>
        .inl (by rw [Option.some.inj (hd'.symm.trans hd)])
      exact HostAttempt.ends_bind_of_ok (freeSlot_freed hfree)
        ((HostAttempt.ends_lift hshutdown).bind fun _ _ hw' =>
          HostAttempt.ends_of_run (hrest.continued hw'))

/-! ### Configuring endpoints -/

theorem obeys_configure (d : DeviceRef) (descriptor : EndpointDescriptor) :
    (configure env d descriptor).run.Obeys c := by
  intro w
  cases hd : w.devices[d.index]? with
  | none =>
    have hfault := HostAttempt.lift_of_error (device_none hd)
    exact HostM.ends_of_error (HostAttempt.bind_of_error hfault) (c.refl w)
  | some device =>
    have hlook : (lift HostM.controller : HostAttempt σ ρ _).run w =
        .ok (.ok w.controller) w := rfl
    refine HostAttempt.Ends.run (HostAttempt.ends_bind_of_ok
      (HostAttempt.lift_of_ok (device_eq hd)) (HostAttempt.ends_bind_of_ok hlook ?_))
    refine (newEndpointFor_makes (BusAttempt.producerRing_mute h.mute _ _ _) device.owner
      descriptor).bind_ends (c.refl w) (fun _ => c.refl w) ?_
    rintro _ _ ⟨rfl, traits, ring, bus, hran, rfl⟩
    let w₁ : World σ ρ := { w with bus := bus }
    have haside : w.Elsewhere ran w₁ := ⟨rfl, rfl, rfl, rfl, rfl, Nat.le_refl _, hran⟩
    have hw₁ : c.Leads w w₁ := h.elsewhere haside
    have hmade := h.newEndpoint w₁ device.owner traits w.controller.config ring
    have hcommand : (withInput (configureInput d ⟨w.endpoints.size⟩) fun input =>
        configureEndpoint env device.owner.slot input false).run.Obeys c :=
      obeys_withInput h (makesInput_configureInput d _) fun input => obeys_inputCommand h input _
    -- What the command leads to is remembered from the new endpoint on, for `Admits.register`.
    have hall : ∀ w₂, c.Leads (w₁.addEndpoint
        (.create device.owner traits w.controller.config ring)) w₂ → c.Leads w w₂ :=
      fun w₂ hw₂ => c.trans hw₁ (c.trans hmade hw₂)
    refine HostAttempt.Ends.bind ((HostAttempt.ends_of_run (hcommand _)).mono hall
      (fun _ => hall) fun _ _ hw₂ => hw₂) fun _ w₂ hw₂ => ?_
    refine ((register_gives d ⟨w.endpoints.size⟩ w₂).ends (hall w₂ hw₂) (fun _ => hall w₂ hw₂)
      fun _ _ hgives => hgives).bind fun _ w₃ hw₃ => ?_
    obtain ⟨device₂, e, device₃, hd₂, he, hregister, rfl⟩ := hw₃
    have hd₁ : w₁.devices[d.index]? = some device := by rwa [haside.devices_eq]
    rw [← haside.endpoints_eq] at he hregister
    exact c.trans hw₁ (h.register hd₁ hw₂ hd₂ he hregister)

theorem obeys_setMaxPacketSize (d : DeviceRef) (size : UInt16) :
    (setMaxPacketSize env d size).run.Obeys c :=
  .setMaxPacketSize (h.packetSize size) fun r _ =>
    obeys_withInput h (makesInput_packetSizeInput d r) fun input => obeys_inputCommand h input _

theorem obeys_recoverEndpoint (r : EndpointRef) : (recoverEndpoint env r).run.Obeys c :=
  .attempt_bind (.lift (.endpoint r)) fun _ => .attempt_discard (obeys_command h _)

/-! ### Time and events -/

theorem obeys_processUpTo (limit : Nat) : (processUpTo env limit).Obeys c := by
  induction limit with
  | zero => exact .pure _
  | succ limit ih =>
    intro w
    have hget : (get : HostM σ ρ _) w = .ok w w := rfl
    refine HostM.ends_bind_of_ok hget ?_
    cases hnext : w.completions.bind CompletionQueue.dequeue with
    | none => exact c.refl w
    | some next =>
      obtain ⟨request, queue'⟩ := next
      obtain ⟨queue, hqueue, hdequeue⟩ := Option.bind_eq_some_iff.1 hnext
      have htake : (modify fun w => { w with completions := some queue' } : HostM σ ρ Unit) w =
          .ok () { w with completions := some queue' } := rfl
      have hrest : (do return (← processUpTo env limit) + 1 : HostM σ ρ Nat).Obeys c :=
        ih.bind fun _ => .pure _
      exact HostM.ends_bind_of_ok htake ((h.dequeue hqueue hdequeue).bind fun _ _ hw' =>
        hrest.continued hw')

theorem obeys_processCompletions : (processCompletions env).Obeys c :=
  (HostM.Obeys.look.bind fun _ => .pure _).bind fun _ => obeys_processUpTo h _

theorem obeys_pollTimeouts : (pollTimeouts env).Obeys c :=
  .pollTimeouts (obeys_pollEndpoint h)

theorem obeys_slotEvent (event : TransferEvent) : (slotEvent env event).Obeys c :=
  .slotEvent (obeys_transferEvent h) event

theorem obeys_handleInterrupt : (handleInterrupt env).Obeys c :=
  .handleInterrupt
    (.nextEvent? fun _ _ => h.elsewhere ⟨rfl, rfl, rfl, rfl, rfl, Nat.le_refl _, rfl⟩)
    (.dispatch (obeys_slotEvent h) (obeys_commandCompleted h) h.portChanged) fun address _ =>
      h.elsewhere
        ⟨rfl, rfl, rfl, rfl, rfl, Nat.le_refl _, h.mute.writeEventDequeue address _⟩

end

end Host

/-- Every operation of a host is made of changes that the conduct admits. -/
theorem Call.obeys (h : c.Admits ran allows env) (call : Call ρ α) (hfits : call.Fits allows) :
    (call.run env).Obeys c := by
  cases call with
  | checkRunning => exact .attempt_discard (Host.obeys_command h _)
  | interrupt => exact Host.obeys_handleInterrupt h
  | attach rootPort speed route => exact Host.obeys_attach h rootPort speed route
  | detach d => exact Host.obeys_detach h d
  | configure d descriptor => exact Host.obeys_configure h d descriptor
  | setMaxPacketSize d size => exact Host.obeys_setMaxPacketSize h d size
  | recoverEndpoint r => exact Host.obeys_recoverEndpoint h r
  | processCompletions => exact Host.obeys_processCompletions h
  | pollTimeouts => exact Host.obeys_pollTimeouts h
  | listen => exact Host.obeys_aside h fun _ => ⟨rfl, rfl, rfl, rfl, rfl, Nat.le_refl _, rfl⟩
  | transferAsync r request timeout => exact Host.obeys_transferAsync h r request timeout hfits
  | transfer r request timeout => exact Host.obeys_transfer h r request timeout
  | cancel r id => exact Host.obeys_cancel h r id
  | pollEndpoint now r => exact Host.obeys_pollEndpoint h now r
  | transferEvent r event => exact Host.obeys_transferEvent h r event
  | invalidate r => exact Host.obeys_invalidate h r
  | slotEvent event => exact Host.obeys_slotEvent h event
  | commandCompleted address code slot => exact Host.obeys_commandCompleted h address code slot
  | enableSlot => exact Host.obeys_enableSlot h
  | disableSlot slot => exact Host.obeys_disableSlot h slot
  | stopEndpoint slot endpoint suspend => exact .attempt_discard (Host.obeys_command h _)
  | resetEndpoint slot endpoint => exact .attempt_discard (Host.obeys_command h _)

end UsbHost
