import UsbHost.Proofs.Host.Inputs

/-!
Devices and their endpoints, in moves. An endpoint that a call creates is on a new ring, and no
other task knows it before the call registers it. Every operation that a host offers is made of
moves, and so is every program.
-/

namespace UsbHost

variable {σ ρ α : Type} {m : AddressMap σ} {managing : Bool}

namespace BusAttempt

/-- A new ring lies in memory that has not been used before, wherever the platform puts it. -/
theorem producerRing_makes (p : Platform σ) (kind : Ring.Kind) (count : Nat) (b : Bus σ) :
    HostAttempt.AllOrNothing (producerRing p kind count) b fun ring b' =>
      ∃ layout, (Ring.layout count).run = .ok (.ok layout) ∧
        ring = .create kind count (p.busAddress ⟨b.nextBuffer⟩ b.platform).1 ∧
        b' = ⟨(p.busAddress ⟨b.nextBuffer⟩ b.platform).2, b.nextBuffer + 1⟩ := by
  have hlayout : HostAttempt.Ends (ofAttempt (Ring.layout count) : BusAttempt σ _) b (· = b)
      (fun _ => (· = b)) fun layout b' => b' = b ∧ (Ring.layout count).run = .ok (.ok layout) :=
    ends_ofAttempt (fun _ _ => rfl) (fun _ _ => rfl) fun _ h => ⟨rfl, h⟩
  have hmemory : HostAttempt.AllOrNothing (ringMemory p count) b fun base b' =>
      ∃ layout, (Ring.layout count).run = .ok (.ok layout) ∧
        base = (p.busAddress ⟨b.nextBuffer⟩ b.platform).1 ∧
        b' = ⟨(p.busAddress ⟨b.nextBuffer⟩ b.platform).2, b.nextBuffer + 1⟩ := by
    refine HostAttempt.Ends.bind hlayout ?_
    rintro layout _ ⟨rfl, h⟩
    exact ⟨layout, h, rfl, rfl⟩
  refine HostAttempt.Ends.bind hmemory ?_
  rintro _ _ ⟨layout, h, rfl, rfl⟩
  exact ⟨layout, h, rfl, rfl⟩

theorem producerRing_gives {p : Platform σ} (hp : p.Respects m) (kind : Ring.Kind) (count : Nat)
    (b : Bus σ) :
    HostAttempt.AllOrNothing (producerRing p kind count) b fun ring b' =>
      ∃ layout base, (Ring.layout count).run = .ok (.ok layout) ∧ Ring.Fits base count ∧
        b.nextBuffer ≤ b'.nextBuffer ∧ m.Extends b.platform b'.platform ∧
        ring = .create kind count base := by
  refine (producerRing_makes p kind count b).mono (fun _ h => h) (fun _ _ h => h) ?_
  rintro _ _ ⟨layout, h, rfl, rfl⟩
  have hbase := hp.fits ⟨b.nextBuffer⟩ b.platform
  have hsize := (Ring.layout_bounds h).2.2
  have hfits : Ring.Fits (p.busAddress ⟨b.nextBuffer⟩ b.platform).1 count := by
    rw [Ring.Fits]
    omega
  exact ⟨layout, _, h, hfits, Nat.le_succ _, hp.busAddress _ _, rfl⟩

end BusAttempt

/-- The bus address of a buffer has been looked up. -/
def World.translated (w : World σ ρ) (env : Env σ ρ) (id : Dma.BufferId) : World σ ρ :=
  { w with bus.platform := (env.busAddress id w.bus.platform).2 }

/-- The world in which no request of a device is parked. -/
def World.flushed (w : World σ ρ) (device : DeviceId) : World σ ρ :=
  { w with completions := w.completions.map fun queue => (queue.flushOwner device).2 }

namespace Host

open HostAttempt (lift)

variable {env : Env σ ρ}

/-! ### Devices and endpoints come into being -/

/-- A new endpoint is on the ring that has been made for it. -/
theorem newEndpoint_makes {Q : ProducerRing → Bus σ → Prop} {config : Config} {w : World σ ρ}
    (hring : HostAttempt.AllOrNothing
      (BusAttempt.producerRing env.toPlatform .transfer config.transferRingSize) w.bus Q)
    (owner : Owner) (traits : EndpointTraits) :
    HostAttempt.AllOrNothing (newEndpoint env owner traits config) w fun r w' =>
      r = ⟨w.endpoints.size⟩ ∧ ∃ ring bus, Q ring bus ∧
        w' = World.addEndpoint { w with bus := bus } (.create owner traits config ring) := by
  refine HostAttempt.Ends.bind (HostAttempt.onBus_gives hring) ?_
  rintro ring _ ⟨bus, hbus, rfl⟩
  exact ⟨rfl, ring, bus, hbus, rfl⟩

theorem newEndpointFor_makes {Q : ProducerRing → Bus σ → Prop} {config : Config} {w : World σ ρ}
    (hring : HostAttempt.AllOrNothing
      (BusAttempt.producerRing env.toPlatform .transfer config.transferRingSize) w.bus Q)
    (owner : Owner) (descriptor : EndpointDescriptor) :
    HostAttempt.AllOrNothing (newEndpointFor env owner config descriptor) w fun r w' =>
      r = ⟨w.endpoints.size⟩ ∧ ∃ traits ring bus, Q ring bus ∧
        w' = World.addEndpoint { w with bus := bus } (.create owner traits config ring) := by
  refine HostAttempt.AllOrNothing.bind (HostAttempt.ends_of_run rfl) fun traits => ?_
  refine (newEndpoint_makes hring owner traits).mono (fun _ h => h) (fun _ _ h => h) ?_
  rintro r w' ⟨hr, ring, bus, hbus, hw'⟩
  exact ⟨hr, traits, ring, bus, hbus, hw'⟩

theorem newEndpointFor_gives (henv : env.toPlatform.Respects m) (owner : Owner) (config : Config)
    (descriptor : EndpointDescriptor) (w : World σ ρ) :
    HostAttempt.AllOrNothing (newEndpointFor env owner config descriptor) w fun r w' =>
      r = ⟨w.endpoints.size⟩ ∧ ∃ w₁ e, w.Aside m w₁ ∧ e.Fresh ∧ w' = w₁.addEndpoint e := by
  refine (newEndpointFor_makes (BusAttempt.producerRing_gives henv _ _ _) owner descriptor).mono
    (fun _ h => h) (fun _ _ h => h) ?_
  rintro _ _ ⟨rfl, traits, _, bus, ⟨layout, base, hlayout, hfits, hnext, haddresses, rfl⟩, rfl⟩
  exact ⟨rfl, { w with bus := bus }, _, { nextBuffer_le := hnext, addresses := haddresses },
    .create owner traits config base hlayout hfits, rfl⟩

theorem register_gives (d : DeviceRef) (r : EndpointRef) (w : World σ ρ) :
    HostAttempt.AllOrNothing (register d r) w fun _ w' => ∃ device e device',
      w.devices[d.index]? = some device ∧ w.endpoints[r.index]? = some e ∧
        device.register e.id r = .ok device' ∧ w' = w.putDevice d device' := by
  cases hr : w.endpoints[r.index]? with
  | none =>
    exact HostAttempt.ends_of_error
      (HostAttempt.bind_of_error (HostAttempt.lift_of_error (endpoint_none hr))) rfl
  | some e =>
    refine HostAttempt.ends_bind_of_ok (HostAttempt.lift_of_ok (endpoint_eq hr)) ?_
    cases hd : w.devices[d.index]? with
    | none =>
      exact HostAttempt.ends_of_error
        (HostAttempt.bind_of_error (HostAttempt.lift_of_error (device_none hd))) rfl
    | some device =>
      refine HostAttempt.ends_bind_of_ok (HostAttempt.lift_of_ok (device_eq hd)) ?_
      cases hregister : device.register e.id r with
      | error error => exact rfl
      | ok device' => exact ⟨device, e, device', rfl, rfl, hregister, rfl⟩

theorem registered_eq_nil {device : Device}
    (h : device.endpoints = .replicate Context.maxEndpoints none) : device.registered = [] := by
  rw [Device.registered, h]
  rfl

theorem register_run {w : World σ ρ} {d : DeviceRef} {r : EndpointRef} {device device' : Device}
    {e : Endpoint ρ} (hd : w.devices[d.index]? = some device)
    (hr : w.endpoints[r.index]? = some e) (hregister : device.register e.id r = .ok device') :
    (register d r : HostAttempt σ ρ Unit).run w = .ok (.ok ()) (w.putDevice d device') := by
  have hlook : (HostAttempt.ofExcept (device.register e.id r) : HostAttempt σ ρ Device).run w =
      .ok (.ok device') w := by
    rw [hregister]
    rfl
  calc (register d r : HostAttempt σ ρ Unit).run w
      = _ := HostAttempt.bind_of_ok (HostAttempt.lift_of_ok (endpoint_eq hr))
    _ = _ := HostAttempt.bind_of_ok (HostAttempt.lift_of_ok (device_eq hd))
    _ = _ := HostAttempt.bind_of_ok hlook
    _ = .ok (.ok ()) (w.putDevice d device') := rfl

/-- Once its control endpoint has been made, a device comes into being as well. Its context lies in
memory that has not been used before. -/
theorem newDevice_run {w w₁ : World σ ρ} {owner : Owner} {config : Config} {r : EndpointRef}
    {ring : ProducerRing}
    (hmade : (newEndpoint env owner (.control owner.speed) config).run w = .ok (.ok r) w₁)
    (hr : w₁.endpoints[r.index]? = some (.create owner (.control owner.speed) config ring))
    (rootPort : UInt8) (route : Option HubRoute) :
    ∃ device device', device.owner = owner ∧
      device.endpoints = .replicate Context.maxEndpoints none ∧
      device.register controlEndpointId r = .ok device' ∧
      (newDevice env owner rootPort route config).run w = .ok (.ok ⟨w₁.devices.size⟩)
        ((World.addDevice { w₁ with bus.nextBuffer := w₁.bus.nextBuffer + 1 } device).putDevice
          ⟨w₁.devices.size⟩ device') := by
  let w₂ : World σ ρ := { w₁ with bus.nextBuffer := w₁.bus.nextBuffer + 1 }
  let plain : Device :=
    { owner := owner, rootPort := rootPort, contextBuffer := ⟨w₁.bus.nextBuffer⟩ }
  let device := route.elim plain plain.withRoute
  have hmemory : (HostAttempt.onBus (BusAttempt.structureBuffer Context.Device.byteSize) :
      HostAttempt σ ρ _).run w₁ = .ok (.ok ⟨w₁.bus.nextBuffer⟩) w₂ := by
    change HostM.onBus (BusAttempt.structureBuffer Context.Device.byteSize).run w₁ = _
    rw [HostM.onBus, BusAttempt.structureBuffer_run (by decide) (by decide)]
  have hadd : (lift (HostM.addDevice device) : HostAttempt σ ρ DeviceRef).run w₂ =
      .ok (.ok ⟨w₁.devices.size⟩) (w₂.addDevice device) := rfl
  have hd : (w₂.addDevice device).devices[w₁.devices.size]? = some device :=
    World.device_addDevice w₂ device
  obtain ⟨device', hregister⟩ : ∃ device', device.register controlEndpointId r = .ok device' :=
    ⟨_, dif_pos (by decide)⟩
  refine ⟨device, device', by cases route <;> rfl, by cases route <;> rfl, hregister, ?_⟩
  calc (newDevice env owner rootPort route config).run w
      = _ := HostAttempt.bind_of_ok hmade
    _ = _ := HostAttempt.bind_of_ok hmemory
    _ = _ := HostAttempt.bind_of_ok hadd
    _ = _ := HostAttempt.bind_of_ok (register_run (d := ⟨w₁.devices.size⟩) hd hr hregister)
    _ = _ := rfl

/-- A new device is added with its control endpoint, or nothing changes. -/
theorem newDevice_makes {Q : ProducerRing → Bus σ → Prop} {config : Config} {w : World σ ρ}
    (hring : HostAttempt.AllOrNothing
      (BusAttempt.producerRing env.toPlatform .transfer config.transferRingSize) w.bus Q)
    (owner : Owner) (rootPort : UInt8) (route : Option HubRoute) :
    HostAttempt.AllOrNothing (newDevice env owner rootPort route config) w fun d w' =>
      d = ⟨w.devices.size⟩ ∧ ∃ ring bus device device', Q ring bus ∧ device.owner = owner ∧
        device.endpoints = .replicate Context.maxEndpoints none ∧
        device.register controlEndpointId ⟨w.endpoints.size⟩ = .ok device' ∧
        w' = ((World.addEndpoint { w with bus := { bus with nextBuffer := bus.nextBuffer + 1 } }
          (.create owner (.control owner.speed) config ring)).addDevice device).putDevice
            ⟨w.devices.size⟩ device' := by
  have hmakes := newEndpoint_makes hring owner (.control owner.speed)
  rcases hmade : (newEndpoint env owner (.control owner.speed) config).run w with
    ⟨error | r, w₁⟩ | ⟨fault, w₁⟩
  · exact HostAttempt.ends_of_refused (HostAttempt.bind_of_refused hmade) (hmakes.of_refused hmade)
  · obtain ⟨rfl, ring, bus, hbus, rfl⟩ := hmakes.of_ok hmade
    obtain ⟨device, device', howner, hempty, hregister, hrun⟩ :=
      newDevice_run hmade (World.endpoint_addEndpoint ..) rootPort route
    exact HostAttempt.ends_of_ok hrun
      ⟨rfl, ring, bus, device, device', hbus, howner, hempty, hregister, rfl⟩
  · exact HostAttempt.ends_of_error (HostAttempt.bind_of_error hmade) (hmakes.of_error hmade)

/-- A new device with its control endpoint: nothing but these two objects has come into being. -/
structure NewDevice (m : AddressMap σ) (w w' : World σ ρ) : Prop where
  made : ∃ (w₁ w₂ : World σ ρ) (e : Endpoint ρ) (device device' : Device) (id : UInt8),
    w.Aside m w₁ ∧ e.Fresh ∧ (w₁.addEndpoint e).Aside m w₂ ∧ device.registered = [] ∧
      device.register id ⟨w.endpoints.size⟩ = .ok device' ∧
      w' = (w₂.addDevice device).putDevice ⟨w.devices.size⟩ device'

theorem newDevice_gives (henv : env.toPlatform.Respects m) (owner : Owner) (rootPort : UInt8)
    (route : Option HubRoute) (config : Config) (w : World σ ρ) :
    HostAttempt.AllOrNothing (newDevice env owner rootPort route config) w fun d w' =>
      d = ⟨w.devices.size⟩ ∧ NewDevice m w w' := by
  refine (newDevice_makes (BusAttempt.producerRing_gives henv _ _ _) owner rootPort route).mono
    (fun _ h => h) (fun _ _ h => h) ?_
  rintro _ _ ⟨rfl, _, bus, device, device',
    ⟨layout, base, hlayout, hfits, hnext, haddresses, rfl⟩, -, hempty, hregister, rfl⟩
  let w₁ : World σ ρ := { w with bus := bus }
  let e : Endpoint ρ :=
    .create owner (.control owner.speed) config (.create .transfer config.transferRingSize base)
  let w₂ : World σ ρ := { w₁.addEndpoint e with bus.nextBuffer := bus.nextBuffer + 1 }
  have haside₁ : w.Aside m w₁ := { nextBuffer_le := hnext, addresses := haddresses }
  have haside₂ : (w₁.addEndpoint e).Aside m w₂ := { nextBuffer_le := Nat.le_succ _ }
  exact ⟨rfl, w₁, w₂, e, device, device', controlEndpointId, haside₁,
    .create owner _ config base hlayout hfits, haside₂, registered_eq_nil hempty, hregister, rfl⟩

theorem NewDevice.moves {w w' : World σ ρ} (h : NewDevice m w w') (hmanaging : managing = true) :
    Moves m managing w w' := by
  obtain ⟨w₁, w₂, e, device, device', id, haside, hfresh, haside₂, hnone, hset, rfl⟩ := h.made
  have hendpoints : w₁.endpoints.size = w.endpoints.size := congrArg Array.size haside.endpoints_eq
  have hdevices : w₂.devices.size = w.devices.size :=
    congrArg Array.size (haside₂.devices_eq.trans haside.devices_eq)
  rw [← hendpoints] at hset
  refine (Moves.aside haside).trans (.register hmanaging hfresh
    ((Moves.aside haside₂).trans (.newDevice w₂ hnone)) ?_ hset)
  rw [← hdevices, World.device_addDevice]

theorem moves_newDevice (henv : env.OnlyMoves m managing) (hmanaging : managing = true)
    (owner : Owner) (rootPort : UInt8) (route : Option HubRoute) (config : Config) :
    (newDevice env owner rootPort route config).run.Obeys (.moves m managing) :=
  fun w => HostAttempt.Ends.run ((newDevice_gives henv.platform owner rootPort route config w).ends
    (.refl w) (fun _ => .refl w) fun _ _ h => h.2.moves hmanaging)

/-! ### Slots -/

section

variable {w : World σ ρ} {slot : UInt8} {d : DeviceRef} {i : Nat}

theorem assign_refused (env : Env σ ρ) {error : Error}
    (h : w.controller.slots.index slot = .error error) :
    (assign env slot d).run w = .ok (.error error) w := by
  have hlook : (lift HostM.controller : HostAttempt σ ρ _).run w =
      .ok (.ok w.controller) w := rfl
  unfold assign
  rw [HostAttempt.bind_of_ok hlook, h]
  rfl

/-- Before anything else, the place of the slot is looked up. -/
theorem assign_placed (env : Env σ ρ) (h : w.controller.slots.index slot = .ok i) :
    (assign env slot d).run w = (do
      let memory := (← lift (HostM.device d)).contextBuffer
      let context ← lift (HostM.translate env memory)
      let slots ← HostAttempt.ofExcept ((← lift HostM.controller).slots.assign slot d context)
      lift (HostM.setSlots slots) : HostAttempt σ ρ Unit).run w := by
  have hlook : (lift HostM.controller : HostAttempt σ ρ _).run w =
      .ok (.ok w.controller) w := rfl
  unfold assign
  rw [HostAttempt.bind_of_ok hlook, h]
  rfl

theorem assign_missing (env : Env σ ρ) (h : w.controller.slots.index slot = .ok i)
    (hd : w.devices[d.index]? = none) :
    (assign env slot d).run w = .error .outOfBounds w := by
  rw [assign_placed env h]
  exact HostAttempt.bind_of_error (HostAttempt.lift_of_error (device_none hd))

/-- The memory of a device is looked up, and the device is bound. -/
theorem assign_run (env : Env σ ρ) (h : w.controller.slots.index slot = .ok i) {device : Device}
    (hd : w.devices[d.index]? = some device) :
    (assign env slot d).run w =
      match w.controller.slots.assign slot d
        (env.busAddress device.contextBuffer w.bus.platform).1 with
      | .error error => .ok (.error error) (w.translated env device.contextBuffer)
      | .ok slots => .ok (.ok ()) ((w.translated env device.contextBuffer).setSlots slots) := by
  have htranslate : (lift (HostM.translate env device.contextBuffer) :
      HostAttempt σ ρ UInt64).run w = .ok (.ok (env.busAddress device.contextBuffer
        w.bus.platform).1) (w.translated env device.contextBuffer) := rfl
  have hlook : (lift HostM.controller : HostAttempt σ ρ _).run
      (w.translated env device.contextBuffer) =
      .ok (.ok w.controller) (w.translated env device.contextBuffer) := rfl
  rw [assign_placed env h, HostAttempt.bind_of_ok (HostAttempt.lift_of_ok (device_eq hd)),
    HostAttempt.bind_of_ok htranslate, HostAttempt.bind_of_ok hlook]
  cases w.controller.slots.assign slot d (env.busAddress device.contextBuffer w.bus.platform).1 with
  | error error => rfl
  | ok slots => rfl

end

theorem assign_ends (env : Env σ ρ) (slot : UInt8) (d : DeviceRef) (w : World σ ρ) :
    HostAttempt.Ends (assign env slot d) w (· = w)
      (fun error w' => (w' = w ∧ w.controller.slots.index slot = .error error) ∨
        ∃ id context, w' = w.translated env id ∧
          w.controller.slots.assign slot d context = .error error)
      fun _ w' => ∃ id context slots, w.controller.slots.assign slot d context = .ok slots ∧
        w' = (w.translated env id).setSlots slots := by
  cases hi : w.controller.slots.index slot with
  | error error =>
    exact HostAttempt.ends_of_refused (assign_refused env hi) (.inl ⟨rfl, rfl⟩)
  | ok i =>
    cases hd : w.devices[d.index]? with
    | none => exact HostAttempt.ends_of_error (assign_missing env hi hd) rfl
    | some device =>
      have hrun := assign_run env hi hd
      split at hrun
      · rename_i error hassign
        exact HostAttempt.ends_of_refused hrun (.inr ⟨_, _, rfl, hassign⟩)
      · rename_i slots hassign
        exact HostAttempt.ends_of_ok hrun ⟨_, _, slots, hassign, rfl⟩

theorem moves_assign (henv : env.OnlyMoves m managing) (hmanaging : managing = true)
    (slot : UInt8) (d : DeviceRef) : (assign env slot d).run.Obeys (.moves m managing) := by
  intro w
  have htranslated : ∀ id, Moves m managing w (w.translated env id) := fun id =>
    .aside ⟨rfl, rfl, rfl, rfl, rfl, Nat.le_refl _, henv.platform.busAddress id _⟩
  refine ((assign_ends env slot d w).mono ?_ ?_ ?_).run
  · rintro _ rfl
    exact .refl _
  · rintro error w' (⟨rfl, -⟩ | ⟨id, context, rfl, -⟩)
    · exact .refl _
    · exact htranslated id
  · rintro _ _ ⟨id, context, slots, hassign, rfl⟩
    exact (htranslated id).trans (.assign hmanaging hassign)

section

variable {w : World σ ρ} {slot : UInt8}

theorem freeSlot_refused {error : Error} (h : w.controller.slots.free slot = .error error) :
    (freeSlot slot : HostAttempt σ ρ _).run w = .ok (.error error) w := by
  have hlook : (lift HostM.controller : HostAttempt σ ρ _).run w =
      .ok (.ok w.controller) w := rfl
  unfold freeSlot
  rw [HostAttempt.bind_of_ok hlook, h]
  rfl

/-- The device in a slot comes out of it. -/
theorem freeSlot_freed {occupant : Option DeviceRef} {slots : SlotTable}
    (h : w.controller.slots.free slot = .ok (occupant, slots)) :
    (freeSlot slot : HostAttempt σ ρ _).run w = .ok (.ok occupant) (w.setSlots slots) := by
  have hlook : (lift HostM.controller : HostAttempt σ ρ _).run w =
      .ok (.ok w.controller) w := rfl
  unfold freeSlot
  rw [HostAttempt.bind_of_ok hlook, h]
  rfl

end

theorem moves_freeSlot (hmanaging : managing = true) (slot : UInt8) :
    (freeSlot slot : HostAttempt σ ρ _).run.Obeys (.moves m managing) := by
  intro w
  cases h : w.controller.slots.free slot with
  | error error => exact HostM.ends_of_ok (freeSlot_refused h) (.refl w)
  | ok result => exact HostM.ends_of_ok (freeSlot_freed h) (.free hmanaging h)

theorem moves_shutdown (henv : env.OnlyMoves m managing) (hmanaging : managing = true)
    (d : DeviceRef) : (shutdown env d).Obeys (.moves m managing) := by
  intro w
  cases hd : w.devices[d.index]? with
  | none => exact HostM.ends_of_error (HostM.bind_of_error (device_none hd)) (.refl w)
  | some device =>
    have hset : (HostM.setDevice d device.unregisterAll.2 : HostM σ ρ Unit) w =
        .ok () (w.putDevice d device.unregisterAll.2) := rfl
    have hrest : (device.unregisterAll.1.mapM (invalidate env)).Obeys (.moves m managing) :=
      .mapM fun r => moves_invalidate henv hmanaging r
    exact HostM.ends_bind_of_ok (device_eq hd) (HostM.ends_bind_of_ok hset
      ((Moves.unregister hmanaging hd).before ((hrest.bind fun _ => .pure _) _)))

/-! ### Attaching and detaching -/

theorem moves_releaseSlot (henv : env.OnlyMoves m managing) (slot : UInt8) :
    (releaseSlot env slot).Obeys (.moves m managing) :=
  .map _ (moves_disableSlot henv slot)

theorem moves_newDeviceId : (newDeviceId : HostM σ ρ DeviceId).Obeys (.moves m managing) :=
  fun _ => .aside ⟨rfl, rfl, rfl, rfl, rfl, Nat.le_refl _, .refl m _⟩

theorem moves_address (henv : env.OnlyMoves m managing) (hmanaging : managing = true)
    (slot : UInt8) (d : DeviceRef) : (address env slot d).run.Obeys (.moves m managing) :=
  .attempt_bind (moves_assign henv hmanaging slot d) fun _ =>
    moves_withInput (makesInput_addressInput d) (usesInput_addressDevice henv slot true)

theorem moves_abandonSlot (henv : env.OnlyMoves m managing) (hmanaging : managing = true)
    (slot : UInt8) : (abandonSlot env slot).Obeys (.moves m managing) := by
  refine (moves_freeSlot hmanaging slot).bind fun result => ?_
  rcases result with error | (_ | d)
  · exact moves_releaseSlot henv slot
  · exact moves_releaseSlot henv slot
  · exact (moves_shutdown henv hmanaging d).bind fun _ => moves_releaseSlot henv slot

theorem moves_attach (henv : env.OnlyMoves m managing) (hmanaging : managing = true)
    (rootPort : UInt8) (speed : Speed) (route : Option HubRoute) :
    (attach env rootPort speed route).run.Obeys (.moves m managing) := by
  refine .attempt_bind (moves_enableSlot henv) fun slot =>
    .attempt_bind (.lift moves_newDeviceId) fun id =>
    .attempt_bind (.lift .controller) fun c =>
    .attempt_bind (.lift (moves_newDevice henv hmanaging _ _ _ _)) fun made => ?_
  cases made with
  | error error =>
    exact .attempt_bind (.lift (moves_releaseSlot henv slot)) fun _ => .refuse error
  | ok d =>
    refine .attempt_bind (.lift (moves_address henv hmanaging slot d)) fun addressed => ?_
    cases addressed with
    | error error =>
      exact .attempt_bind (.lift (moves_abandonSlot henv hmanaging slot)) fun _ =>
        .refuse error
    | ok _ => exact .attempt_pure d

/-- Dropping parked requests touches nothing but the queue they are in. -/
theorem flushParked_eq (device : DeviceId) (w : World σ ρ) :
    ∃ n, (flushParked device : HostM σ ρ Nat) w = .ok n (w.flushed device) := by
  obtain ⟨bus, controller, devices, endpoints, waiters, inputs, completions⟩ := w
  cases completions with
  | none => exact ⟨0, rfl⟩
  | some queue => exact ⟨(queue.flushOwner device).1, rfl⟩

theorem moves_flushParked (device : DeviceId) :
    (flushParked device : HostM σ ρ Nat).Obeys (.moves m managing) := by
  intro w
  obtain ⟨n, hrun⟩ := flushParked_eq device w
  exact HostM.ends_of_ok hrun (.aside ⟨rfl, rfl, rfl, rfl, rfl, Nat.le_refl _, .refl m _⟩)

theorem moves_detach (henv : env.OnlyMoves m managing) (hmanaging : managing = true)
    (d : DeviceRef) : (detach env d).run.Obeys (.moves m managing) :=
  .attempt_bind (.lift (.device d)) fun device =>
    .attempt_bind (moves_freeSlot hmanaging _) fun _ =>
    .attempt_bind (.lift (moves_shutdown henv hmanaging d)) fun _ =>
    .attempt_bind (.lift (moves_flushParked _)) fun _ =>
    moves_disableSlot henv device.owner.slot

/-! ### Configuring endpoints -/

theorem moves_configure (henv : env.OnlyMoves m managing) (hmanaging : managing = true)
    (d : DeviceRef) (descriptor : EndpointDescriptor) :
    (configure env d descriptor).run.Obeys (.moves m managing) := by
  refine .attempt_bind (.lift (.device d)) fun device =>
    .attempt_bind (.lift .controller) fun c => fun w => HostAttempt.Ends.run ?_
  refine (newEndpointFor_gives henv.platform device.owner c.config descriptor w).bind_ends
    (.refl w) (fun _ => .refl w) ?_
  rintro _ _ ⟨rfl, w₁, e, haside, hfresh, rfl⟩
  have hsize : w₁.endpoints.size = w.endpoints.size := congrArg Array.size haside.endpoints_eq
  rw [← hsize]
  have hbefore : Moves m managing w (w₁.addEndpoint e) :=
    (Moves.aside haside).trans (.newEndpoint w₁ hfresh)
  have hcommand := moves_withInput (makesInput_configureInput d ⟨w₁.endpoints.size⟩)
    (usesInput_configureEndpoint henv device.owner.slot false) (w₁.addEndpoint e)
  refine ((HostAttempt.ends_of_run hcommand).mono (fun _ => hbefore.trans)
    (fun _ _ => hbefore.trans) fun _ _ h => h).bind fun _ w₂ hmoves => ?_
  refine (register_gives d _ w₂).bind_ends (hbefore.trans hmoves) (fun _ => hbefore.trans hmoves) ?_
  -- Others have acted before the endpoint is registered, but they do not know it.
  rintro _ _ ⟨device', e', device'', hdevice, -, hset, rfl⟩
  exact (Moves.aside haside).trans (.register hmanaging hfresh hmoves hdevice hset)

theorem moves_setMaxPacketSize (henv : env.OnlyMoves m managing) (d : DeviceRef)
    (size : UInt16) : (setMaxPacketSize env d size).run.Obeys (.moves m managing) :=
  .setMaxPacketSize (fun hw => .packetSize hw size) fun r _ =>
    moves_withInput (makesInput_packetSizeInput d r) (usesInput_evaluateContext henv _)

theorem moves_recoverEndpoint (henv : env.OnlyMoves m managing) (r : EndpointRef) :
    (recoverEndpoint env r).run.Obeys (.moves m managing) :=
  .attempt_bind (.lift (.endpoint r)) fun e => moves_resetEndpoint henv e.owner.slot e.id

/-! ### Time and events -/

theorem moves_processUpTo (henv : env.OnlyMoves m managing) (limit : Nat) :
    (processUpTo env limit).Obeys (.moves m managing) := by
  induction limit with
  | zero => exact .pure _
  | succ limit ih =>
    refine HostM.Obeys.look.bind fun w => ?_
    split
    · exact .pure _
    · refine HostM.Obeys.bind ?_ fun _ =>
        (HostM.Obeys.callRoutine henv.complete _).bind fun _ => ih.bind fun _ => .pure _
      exact fun _ => .aside ⟨rfl, rfl, rfl, rfl, rfl, Nat.le_refl _, .refl m _⟩

theorem moves_processCompletions (henv : env.OnlyMoves m managing) :
    (processCompletions env).Obeys (.moves m managing) :=
  (HostM.Obeys.look.bind fun _ => .pure _).bind fun _ => moves_processUpTo henv _

theorem moves_pollTimeouts (henv : env.OnlyMoves m managing) :
    (pollTimeouts env).Obeys (.moves m managing) :=
  .pollTimeouts (moves_pollEndpoint henv)

section

variable {w : World σ ρ} {event : TransferEvent} {d : DeviceRef} {device : Device}

/-- Events for an empty slot are dropped. -/
theorem slotEvent_none (env : Env σ ρ) (h : w.controller.slots.device? event.slot = none) :
    slotEvent env event w = .ok false w := by
  have hlook : (HostM.controller : HostM σ ρ _) w = .ok w.controller w := rfl
  rw [slotEvent, HostM.bind_of_ok hlook, h]
  rfl

theorem slotEvent_some (env : Env σ ρ) (h : w.controller.slots.device? event.slot = some d) :
    slotEvent env event w = (do deviceEvent env d event; return true : HostM σ ρ Bool) w := by
  have hlook : (HostM.controller : HostM σ ρ _) w = .ok w.controller w := rfl
  rw [slotEvent, HostM.bind_of_ok hlook, h]

/-- Events for an endpoint that the device does not have are dropped. -/
theorem deviceEvent_none (env : Env σ ρ) (hd : w.devices[d.index]? = some device)
    (h : device.endpoint? event.endpoint = none) : deviceEvent env d event w = .ok () w := by
  rw [deviceEvent, HostM.bind_of_ok (device_eq hd), h]
  rfl

theorem deviceEvent_some (env : Env σ ρ) (hd : w.devices[d.index]? = some device)
    {r : EndpointRef} (h : device.endpoint? event.endpoint = some r) :
    deviceEvent env d event w = transferEvent env r event w := by
  rw [deviceEvent, HostM.bind_of_ok (device_eq hd), h]

end

theorem moves_slotEvent (henv : env.OnlyMoves m managing) (event : TransferEvent) :
    (slotEvent env event).Obeys (.moves m managing) :=
  .slotEvent (moves_transferEvent henv) event

theorem moves_dispatch (henv : env.OnlyMoves m managing) (listening : Bool) (event : Event) :
    (dispatch env listening event).Obeys (.moves m managing) :=
  .dispatch (moves_slotEvent henv) moves_commandCompleted henv.portChanged listening event

theorem moves_handleInterrupt (henv : env.OnlyMoves m managing) :
    (handleInterrupt env).Obeys (.moves m managing) :=
  .handleInterrupt
    (.nextEvent? fun _ _ => .aside ⟨rfl, rfl, rfl, rfl, rfl, Nat.le_refl _, .refl m _⟩)
    (moves_dispatch henv) fun address =>
      moves_onPlatform (henv.platform.writeEventDequeue address)

end Host

end UsbHost
