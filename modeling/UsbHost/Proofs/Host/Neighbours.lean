import UsbHost.Proofs.Endpoint.Closing
import UsbHost.Proofs.Host.Reachable
import UsbHost.Proofs.Slot.Binding

/-!
What an operation on one device leaves alone. Surroundings that do not manage devices change no
binding, and let every device keep its endpoints and every endpoint go on. Shutting a device down
touches its own endpoints only, and calls no completion routine.
-/

namespace UsbHost

variable {σ ρ α : Type} {m : AddressMap σ}

attribute [ext] DeviceRef EndpointRef

theorem Device.mem_registered {d : Device} {r : EndpointRef} :
    r ∈ d.registered ↔ some r ∈ d.endpoints.toList := by
  simp [registered]

theorem Device.registered_register {d d' : Device} {id : UInt8} {r r₀ : EndpointRef}
    (h : d.register id r₀ = .ok d') (hr : r ∈ d'.registered) : r ∈ d.registered ∨ r = r₀ := by
  unfold register at h
  split at h
  · cases h
    rw [mem_registered, Vector.toList_set] at hr
    rcases List.mem_or_eq_of_mem_set hr with hr | hr
    · exact .inl (mem_registered.2 hr)
    · exact .inr (Option.some.inj hr)
  · cases h

namespace World

/-- The device that `d` refers to has the same owner and the same endpoints in both worlds. -/
def SameDevice (d : DeviceRef) (w w' : World σ ρ) : Prop :=
  ∀ device, w.devices[d.index]? = some device → ∃ device', w'.devices[d.index]? = some device' ∧
    device'.owner = device.owner ∧ device'.endpoints = device.endpoints

/-- The endpoint that `r` refers to has gone on from the one world to the other. -/
def GoesOn (r : EndpointRef) (w w' : World σ ρ) : Prop :=
  ∀ e, w.endpoints[r.index]? = some e → ∃ ds e', w'.endpoints[r.index]? = some e' ∧
    e.Continues ds e'

/-- Certain devices are the same, and certain endpoints have gone on. -/
structure Keeps (devices : DeviceRef → Prop) (endpoints : EndpointRef → Prop)
    (w w' : World σ ρ) : Prop where
  device : ∀ d, devices d → SameDevice d w w'
  endpoint : ∀ r, endpoints r → GoesOn r w w'

/-- All devices are the same, and all endpoints have gone on. -/
abbrev KeepsAll (w w' : World σ ρ) : Prop := w.Keeps (fun _ => True) (fun _ => True) w'

variable {w w' w'' : World σ ρ} {devices : DeviceRef → Prop} {endpoints : EndpointRef → Prop}

theorem SameDevice.of_eq {d : DeviceRef} (h : w'.devices[d.index]? = w.devices[d.index]?) :
    SameDevice d w w' :=
  fun device hd => ⟨device, h.trans hd, rfl, rfl⟩

theorem GoesOn.of_eq {r : EndpointRef} (h : w'.endpoints[r.index]? = w.endpoints[r.index]?) :
    GoesOn r w w' :=
  fun e he => ⟨[], e, h.trans he, .refl e⟩

theorem keeps_of_eq (hdevices : w'.devices = w.devices) (hendpoints : w'.endpoints = w.endpoints) :
    w.Keeps devices endpoints w' :=
  ⟨fun _ _ => .of_eq (by rw [hdevices]), fun _ _ => .of_eq (by rw [hendpoints])⟩

theorem Keeps.trans (h : w.Keeps devices endpoints w') (h' : w'.Keeps devices endpoints w'') :
    w.Keeps devices endpoints w'' := by
  constructor
  · intro d hd device hdevice
    obtain ⟨device₁, hdevice₁, howner₁, hendpoints₁⟩ := h.device d hd device hdevice
    obtain ⟨device₂, hdevice₂, howner₂, hendpoints₂⟩ := h'.device d hd device₁ hdevice₁
    exact ⟨device₂, hdevice₂, howner₂.trans howner₁, hendpoints₂.trans hendpoints₁⟩
  · intro r hr e he
    obtain ⟨ds₁, e₁, he₁, hcontinues₁⟩ := h.endpoint r hr e he
    obtain ⟨ds₂, e₂, he₂, hcontinues₂⟩ := h'.endpoint r hr e₁ he₁
    exact ⟨ds₁ ++ ds₂, e₂, he₂, hcontinues₁.trans hcontinues₂⟩

theorem Keeps.weaken (h : w.KeepsAll w') : w.Keeps devices endpoints w' :=
  ⟨fun d _ => h.device d trivial, fun r _ => h.endpoint r trivial⟩

/-- One endpoint takes a step, and the others do nothing. -/
theorem keeps_put {r : EndpointRef} {e e' : Endpoint ρ} {ds : List (Delivery ρ)}
    (hw : w.endpoints[r.index]? = some e) (h : e.Continues ds e') : w.KeepsAll (w.put r e') := by
  refine ⟨fun d _ => .of_eq rfl, fun r' _ e₁ he₁ => ?_⟩
  by_cases hr : r'.index = r.index
  · rw [hr, hw, Option.some.injEq] at he₁
    subst he₁
    exact ⟨ds, e', by simp [hr, hw], h⟩
  · exact ⟨[], e₁, by simpa [hr] using he₁, .refl e₁⟩

theorem keeps_addEndpoint (w : World σ ρ) (e : Endpoint ρ) : w.KeepsAll (w.addEndpoint e) := by
  exact ⟨fun d _ => .of_eq rfl,
    fun r _ e₁ he₁ => ⟨[], e₁, endpoint_addEndpoint_of_some he₁, .refl e₁⟩⟩

theorem keeps_addDevice (w : World σ ρ) (device : Device) : w.KeepsAll (w.addDevice device) := by
  exact ⟨fun d _ device₁ hd => ⟨device₁, device_addDevice_of_some hd, rfl, rfl⟩,
    fun r _ => .of_eq rfl⟩

theorem keeps_writeContext (w : World σ ρ) (d : DeviceRef)
    (f : Context.Device → Context.Device) : w.KeepsAll (w.writeContext d f) := by
  refine ⟨fun d' _ device hdevice => ?_, fun r _ => .of_eq rfl⟩
  obtain ⟨context, hdevice'⟩ := exists_device_writeContext (d := d) (f := f) hdevice
  exact ⟨_, hdevice', rfl, rfl⟩

/-- Another device is replaced. -/
theorem keeps_putDevice (w : World σ ρ) (d : DeviceRef) (device : Device) :
    w.Keeps (· ≠ d) endpoints (w.putDevice d device) := by
  refine ⟨fun d' hne => .of_eq ?_, fun r _ => .of_eq rfl⟩
  exact device_putDevice_of_ne fun heq => hne (DeviceRef.ext heq)

end World

/-- Moves without management change no binding, and keep everything else. -/
theorem Moves.keeps {w w' : World σ ρ} (h : Moves m false w w') :
    w'.controller.slots = w.controller.slots ∧ w.KeepsAll w' := by
  induction h with
  | refl w => exact ⟨rfl, World.keeps_of_eq rfl rfl⟩
  | trans _ _ ih ih' => exact ⟨ih'.1.trans ih.1, ih.2.trans ih'.2⟩
  | aside h => exact ⟨h.slots_eq, World.keeps_of_eq h.devices_eq h.endpoints_eq⟩
  | context w d f => exact ⟨rfl, w.keeps_writeContext d f⟩
  | step hw hstep _ hop =>
    have hgoes := Endpoint.Continues.step (.refl _) hstep (hop.resolve_left Bool.false_ne_true)
    exact ⟨rfl, World.keeps_put hw hgoes⟩
  | packetSize hw size => exact ⟨rfl, World.keeps_put hw (.packetSize (.refl _) size)⟩
  | newEndpoint w _ => exact ⟨rfl, w.keeps_addEndpoint _⟩
  | newDevice w _ => exact ⟨rfl, w.keeps_addDevice _⟩
  | register hmanaging => cases hmanaging
  | unregister hmanaging => cases hmanaging
  | assign hmanaging => cases hmanaging
  | free hmanaging => cases hmanaging
  | turn => exact ⟨rfl, World.keeps_of_eq rfl rfl⟩
  | issue => exact ⟨rfl, World.keeps_of_eq rfl rfl⟩
  | report => exact ⟨rfl, World.keeps_of_eq rfl rfl⟩
  | signal => exact ⟨rfl, World.keeps_of_eq rfl rfl⟩
  | conclude => exact ⟨rfl, World.keeps_of_eq rfl rfl⟩
  | newInput => exact ⟨rfl, World.keeps_of_eq rfl rfl⟩
  | @input w w₁ content _ _ ih =>
    refine ⟨ih.1, ?_⟩
    have hbefore : w.KeepsAll (w.addInput content) := World.keeps_of_eq rfl rfl
    exact (hbefore.trans ih.2).trans (World.keeps_of_eq rfl rfl)

/-! ### Shutting down -/

/-- Certain endpoints have been closed, and nothing else has changed but what is kept for tasks. -/
structure World.Closes (rs : List EndpointRef) (w w' : World σ ρ) : Prop where
  bus_eq : w'.bus = w.bus
  controller_eq : w'.controller = w.controller
  devices_eq : w'.devices = w.devices
  completions_eq : w'.completions = w.completions
  size_eq : w'.endpoints.size = w.endpoints.size
  closed : ∀ r ∈ rs, ∃ e, w'.endpoints[r.index]? = some e ∧ e.Closed
  endpoints_eq : ∀ r ∉ rs, w'.endpoints[r.index]? = w.endpoints[r.index]?

theorem World.Closes.keeps {rs : List EndpointRef} {w w' : World σ ρ}
    {devices : DeviceRef → Prop} (h : w.Closes rs w') : w.Keeps devices (· ∉ rs) w' :=
  ⟨fun _ _ => .of_eq (by rw [h.devices_eq]), fun r hr => .of_eq (h.endpoints_eq r hr)⟩

theorem World.Closes.cons {r : EndpointRef} {rs : List EndpointRef} {w w₁ w₂ : World σ ρ}
    (h : w.Closes [r] w₁) (h' : w₁.Closes rs w₂) : w.Closes (r :: rs) w₂ where
  bus_eq := h'.bus_eq.trans h.bus_eq
  controller_eq := h'.controller_eq.trans h.controller_eq
  devices_eq := h'.devices_eq.trans h.devices_eq
  completions_eq := h'.completions_eq.trans h.completions_eq
  size_eq := h'.size_eq.trans h.size_eq
  closed r' hr' := by
    by_cases hrest : r' ∈ rs
    · exact h'.closed r' hrest
    · rw [h'.endpoints_eq r' hrest, (List.mem_cons.1 hr').resolve_right hrest]
      exact h.closed r (List.mem_singleton.2 rfl)
  endpoints_eq r' hr' := by
    rw [List.mem_cons, not_or] at hr'
    rw [h'.endpoints_eq r' hr'.2, h.endpoints_eq r' fun hmem => hr'.1 (List.mem_singleton.1 hmem)]

namespace Host

variable (env : Env σ ρ)

theorem notify_of_invalidate (e : Endpoint ρ) :
    ∀ d ∈ e.invalidate.1.2, d.notify ≠ .routine := by
  intro d hd
  simpa using (List.mem_filter.1 hd).2

theorem invalidate_run {w : World σ ρ} {r : EndpointRef} {e : Endpoint ρ}
    (hw : w.endpoints[r.index]? = some e) :
    ∃ n w', invalidate env r w = .ok n w' ∧ w.Closes [r] w' := by
  obtain ⟨waiters, hrun⟩ : ∃ waiters, handOn env e.owner e.invalidate.1.2 (w.put r e.invalidate.2) =
      .ok () { w.put r e.invalidate.2 with waiters := waiters } :=
    ⟨_, handOn_of_waiters env e.owner (notify_of_invalidate e) _⟩
  refine ⟨e.invalidate.1.1, { w.put r e.invalidate.2 with waiters := waiters }, ?_, rfl, rfl, rfl,
    rfl, Array.size_setIfInBounds, fun r' hr' => ?_, fun r' hr' => ?_⟩
  · rw [invalidate_eq hw, HostM.bind_of_ok hrun]
    rfl
  · rw [List.mem_singleton.1 hr']
    exact ⟨e.invalidate.2, Array.getElem?_setIfInBounds_self_of_lt
      (Array.getElem?_eq_some_iff.1 hw).1, e.closed_invalidate⟩
  · exact Array.getElem?_setIfInBounds_ne fun heq =>
      hr' (List.mem_singleton.2 (EndpointRef.ext heq.symm))

theorem mapM_invalidate_run (rs : List EndpointRef) (w : World σ ρ)
    (hrs : ∀ r ∈ rs, r.index < w.endpoints.size) :
    ∃ counts w', rs.mapM (invalidate env) w = .ok counts w' ∧ w.Closes rs w' := by
  induction rs generalizing w with
  | nil => exact ⟨[], w, rfl, rfl, rfl, rfl, rfl, rfl, nofun, fun _ _ => rfl⟩
  | cons r rs ih =>
    obtain ⟨hr, hrs⟩ := List.forall_mem_cons.1 hrs
    obtain ⟨n, w₁, hfirst, hfirst'⟩ :=
      invalidate_run env (Array.getElem?_eq_getElem hr)
    rw [← hfirst'.size_eq] at hrs
    obtain ⟨counts, w₂, hrest, hrest'⟩ := ih w₁ hrs
    refine ⟨n :: counts, w₂, ?_, hfirst'.cons hrest'⟩
    rw [List.mapM_cons, HostM.bind_of_ok hfirst, HostM.bind_of_ok hrest]
    rfl

/-- Shutting a device down empties its endpoint table and closes its endpoints. -/
theorem shutdown_run {w : World σ ρ} {d : DeviceRef} {device : Device}
    (hd : w.devices[d.index]? = some device)
    (hrs : ∀ r ∈ device.registered, r.index < w.endpoints.size) :
    ∃ n w', shutdown env d w = .ok n w' ∧
      (w.putDevice d device.unregisterAll.2).Closes device.registered w' := by
  obtain ⟨counts, w', hrun, hcloses⟩ := mapM_invalidate_run env device.registered
    (w.putDevice d device.unregisterAll.2) hrs
  have hset : (HostM.setDevice d device.unregisterAll.2 : HostM σ ρ Unit) w =
      .ok () (w.putDevice d device.unregisterAll.2) := rfl
  refine ⟨counts.foldr (· + ·) 0, w', ?_, hcloses⟩
  rw [shutdown, HostM.bind_of_ok (device_eq hd)]
  exact (HostM.bind_of_ok hset).trans (HostM.bind_of_ok hrun)

/-- Other devices do not notice that a device is shut down after its slot has been freed. -/
theorem shutdown_freed_run {w : World σ ρ} {d : DeviceRef} {device : Device}
    (hd : w.devices[d.index]? = some device)
    (hrs : ∀ r ∈ device.registered, r.index < w.endpoints.size) (slots : SlotTable) :
    ∃ n w', shutdown env d (w.setSlots slots) = .ok n w' ∧
      ((w.setSlots slots).putDevice d device.unregisterAll.2).Closes device.registered w' ∧
      w.Keeps (· ≠ d) (· ∉ device.registered) w' := by
  obtain ⟨n, w', hrun, hcloses⟩ := shutdown_run env (w := w.setSlots slots) hd hrs
  have hfreed : w.Keeps (· ≠ d) (· ∉ device.registered) (w.setSlots slots) :=
    World.keeps_of_eq rfl rfl
  exact ⟨n, w', hrun, hcloses,
    hfreed.trans (((w.setSlots slots).keeps_putDevice d _).trans hcloses.keeps)⟩

end Host

/-! ### What other devices see -/

/-- Certain devices are untouched: each is in the slot where it was, its output context is where
the controller has been told, it has the endpoints it had, and these are unharmed. -/
structure World.Spares (devices : DeviceRef → Prop) (w w' : World σ ρ) : Prop where
  binding_iff : ∀ slot d, devices d →
    (w'.controller.slots.device? slot = some d ↔ w.controller.slots.device? slot = some d)
  context_eq : ∀ slot d, devices d → w.controller.slots.device? slot = some d →
    w'.controller.slots.contexts[slot.toNat]? = w.controller.slots.contexts[slot.toNat]?
  device : ∀ d, devices d → World.SameDevice d w w'
  endpoint : ∀ d device r e, devices d → w.devices[d.index]? = some device →
    r ∈ device.registered → w.endpoints[r.index]? = some e →
    ∃ e', w'.endpoints[r.index]? = some e' ∧ e.Unharmed e'

end UsbHost
