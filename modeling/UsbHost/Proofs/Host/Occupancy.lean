import UsbHost.Proofs.Device.Table
import UsbHost.Proofs.Endpoint.Alignment
import UsbHost.Proofs.Host.Attach
import UsbHost.Proofs.Host.Detach
import UsbHost.Proofs.Host.Inputs
import UsbHost.Proofs.Slot.Publication

/-!
Slots in use. Devices are bound to slots and unbound, the scratchpad pointer is written and transfer
events are handed out, in any order, while devices and endpoints come into being and requests are in
flight. Throughout, the array that the controller reads shows the devices in the slot table, and an
event goes to the endpoint under its ID on the device in its slot, if both are there, and to no
other. What carries this is that the memory of a device's context stays where it is, that the
endpoints that a device names exist, and that no event makes such an endpoint fault.
-/

namespace UsbHost

variable {σ ρ α β : Type} {m : AddressMap σ} {managing : Bool}

/-! ### Where contexts are -/

theorem Device.contextBuffer_of_register {device device' : Device} {id : UInt8} {r : EndpointRef}
    (h : device.register id r = .ok device') : device'.contextBuffer = device.contextBuffer := by
  unfold register at h
  split at h
  · cases h
    rfl
  · cases h

namespace World

/-- The bus address of the context of a device, if the platform has been asked for it. -/
def contextOf? (m : AddressMap σ) (w : World σ ρ) (d : DeviceRef) : Option UInt64 :=
  w.devices[d.index]?.bind fun device => w.address? m device.contextBuffer

/-- Every device keeps the memory of its context. -/
def KeepsMemory (w w' : World σ ρ) : Prop :=
  ∀ (i : Nat) device, w.devices[i]? = some device →
    ∃ device', w'.devices[i]? = some device' ∧ device'.contextBuffer = device.contextBuffer

variable {w w' w'' : World σ ρ}

theorem KeepsMemory.of_eq (h : w'.devices = w.devices) : w.KeepsMemory w' :=
  fun _ device hdevice => ⟨device, by rwa [h], rfl⟩

theorem KeepsMemory.trans (h : w.KeepsMemory w') (h' : w'.KeepsMemory w'') :
    w.KeepsMemory w'' := by
  intro i device hdevice
  obtain ⟨device₁, hdevice₁, hsame₁⟩ := h i device hdevice
  obtain ⟨device₂, hdevice₂, hsame₂⟩ := h' i device₁ hdevice₁
  exact ⟨device₂, hdevice₂, hsame₂.trans hsame₁⟩

theorem keepsMemory_writeContext (w : World σ ρ) (d : DeviceRef)
    (f : Context.Device → Context.Device) : w.KeepsMemory (w.writeContext d f) := by
  intro i device hdevice
  obtain ⟨context, hdevice'⟩ := exists_device_writeContext (d := d) (f := f) hdevice
  exact ⟨_, hdevice', rfl⟩

theorem keepsMemory_addDevice (w : World σ ρ) (device : Device) :
    w.KeepsMemory (w.addDevice device) := by
  intro i device₁ hdevice
  exact ⟨_, device_addDevice_of_some hdevice, rfl⟩

theorem keepsMemory_putDevice {d : DeviceRef} {device device' : Device}
    (hdevice : w.devices[d.index]? = some device)
    (hsame : device'.contextBuffer = device.contextBuffer) :
    w.KeepsMemory (w.putDevice d device') := by
  intro i device₁ hdevice₁
  by_cases hi : i = d.index
  · subst hi
    obtain rfl : device = device₁ := Option.some.inj (hdevice.symm.trans hdevice₁)
    exact ⟨device', by simp [hdevice], hsame⟩
  · exact ⟨device₁, by simpa [hi] using hdevice₁, rfl⟩

end World

theorem Moves.keepsMemory {w w' : World σ ρ} (h : Moves m managing w w') : w.KeepsMemory w' := by
  induction h with
  | refl w => exact .of_eq rfl
  | trans _ _ ih ih' => exact ih.trans ih'
  | aside h => exact .of_eq h.devices_eq
  | context w d f => exact w.keepsMemory_writeContext d f
  | step => exact .of_eq rfl
  | packetSize => exact .of_eq rfl
  | newEndpoint => exact .of_eq rfl
  | newDevice w _ => exact w.keepsMemory_addDevice _
  | register _ _ _ hdevice hregister ih =>
    have hbefore := (World.KeepsMemory.of_eq rfl).trans ih
    exact hbefore.trans
      (World.keepsMemory_putDevice hdevice (Device.contextBuffer_of_register hregister))
  | unregister _ hdevice => exact World.keepsMemory_putDevice hdevice rfl
  | assign => exact .of_eq rfl
  | free => exact .of_eq rfl
  | turn => exact .of_eq rfl
  | issue => exact .of_eq rfl
  | report => exact .of_eq rfl
  | signal => exact .of_eq rfl
  | conclude => exact .of_eq rfl
  | newInput => exact .of_eq rfl
  | input _ _ _ ih => exact ih

/-- A context whose address is known stays there. -/
theorem Moves.contextOf? {w w' : World σ ρ} (h : Moves m managing w w') {d : DeviceRef}
    {address : UInt64} (hd : w.contextOf? m d = some address) :
    w'.contextOf? m d = some address := by
  obtain ⟨device, hdevice, haddress⟩ := Option.bind_eq_some_iff.1 hd
  obtain ⟨device', hdevice', hsame⟩ := h.keepsMemory d.index device hdevice
  refine Option.bind_eq_some_iff.2 ⟨device', hdevice', ?_⟩
  rw [hsame]
  exact h.retains.addresses _ _ haddress

/-! ### Runs -/

/-- What becomes of a host while its slots are in use, with the scratchpad pointers that are written
meanwhile. Handing out an event needs no case of its own: it comes down to a step of an endpoint and
what completion routines do, see `World.Orderly.slotEvent_returns`. -/
inductive World.Occupies (m : AddressMap σ) : List UInt64 → World σ ρ → World σ ρ → Prop
  | refl (w : World σ ρ) : Occupies m [] w w
  | trans {pointers pointers' : List UInt64} {w w₁ w₂ : World σ ρ}
      (h : Occupies m pointers w w₁) (h' : Occupies m pointers' w₁ w₂) :
      Occupies m (pointers ++ pointers') w w₂
  | assign {env : Env σ ρ} (henv : env.toPlatform.Respects m) (slot : UInt8) (d : DeviceRef)
      (w : World σ ρ) : Occupies m [] w (w.after (Host.assign env slot d).run)
  | free (slot : UInt8) (w : World σ ρ) : Occupies m [] w (w.after (Host.freeSlot slot).run)
  | scratchpad (pointer : UInt64) (w : World σ ρ) :
      Occupies m [pointer] w (w.setSlots (w.controller.slots.setScratchpad pointer))
  /-- Devices and endpoints come into being, requests are submitted and events taken in, or whatever
  else leaves the slots as they were. -/
  | elsewhere {w w' : World σ ρ} (h : Moves m true w w')
      (hslots : w'.controller.slots = w.controller.slots) : Occupies m [] w w'

/-- The slots of a host are in order. -/
structure World.Orderly (m : AddressMap σ) (maxSlots : UInt8) (pointer : UInt64)
    (w : World σ ρ) : Prop where
  maxSlots_eq : w.controller.slots.maxSlots = maxSlots
  publishes : w.controller.slots.Publishes (w.contextOf? m) pointer
  tidy : w.Tidy
  sound : ∀ e ∈ w.endpoints, e.Sound

theorem Endpoint.invariant_sound :
    Endpoint.Invariant fun _ (e : Endpoint ρ) => e.Sound where
  fresh := sound_of_fresh
  mono h _ := h
  step h hstep _ := h.transition (transition_of_step hstep)
  packetSize h size := h.setPacketSize size

namespace World.Orderly

variable {maxSlots : UInt8} {pointer : UInt64} {w w' : World σ ρ}

theorem of_unused (h : w.Unused) (hslots : w.controller.slots = .empty maxSlots) :
    w.Orderly m maxSlots 0 := by
  refine ⟨by rw [hslots]; rfl, by rw [hslots]; exact SlotTable.publishes_empty _ _, h.tidy, ?_⟩
  intro e he
  rw [h.endpoints_eq] at he
  simp at he

theorem moves (h : w.Orderly m maxSlots pointer) (hmoves : Moves m managing w w')
    (hslots : w'.controller.slots = w.controller.slots) : w'.Orderly m maxSlots pointer where
  maxSlots_eq := by rw [hslots, h.maxSlots_eq]
  publishes := by
    rw [hslots]
    exact h.publishes.mono fun _ _ => hmoves.contextOf?
  tidy := (World.staysTidy_of_moves hmoves).tidy h.tidy
  sound := Endpoint.invariant_sound.moves h.sound hmoves

/-- Only the slot table is replaced. -/
theorem setSlots (h : w.Orderly m maxSlots pointer) {slots : SlotTable} {pointer' : UInt64}
    (hmax : slots.maxSlots = maxSlots) (hpublishes : slots.Publishes (w.contextOf? m) pointer') :
    (w.setSlots slots).Orderly m maxSlots pointer' where
  maxSlots_eq := hmax
  publishes := hpublishes
  tidy := ⟨h.tidy.registered_lt, h.tidy.registered_once⟩
  sound := h.sound

theorem free (h : w.Orderly m maxSlots pointer) (slot : UInt8) :
    (w.after (Host.freeSlot slot).run).Orderly m maxSlots pointer := by
  cases hi : w.controller.slots.index slot with
  | error error => rwa [World.after_of_ok (Host.freeSlot_refused (SlotTable.free_refused hi))]
  | ok i =>
    rw [World.after_of_ok (Host.freeSlot_freed (SlotTable.free_eq hi))]
    exact h.setSlots h.maxSlots_eq (h.publishes.put hi .vacant)

theorem assign (h : w.Orderly m maxSlots pointer) {env : Env σ ρ}
    (henv : env.toPlatform.Respects m) (slot : UInt8) (d : DeviceRef) :
    (w.after (Host.assign env slot d).run).Orderly m maxSlots pointer := by
  cases hi : w.controller.slots.index slot with
  | error error => rwa [World.after_of_ok (Host.assign_refused env hi)]
  | ok i =>
    cases hd : w.devices[d.index]? with
    | none => rwa [World.after_of_error (Host.assign_missing env hi hd)]
    | some device =>
      have haside : w.Aside m (w.translated env device.contextBuffer) :=
        { addresses := henv.busAddress _ _ }
      have hmoves : Moves m false w (w.translated env device.contextBuffer) := .aside haside
      have htranslated := h.moves hmoves rfl
      have hrun := Host.assign_run env hi hd
      rw [SlotTable.assign_eq hi] at hrun
      cases hoccupant : w.controller.slots.device? slot with
      | some occupant =>
        rw [hoccupant] at hrun
        rwa [World.after_of_ok hrun]
      | none =>
        rw [hoccupant] at hrun
        rw [World.after_of_ok hrun]
        refine htranslated.setSlots h.maxSlots_eq (htranslated.publishes.put hi (.bound ?_))
        exact Option.bind_eq_some_iff.2 ⟨device, hd, henv.busAddress_eq _ _⟩

/-- Slots count from 1. -/
theorem exists_index (h : w.Orderly m maxSlots pointer) {slot : UInt8} (hpos : 0 < slot)
    (hle : slot ≤ maxSlots) : ∃ i, w.controller.slots.index slot = .ok i := by
  refine ⟨slot.toNat - 1, SlotTable.index_eq_ok.2 ⟨?_, ?_, rfl⟩⟩
  · rintro rfl
    exact absurd hpos (by decide)
  · rw [h.maxSlots_eq]
    exact UInt8.not_lt.2 hle

/-- A step that binds: whoever is bound to a free slot is in it afterwards, and the bindings of the
other slots stay. -/
theorem device?_of_assign (h : w.Orderly m maxSlots pointer) (env : Env σ ρ) {slot : UInt8}
    (hpos : 0 < slot) (hle : slot ≤ maxSlots) (hfree : w.controller.slots.device? slot = none)
    {d : DeviceRef} {device : Device} (hd : w.devices[d.index]? = some device) :
    ∃ w', (Host.assign env slot d).run w = .ok (.ok ()) w' ∧
      w'.controller.slots.device? slot = some d ∧
      w.controller.slots.AgreesOff slot w'.controller.slots := by
  obtain ⟨i, hi⟩ := h.exists_index hpos hle
  have hassign := SlotTable.assign_eq hi d (env.busAddress device.contextBuffer w.bus.platform).1
  have hrun := Host.assign_run env hi hd
  rw [hfree] at hassign
  rw [hassign] at hrun
  exact ⟨_, hrun, (SlotTable.assign_cases h.publishes.size_eq hassign).2,
    (SlotTable.admits_of_assign hassign).agreesOff⟩

/-- A step that unbinds: the device that was in the slot is the answer, the slot is empty
afterwards, and the bindings of the other slots stay. -/
theorem device?_of_freeSlot (h : w.Orderly m maxSlots pointer) {slot : UInt8} (hpos : 0 < slot)
    (hle : slot ≤ maxSlots) :
    ∃ w', (Host.freeSlot slot : HostAttempt σ ρ _).run w =
        .ok (.ok (w.controller.slots.device? slot)) w' ∧
      w'.controller.slots.device? slot = none ∧
      w.controller.slots.AgreesOff slot w'.controller.slots := by
  obtain ⟨i, hi⟩ := h.exists_index hpos hle
  have hfree := SlotTable.free_eq hi
  obtain ⟨-, hempty, hagrees⟩ := SlotTable.free_cases hfree
  exact ⟨w.setSlots _, Host.freeSlot_freed hfree, hempty, hagrees⟩

theorem occupies {pointers : List UInt64} (hw : w.Orderly m maxSlots pointer)
    (h : w.Occupies m pointers w') : w'.Orderly m maxSlots (pointers.getLastD pointer) := by
  induction h generalizing pointer with
  | refl w => exact hw
  | trans _ _ ih ih' =>
    have hw₂ := ih' (ih hw)
    simp only [List.getLastD_eq_getLast?, List.getLast?_append, Option.getD_or] at hw₂ ⊢
    exact hw₂
  | assign henv slot d w => exact hw.assign henv slot d
  | free slot w => exact hw.free slot
  | scratchpad pointer' w =>
    exact hw.setSlots hw.maxSlots_eq (hw.publishes.setScratchpad pointer')
  | elsewhere h hslots => exact hw.moves h hslots

end World.Orderly

/-! ### Events -/

/-- What the host does about a transfer event in the world `w`. -/
inductive Host.Routes (env : Env σ ρ) (event : TransferEvent) (w : World σ ρ) : Prop
  /-- There is no device in the slot. -/
  | dropped (hslot : w.controller.slots.device? event.slot = none)
      (hrun : slotEvent env event w = .ok false w)
  /-- The device in the slot has no endpoint under the ID. -/
  | unknown {d : DeviceRef} {device : Device}
      (hslot : w.controller.slots.device? event.slot = some d)
      (hdevice : w.devices[d.index]? = some device)
      (hnone : device.endpoint? event.endpoint = none) (hrun : slotEvent env event w = .ok true w)
  /-- The endpoint under the ID takes the event. Beyond that, only what it delivers is handed on. -/
  | handed {d : DeviceRef} {device : Device} {r : EndpointRef} {e e' : Endpoint ρ}
      {delivery : Option (Delivery ρ)} (hslot : w.controller.slots.device? event.slot = some d)
      (hdevice : w.devices[d.index]? = some device)
      (hregistered : device.endpoint? event.endpoint = some r)
      (hr : w.endpoints[r.index]? = some e) (hstep : e.transferEvent event = .ok (delivery, e'))
      (hrun : slotEvent env event w =
        (do handOn env e.owner delivery.toList; return true : HostM σ ρ Bool) (w.put r e'))

section Events

variable {maxSlots : UInt8} {pointer : UInt64} {w : World σ ρ}

/-- A device that is in a slot is there, and the controller reads where its context lies. -/
theorem World.Orderly.context_of_bound (h : w.Orderly m maxSlots pointer) {slot : UInt8}
    {d : DeviceRef} (hslot : w.controller.slots.device? slot = some d) :
    ∃ device address, w.devices[d.index]? = some device ∧
      w.controller.slots.contextAt slot = .ok address ∧
      w.address? m device.contextBuffer = some address := by
  obtain ⟨i, hi⟩ := SlotTable.index_of_device? hslot
  obtain ⟨address, hcontext, hshows⟩ := h.publishes.contextAt hi
  rw [hslot] at hshows
  cases hshows with
  | bound hknown =>
    obtain ⟨device, hdevice, haddress⟩ := Option.bind_eq_some_iff.1 hknown
    exact ⟨device, address, hdevice, hcontext, haddress⟩

theorem World.Orderly.routes (h : w.Orderly m maxSlots pointer) (env : Env σ ρ)
    (event : TransferEvent) : Host.Routes env event w := by
  cases hslot : w.controller.slots.device? event.slot with
  | none => exact .dropped hslot (Host.slotEvent_none env hslot)
  | some d =>
    have hrun := Host.slotEvent_some env hslot
    obtain ⟨device, -, hdevice, -, -⟩ := h.context_of_bound hslot
    cases hregistered : device.endpoint? event.endpoint with
    | none =>
      refine .unknown hslot hdevice hregistered ?_
      rw [hrun, HostM.bind_of_ok (Host.deviceEvent_none env hdevice hregistered)]
      rfl
    | some r =>
      -- What a device names is there, and it is in order.
      have hlt := h.tidy.registered_lt d.index device hdevice r
        (Device.mem_registered_iff.2 ⟨_, hregistered⟩)
      have hr : w.endpoints[r.index]? = some w.endpoints[r.index] :=
        Array.getElem?_eq_getElem hlt
      obtain ⟨delivery, e', hstep⟩ :=
        (h.sound _ (Array.mem_of_getElem? hr)).transferEvent_ok event
      refine .handed hslot hdevice hregistered hr hstep ?_
      have hevent := (Host.deviceEvent_some env hdevice hregistered).trans
        (Host.transferEvent_eq hr hstep)
      rw [hrun]
      simp only [bind, EStateM.bind, hevent]

end Events

/-! ### Computations that return -/

/-- Whatever the slots of a host have been used for since `start`, the computation gives a result,
and what it does on the way is a use of the slots as well. -/
def World.Returns (m : AddressMap σ) (start : World σ ρ) (p : HostM σ ρ α) : Prop :=
  ∀ pointers w, start.Occupies m pointers w →
    ∃ a pointers' w', p w = .ok a w' ∧ w.Occupies m pointers' w'

namespace World.Returns

variable {start : World σ ρ} {env : Env σ ρ}

theorem pure (a : α) : start.Returns m (pure a : HostM σ ρ α) :=
  fun _ w _ => ⟨a, [], w, rfl, .refl w⟩

theorem look : start.Returns m (get : HostM σ ρ (World σ ρ)) :=
  fun _ w _ => ⟨w, [], w, rfl, .refl w⟩

theorem modify {f : World σ ρ → World σ ρ} (hf : ∀ w : World σ ρ, w.Aside m (f w)) :
    start.Returns m (modify f : HostM σ ρ Unit) :=
  fun _ w _ => ⟨(), [], f w, rfl, .elsewhere (.aside (hf w)) (hf w).slots_eq⟩

theorem bind {p : HostM σ ρ α} {f : α → HostM σ ρ β} (hp : start.Returns m p)
    (hf : ∀ a, start.Returns m (f a)) : start.Returns m (p >>= f) := by
  intro pointers w hw
  obtain ⟨a, pointers₁, w₁, hrun₁, hw₁⟩ := hp pointers w hw
  obtain ⟨b, pointers₂, w₂, hrun₂, hw₂⟩ := hf a _ w₁ (hw.trans hw₁)
  exact ⟨b, pointers₁ ++ pointers₂, w₂, (HostM.bind_of_ok hrun₁).trans hrun₂, hw₁.trans hw₂⟩

section Deliveries

variable (henv : ∀ routine request, start.Returns m (env.complete routine request))
include henv

theorem callRoutine (request : Request ρ) : start.Returns m (Host.callRoutine env request) := by
  unfold Host.callRoutine
  split
  · exact henv _ _
  · exact pure _

theorem deliver (owner : Owner) (delivery : Delivery ρ) :
    start.Returns m (Host.deliver env owner delivery) := by
  unfold Host.deliver
  split
  · exact modify fun w => {}
  · unfold Host.finishAsync
    refine look.bind fun w => ?_
    split
    · split
      · exact modify fun w => {}
      · exact callRoutine henv _
    · exact callRoutine henv _

theorem handOn (owner : Owner) (ds : List (Delivery ρ)) :
    start.Returns m (Host.handOn env owner ds) := by
  induction ds with
  | nil => exact pure _
  | cons d ds ih => exact (deliver henv owner d).bind fun _ => ih

end Deliveries

end World.Returns

/-- An event is a use of the slots as well, and the host tells whether anybody got it. -/
theorem World.Orderly.slotEvent_returns {maxSlots : UInt8} {pointer : UInt64}
    {pointers : List UInt64} {start w : World σ ρ} (h : w.Orderly m maxSlots pointer)
    (hw : start.Occupies m pointers w) {env : Env σ ρ}
    (henv : ∀ routine request, start.Returns m (env.complete routine request))
    (event : TransferEvent) :
    ∃ pointers' w', Host.slotEvent env event w =
        .ok (w.controller.slots.device? event.slot).isSome w' ∧ w.Occupies m pointers' w' := by
  cases h.routes env event with
  | dropped hslot hrun => exact ⟨[], w, by rw [hrun, hslot]; rfl, .refl w⟩
  | unknown hslot _ _ hrun => exact ⟨[], w, by rw [hrun, hslot]; rfl, .refl w⟩
  | @handed d device r e e' delivery hslot _ _ hr hstep hrun =>
    have hmoves : Moves m true w (w.put r e') :=
      .step hr (Endpoint.step_event hstep) trivial (.inl rfl)
    have htaken : w.Occupies m [] (w.put r e') := .elsewhere hmoves rfl
    obtain ⟨_, pointers', w', hhand, hw'⟩ :=
      Returns.handOn henv e.owner delivery.toList _ _ (hw.trans htaken)
    refine ⟨[] ++ pointers', w', ?_, htaken.trans hw'⟩
    rw [hrun, HostM.bind_of_ok hhand, hslot]
    rfl

/-! ### Agreement -/

/-- The slot table, the array that the controller reads and the routing of events agree. Who is in a
slot is what the steps of the run have made of it: whoever was bound there last, see
`World.Orderly.device?_of_assign`, unless the slot has been freed since, see
`World.Orderly.device?_of_freeSlot`. -/
structure World.Agrees (m : AddressMap σ) (w start : World σ ρ) (maxSlots : UInt8)
    (pointer : UInt64) : Prop where
  vacant : ∀ slot, 0 < slot → slot ≤ maxSlots → w.controller.slots.device? slot = none →
    w.controller.slots.contextAt slot = .ok 0
  /-- The entry of a slot with a device is the bus address of its context, whoever is asked. -/
  bound : ∀ slot d, w.controller.slots.device? slot = some d → ∃ device address,
    w.devices[d.index]? = some device ∧ w.controller.slots.contextAt slot = .ok address ∧
      w.address? m device.contextBuffer = some address ∧
      ∀ p : Platform σ, p.Respects m →
        (p.busAddress device.contextBuffer w.bus.platform).1 = address
  scratchpad : w.controller.slots.contextAt 0 = .ok pointer
  assigned_eq : w.controller.slots.assigned =
    (List.range' 1 maxSlots.toNat).countP fun n =>
      (w.controller.slots.device? (.ofNat n)).isSome
  invalid : ∀ (env : Env σ ρ) (slot : UInt8) (d : DeviceRef), slot = 0 ∨ maxSlots < slot →
    (Host.assign env slot d).run w = .ok (.error (.invalidSlot slot)) w
  /-- The platform has been asked where the context lies, and nothing else has happened. -/
  occupied : ∀ (env : Env σ ρ) (slot : UInt8) (occupant d : DeviceRef) (device : Device),
    w.controller.slots.device? slot = some occupant → w.devices[d.index]? = some device →
      (Host.assign env slot d).run w =
        .ok (.error (.slotOccupied slot)) (w.translated env device.contextBuffer)
  event : ∀ (env : Env σ ρ) (event : TransferEvent), Host.Routes env event w
  returns : ∀ env : Env σ ρ,
    (∀ routine request, start.Returns m (env.complete routine request)) →
      ∀ event : TransferEvent, ∃ pointers w', Host.slotEvent env event w =
        .ok (w.controller.slots.device? event.slot).isSome w' ∧ w.Occupies m pointers w'

/-- However the slots of a host are used, table, array and routing agree. -/
theorem World.Occupies.slots_agree {start w : World σ ρ} {maxSlots : UInt8} {pointers : List UInt64}
    (hunused : start.Unused) (hslots : start.controller.slots = .empty maxSlots)
    (h : start.Occupies m pointers w) : w.Agrees m start maxSlots (pointers.getLastD 0) := by
  have hw := (Orderly.of_unused hunused hslots).occupies h
  obtain rfl := hw.maxSlots_eq
  constructor
  case vacant =>
    intro slot hpos hle hvacant
    obtain ⟨i, hi⟩ := hw.exists_index hpos hle
    obtain ⟨address, hcontext, hshows⟩ := hw.publishes.contextAt hi
    rw [hvacant] at hshows
    cases hshows
    exact hcontext
  case bound =>
    intro slot d hbound
    obtain ⟨device, address, hdevice, hcontext, haddress⟩ := hw.context_of_bound hbound
    exact ⟨device, address, hdevice, hcontext, haddress, fun p hp => hp.fst_busAddress haddress⟩
  case scratchpad => exact SlotTable.contextAt_eq hw.publishes.scratchpad
  case assigned_eq => exact hw.publishes.assigned_eq
  case invalid =>
    intro env slot d hinvalid
    exact Host.assign_refused env (if_pos hinvalid)
  case occupied =>
    intro env slot occupant d device hoccupant hd
    obtain ⟨i, hi⟩ := SlotTable.index_of_device? hoccupant
    rw [Host.assign_run env hi hd, SlotTable.assign_eq hi, hoccupant]
  case event => exact hw.routes
  case returns => exact fun env henv event => hw.slotEvent_returns h henv event

/-! ### A device in its slot -/

theorem Host.slots_of_newDevice {env : Env σ ρ} (henv : env.toPlatform.Respects m) (owner : Owner)
    (rootPort : UInt8) (route : Option HubRoute) (config : Config) (w : World σ ρ) :
    (w.after (newDevice env owner rootPort route config).run).controller.slots =
      w.controller.slots := by
  have hslots : HostAttempt.Ends (newDevice env owner rootPort route config) w
      (fun w' => w'.controller.slots = w.controller.slots)
      (fun _ w' => w'.controller.slots = w.controller.slots)
      fun _ w' => w'.controller.slots = w.controller.slots :=
    (newDevice_gives henv owner rootPort route config w).ends rfl (fun _ => rfl)
      fun _ _ h => h.2.keeps.1
  exact World.after_of_ends hslots.run

namespace Board

/-- There is a device, but it is in no slot. -/
def homeless : World Board Unit :=
  start.after (Host.newDevice still ⟨⟨1⟩, 2, .high, .immediate⟩ 1 none config).run

/-- The device has been bound to slot 2, and a scratchpad pointer has been written. -/
def furnished : World Board Unit :=
  let w := homeless.after (Host.assign still 2 ⟨0⟩).run
  w.setSlots (w.controller.slots.setScratchpad 0x9000)

theorem slots_start : start.controller.slots = .empty 2 := by
  obtain ⟨maxSlots, hslots⟩ := unused_start.slots_eq
  have hmax : start.controller.slots.maxSlots = 2 := by decide +kernel
  rw [hslots] at hmax ⊢
  exact congrArg SlotTable.empty hmax

theorem occupies_furnished : start.Occupies addresses [0x9000] furnished := by
  have hplatform : still.toPlatform.Respects addresses := respects
  have hmade : start.Occupies addresses [] homeless :=
    .elsewhere ((Host.moves_newDevice (acts_still true).onlyMoves rfl _ _ _ _).after start)
      (Host.slots_of_newDevice hplatform _ _ _ _ start)
  exact (hmade.trans (.assign hplatform 2 ⟨0⟩ homeless)).trans (.scratchpad 0x9000 _)

theorem slots_agree_furnished : furnished.Agrees addresses start 2 0x9000 ∧
    furnished.controller.slots.contexts = #[0x9000, 0, place ⟨5⟩] ∧
    ∃ pointers w', Host.slotEvent still { (default : TransferEvent) with slot := 2, endpoint := 1 }
      furnished = .ok true w' ∧ furnished.Occupies addresses pointers w' := by
  have hagrees := occupies_furnished.slots_agree unused_start slots_start
  refine ⟨hagrees, by decide +kernel, ?_⟩
  have hbound : (furnished.controller.slots.device? 2).isSome = true := by decide +kernel
  rw [← hbound]
  exact hagrees.returns still (fun _ _ => .pure ()) _

end Board

end UsbHost
