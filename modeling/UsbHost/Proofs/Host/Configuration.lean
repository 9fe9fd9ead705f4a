import UsbHost.Proofs.Dma.Layout
import UsbHost.Proofs.Host.Board
import UsbHost.Proofs.Host.Tables
import UsbHost.Proofs.Queue.Vacancy

/-!
What settings a host can work with. The check of the settings bounds rings from below. The bounds
from above are found where a ring is allocated: it has to lie inside one segment of 64 KiB. The
command ring and the event ring are allocated with the controller, and so is the queue of parked
requests, which the check bounds from below as well. Transfer rings are allocated with each
endpoint, so if they are too long, the controller comes up, but no device can be made on it, nor any
endpoint. Apart from these bounds nothing is missing in the check: what it lets pass can be created,
in every state of the platform, and whatever happens to the host, its settings stay as they are.
-/

namespace UsbHost

variable {s σ ρ α β : Type}

/-! ### Attempts that succeed -/

namespace HostAttempt

/-- Started in `w`, the attempt gives a result. -/
def Succeeds (x : ExceptT Error (EStateM Fault s) α) (w : s) : Prop :=
  ∃ a w', x.run w = .ok (.ok a) w'

variable {x : ExceptT Error (EStateM Fault s) α} {f : α → ExceptT Error (EStateM Fault s) β} {w : s}

/-- A sequence succeeds if its first part does, and what the rest depends on does not depend on
the result of the first part. -/
theorem succeeds_bind {P : Prop}
    (hf : ∀ a w₁, x.run w = .ok (.ok a) w₁ → (Succeeds (f a) w₁ ↔ P)) :
    Succeeds (x >>= f) w ↔ Succeeds x w ∧ P := by
  constructor
  · rintro ⟨b, w', h⟩
    obtain ⟨a, w₁, hx, hrest⟩ := bind_eq_ok h
    exact ⟨⟨a, w₁, hx⟩, (hf a w₁ hx).1 ⟨b, w', hrest⟩⟩
  · rintro ⟨⟨a, w₁, hx⟩, hP⟩
    obtain ⟨b, w', hrest⟩ := (hf a w₁ hx).2 hP
    exact ⟨b, w', (bind_of_ok hx).trans hrest⟩

/-- The rest succeeds anyway. -/
theorem succeeds_bind_of_rest (hf : ∀ a w₁, x.run w = .ok (.ok a) w₁ → Succeeds (f a) w₁) :
    Succeeds (x >>= f) w ↔ Succeeds x w :=
  (succeeds_bind fun a w₁ hx => iff_true_intro (hf a w₁ hx)).trans (and_iff_left trivial)

theorem succeeds_map {g : α → β} : Succeeds (g <$> x) w ↔ Succeeds x w := by
  rw [map_eq_pure_bind]
  exact succeeds_bind_of_rest fun _ _ _ => ⟨_, _, rfl⟩

theorem succeeds_liftExcept {result : Except Error α} :
    Succeeds (liftExcept result : ExceptT Error (EStateM Fault s) α) w ↔ ∃ a, result = .ok a := by
  cases result with
  | error error => exact ⟨fun ⟨_, _, h⟩ => (nomatch h), fun ⟨_, h⟩ => (nomatch h)⟩
  | ok a => exact ⟨fun _ => ⟨a, rfl⟩, fun _ => ⟨a, w, rfl⟩⟩

theorem onBus_eq_ok {op : BusAttempt σ α} {w w' : World σ ρ} {a : α}
    (h : (onBus op : HostAttempt σ ρ α).run w = .ok (.ok a) w') :
    ∃ bus, op.run w.bus = .ok (.ok a) bus ∧ w' = { w with bus := bus } := by
  change (HostM.onBus op.run : HostM σ ρ _) w = _ at h
  unfold HostM.onBus at h
  split at h
  · rename_i result bus hop
    cases h
    exact ⟨bus, hop, rfl⟩
  · cases h

theorem succeeds_onBus {op : BusAttempt σ α} {w : World σ ρ} :
    Succeeds (onBus op : HostAttempt σ ρ α) w ↔ Succeeds op w.bus := by
  constructor
  · rintro ⟨a, w', h⟩
    obtain ⟨bus, hop, -⟩ := onBus_eq_ok h
    exact ⟨a, bus, hop⟩
  · rintro ⟨a, bus, h⟩
    refine ⟨a, { w with bus := bus }, ?_⟩
    change (HostM.onBus op.run : HostM σ ρ _) w = _
    simp only [HostM.onBus, h]

end HostAttempt

open HostAttempt (Succeeds succeeds_bind succeeds_bind_of_rest)

/-! ### Allocation -/

/-- A ring of `count` TRBs lies inside one segment. -/
def Ring.FitsSegment (count : Nat) : Prop := count * Trb.byteSize ≤ Dma.structureBoundary

instance (count : Nat) : Decidable (Ring.FitsSegment count) :=
  inferInstanceAs (Decidable (_ ≤ _))

/-- Of the rings that pass the check of their size, those that fit in a segment have a layout. -/
theorem Ring.exists_layout_of_checked {name : String} {count : Nat}
    (h : Config.checkRingSize name count = .ok ()) :
    (∃ placed, (Ring.layout count).run = .ok (.ok placed)) ↔ Ring.FitsSegment count := by
  obtain ⟨hmin, hfour⟩ := Config.checkRingSize_eq_ok.1 h
  rw [Ring.exists_layout_iff]
  exact ⟨fun h => h.2.2, fun hfits => ⟨hmin, hfour, hfits⟩⟩

namespace BusAttempt

variable {p : Platform σ} {b : Bus σ} {config : Config} {count : Nat}

theorem succeeds_ofAttempt {attempt : Attempt α} :
    Succeeds (ofAttempt attempt : BusAttempt σ α) b ↔ ∃ a, attempt.run = .ok (.ok a) := by
  unfold ofAttempt Succeeds
  rcases attempt.run with fault | error | a
  · exact ⟨fun ⟨_, _, h⟩ => (nomatch h), fun ⟨_, h⟩ => (nomatch h)⟩
  · exact ⟨fun ⟨_, _, h⟩ => (nomatch h), fun ⟨_, h⟩ => (nomatch h)⟩
  · exact ⟨fun _ => ⟨a, rfl⟩, fun _ => ⟨a, b, rfl⟩⟩

theorem succeeds_structureBuffer {size : Nat} (hpos : 0 < size)
    (hfits : size ≤ Dma.structureBoundary) : Succeeds (structureBuffer size : BusAttempt σ _) b :=
  ⟨_, _, structureBuffer_run hpos hfits b⟩

theorem succeeds_ringMemory :
    Succeeds (ringMemory p count) b ↔ ∃ placed, (Ring.layout count).run = .ok (.ok placed) :=
  (succeeds_bind_of_rest fun _ _ _ => ⟨_, _, rfl⟩).trans succeeds_ofAttempt

theorem succeeds_producerRing {kind : Ring.Kind} :
    Succeeds (producerRing p kind count) b ↔
      ∃ placed, (Ring.layout count).run = .ok (.ok placed) :=
  (succeeds_bind_of_rest fun _ _ _ => ⟨_, _, rfl⟩).trans succeeds_ringMemory

theorem succeeds_slotTable {maxSlots : UInt8} (h : maxSlots ≠ 0) :
    Succeeds (slotTable p maxSlots) b := by
  have hlt := maxSlots.toNat_lt
  have hbuffer : Succeeds (structureBuffer (SlotTable.byteSize maxSlots)) b := by
    refine succeeds_structureBuffer (Nat.mul_pos (Nat.succ_pos _) (by decide)) ?_
    change (maxSlots.toNat + 1) * 8 ≤ 65536
    omega
  unfold slotTable
  simp only [if_neg h]
  exact (succeeds_bind_of_rest fun _ _ _ => ⟨_, _, rfl⟩).2 hbuffer

theorem succeeds_commandRing :
    Succeeds (commandRing p config) b ↔
      ∃ placed, (Ring.layout config.commandRingSize).run = .ok (.ok placed) :=
  (succeeds_bind_of_rest fun _ _ _ => ⟨_, _, rfl⟩).trans succeeds_producerRing

theorem succeeds_eventQueue :
    Succeeds (eventQueue p config) b ↔
      ∃ placed, (Ring.layout config.eventRingSize).run = .ok (.ok placed) := by
  have hring : Succeeds (eventRing p config.eventRingSize) b ↔
      ∃ placed, (Ring.layout config.eventRingSize).run = .ok (.ok placed) :=
    (succeeds_bind_of_rest fun _ _ _ => ⟨_, _, rfl⟩).trans succeeds_ringMemory
  refine (succeeds_bind_of_rest fun ring b' _ => ?_).trans hring
  exact (succeeds_bind_of_rest fun _ _ _ => ⟨_, _, rfl⟩).2
    (succeeds_structureBuffer (by decide) (by decide))

end BusAttempt

theorem CompletionQueue.exists_withCapacity {capacity : Nat} (hpos : 0 < capacity) :
    (∃ q : CompletionQueue α, withCapacity capacity = .ok q) ↔ capacity ≤ Arena.maxCapacity := by
  constructor
  · rintro ⟨q, h⟩
    by_contra hmax
    have hrefused : (Arena.withCapacity capacity : Except Error (Arena (Chain.Link (Entry α)))) =
        .error (.invalidArgument "capacity" "must be in 1..=65535") :=
      if_pos (.inr (Nat.lt_of_not_le hmax))
    rw [withCapacity, Chain.withCapacity, hrefused] at h
    cases h
  · intro hmax
    refine ⟨⟨{ arena := .empty capacity }⟩, ?_⟩
    rw [withCapacity, Chain.withCapacity_eq hpos hmax]
    rfl

/-! ### The check of the settings -/

namespace Config

variable {config : Config}

/-- What the check lets pass. -/
structure Checked (config : Config) : Prop where
  commandRing : checkRingSize "command_ring_size" config.commandRingSize = .ok ()
  transferRing : checkRingSize "transfer_ring_size" config.transferRingSize = .ok ()
  eventRing : checkRingSize "event_ring_size" config.eventRingSize = .ok ()
  maxSlots_ne : config.maxSlots ≠ 0
  queueDepth_pos : config.completionMode = .deferred → 0 < config.completionQueueDepth

theorem checked_of_validate (h : config.validate = .ok ()) : config.Checked := by
  have hbind : ∀ {x : Except Error Unit} {f : Unit → Except Error Unit},
      (x >>= f) = .ok () → x = .ok () ∧ f () = .ok () := by
    intro x f hx
    cases x with
    | error error => cases hx
    | ok _ => exact ⟨rfl, hx⟩
  unfold validate at h
  obtain ⟨hcommand, h⟩ := hbind h
  obtain ⟨htransfer, h⟩ := hbind h
  obtain ⟨hevent, h⟩ := hbind h
  dsimp only at h
  split at h
  · cases h
  split at h
  · cases h
  split at h
  · cases h
  split at h
  · cases h
  rename_i hslots _ _ hqueue
  refine ⟨hcommand, htransfer, hevent, hslots, fun hdeferred => Nat.pos_of_ne_zero fun hzero => ?_⟩
  simp [hdeferred, hzero] at hqueue

/-- What a new host allocates fits in where it has to be. -/
structure Fits (config : Config) : Prop where
  commandRing : Ring.FitsSegment config.commandRingSize
  eventRing : Ring.FitsSegment config.eventRingSize
  queueDepth_le : config.completionMode = .deferred →
    config.completionQueueDepth ≤ Arena.maxCapacity

end Config

namespace Host

open HostAttempt (lift)

variable {env : Env σ ρ} {config : Config} {w : World σ ρ} {owner : Owner}

/-! ### Creation -/

theorem succeeds_controller (hvalid : config.validate = .ok ()) {p : Platform σ} {b : Bus σ} :
    Succeeds (BusAttempt.controller p config) b ↔
      Ring.FitsSegment config.commandRingSize ∧ Ring.FitsSegment config.eventRingSize := by
  have hchecked := Config.checked_of_validate hvalid
  have hcheck : Succeeds (liftExcept config.validate : BusAttempt σ Unit) b := by
    rw [hvalid]
    exact ⟨(), b, rfl⟩
  have hslots : ∀ b₁ : Bus σ, Succeeds (BusAttempt.slotTable p config.maxSlots) b₁ := fun _ =>
    BusAttempt.succeeds_slotTable hchecked.maxSlots_ne
  have hcommands : ∀ b₂ : Bus σ, Succeeds (BusAttempt.commandRing p config) b₂ ↔
      Ring.FitsSegment config.commandRingSize := fun _ =>
    BusAttempt.succeeds_commandRing.trans (Ring.exists_layout_of_checked hchecked.commandRing)
  have hevents : ∀ b₃ : Bus σ, Succeeds (BusAttempt.eventQueue p config) b₃ ↔
      Ring.FitsSegment config.eventRingSize := fun _ =>
    BusAttempt.succeeds_eventQueue.trans (Ring.exists_layout_of_checked hchecked.eventRing)
  unfold BusAttempt.controller
  refine (succeeds_bind fun _ b₁ _ => ?_).trans (and_iff_right hcheck)
  refine (succeeds_bind fun slots b₂ _ => ?_).trans (and_iff_right (hslots b₁))
  refine (succeeds_bind fun commands b₃ _ => ?_).trans (and_congr_left' (hcommands b₂))
  exact (succeeds_bind_of_rest fun _ _ _ => ⟨_, _, rfl⟩).trans (hevents b₃)

theorem succeeds_create (hvalid : config.validate = .ok ()) {b : Bus σ} :
    Succeeds (create env config) b ↔ config.Fits := by
  have hchecked := Config.checked_of_validate hvalid
  unfold create
  refine (succeeds_bind (P := config.completionMode = .deferred →
    config.completionQueueDepth ≤ Arena.maxCapacity) fun controller b₁ _ => ?_).trans ?_
  · cases hmode : config.completionMode with
    | immediate =>
      dsimp only
      exact ⟨fun _ => nofun, fun _ => ⟨_, _, rfl⟩⟩
    | deferred =>
      dsimp only
      have hqueue : ∀ b₂ : Bus σ, Succeeds (some <$> liftExcept
          (CompletionQueue.withCapacity config.completionQueueDepth) :
            BusAttempt σ (Option (CompletionQueue (Request ρ)))) b₂ ↔
          config.completionQueueDepth ≤ Arena.maxCapacity := fun _ =>
        HostAttempt.succeeds_map.trans (HostAttempt.succeeds_liftExcept.trans
          (CompletionQueue.exists_withCapacity (hchecked.queueDepth_pos hmode)))
      exact (succeeds_bind_of_rest fun _ _ _ => ⟨_, _, rfl⟩).trans
        ((hqueue b₁).trans (imp_iff_right rfl).symm)
  · rw [succeeds_controller hvalid]
    exact ⟨fun ⟨⟨hc, he⟩, hq⟩ => ⟨hc, he, hq⟩,
      fun h => ⟨⟨h.commandRing, h.eventRing⟩, h.queueDepth_le⟩⟩

/-- A new host has the settings that it has been created with. -/
theorem config_of_create {b b' : Bus σ} (h : (create env config).run b = .ok (.ok w) b') :
    w.controller.config = config := by
  unfold create at h
  obtain ⟨controller, b₁, hcontroller, h⟩ := HostAttempt.bind_eq_ok h
  have hconfig : controller.config = config := by
    unfold BusAttempt.controller at hcontroller
    obtain ⟨_, _, -, hcontroller⟩ := HostAttempt.bind_eq_ok hcontroller
    obtain ⟨_, _, -, hcontroller⟩ := HostAttempt.bind_eq_ok hcontroller
    obtain ⟨_, _, -, hcontroller⟩ := HostAttempt.bind_eq_ok hcontroller
    obtain ⟨_, _, -, hcontroller⟩ := HostAttempt.bind_eq_ok hcontroller
    cases hcontroller
    rfl
  dsimp only at h
  split at h
  · obtain ⟨_, _, -, h⟩ := HostAttempt.bind_eq_ok h
    cases h
    exact hconfig
  · obtain ⟨_, _, -, h⟩ := HostAttempt.bind_eq_ok h
    cases h
    exact hconfig

/-! ### Devices and endpoints -/

theorem succeeds_newEndpoint {traits : EndpointTraits} :
    Succeeds (newEndpoint env owner traits config) w ↔
      ∃ placed, (Ring.layout config.transferRingSize).run = .ok (.ok placed) :=
  (succeeds_bind_of_rest fun _ _ _ => ⟨_, _, rfl⟩).trans
    (HostAttempt.succeeds_onBus.trans BusAttempt.succeeds_producerRing)

/-- The numbers of endpoints are 1 to 15; 0 is that of the control endpoint. -/
theorem succeeds_newEndpointFor {descriptor : EndpointDescriptor} (h : descriptor.number ≠ 0) :
    Succeeds (newEndpointFor env owner config descriptor) w ↔
      ∃ placed, (Ring.layout config.transferRingSize).run = .ok (.ok placed) := by
  have htraits : ∃ traits, EndpointTraits.ofDescriptor owner.speed descriptor = .ok traits := by
    unfold EndpointTraits.ofDescriptor
    simp only [if_neg h]
    split
    · exact ⟨_, rfl⟩
    · exact ⟨_, rfl⟩
  obtain ⟨traits, htraits⟩ := htraits
  unfold newEndpointFor
  rw [htraits]
  exact succeeds_newEndpoint

theorem endpoint_of_newEndpoint {traits : EndpointTraits} {r : EndpointRef} {w' : World σ ρ}
    (h : (newEndpoint env owner traits config).run w = .ok (.ok r) w') :
    ∃ ring, w'.endpoints[r.index]? = some (.create owner traits config ring) := by
  unfold newEndpoint at h
  obtain ⟨ring, w₁, -, h⟩ := HostAttempt.bind_eq_ok h
  cases h
  exact ⟨ring, Array.getElem?_push_size⟩

/-- The device `d` is there, with its control endpoint in its table. -/
def HasControl (w : World σ ρ) (d : DeviceRef) (owner : Owner) : Prop :=
  ∃ device r e, w.devices[d.index]? = some device ∧ device.owner = owner ∧
    device.endpoint? controlEndpointId = some r ∧ w.endpoints[r.index]? = some e ∧
    e.owner = owner ∧ e.traits = .control owner.speed

/-- A device can be made if its control endpoint can. -/
theorem newDevice_of_newEndpoint {r : EndpointRef} {w₁ : World σ ρ}
    (h : (newEndpoint env owner (.control owner.speed) config).run w = .ok (.ok r) w₁)
    (rootPort : UInt8) (route : Option HubRoute) :
    ∃ d w', (newDevice env owner rootPort route config).run w = .ok (.ok d) w' ∧
      HasControl w' d owner := by
  obtain ⟨ring, hr⟩ := endpoint_of_newEndpoint h
  obtain ⟨device, device', howner, -, hregister, hrun⟩ := newDevice_run h hr rootPort route
  refine ⟨_, _, hrun, device', r, _, ?_, (Device.owner_of_register hregister).trans howner, ?_, hr,
    rfl, rfl⟩
  · exact (World.device_putDevice _ ⟨w₁.devices.size⟩ device').trans
      (congrArg (Option.map fun _ => device') (World.device_addDevice _ device))
  · rw [Device.endpoint?_register hregister]
    exact if_pos rfl

theorem succeeds_newDevice {rootPort : UInt8} {route : Option HubRoute} :
    (∃ d w', (newDevice env owner rootPort route config).run w = .ok (.ok d) w' ∧
      HasControl w' d owner) ↔
      ∃ placed, (Ring.layout config.transferRingSize).run = .ok (.ok placed) := by
  have hmade : Succeeds (newEndpoint env owner (.control owner.speed) config) w ↔
      ∃ placed, (Ring.layout config.transferRingSize).run = .ok (.ok placed) :=
    succeeds_newEndpoint
  rw [← hmade]
  constructor
  · rintro ⟨d, w', h, -⟩
    obtain ⟨r, w₁, hmade, -⟩ := HostAttempt.bind_eq_ok h
    exact ⟨r, w₁, hmade⟩
  · rintro ⟨r, w₁, hmade⟩
    exact newDevice_of_newEndpoint hmade rootPort route

end Host

/-! ### Settings stay as they are -/

/-- The settings stay as they are. -/
def Conduct.settled : Conduct σ ρ where
  Leads w w' := w'.controller.config = w.controller.config
  refl _ := rfl
  trans h h' := h'.trans h

theorem Host.settled_admits {env : Env σ ρ} (henv : env.Obeys .settled) :
    Conduct.settled.Admits noneRun (fun _ _ => True) env where
  mute := env.mute_noneRun
  yieldNow := henv.yieldNow
  portChanged := henv.portChanged
  elsewhere h := h.config_eq
  step {w r e e' op reply ds} _ _ _ _ := by
    have hhand : (handOn env e.owner ds).Obeys .settled :=
      HostM.Obeys.handOn henv.complete (fun _ _ => rfl) e.owner fun _ _ _ _ _ => rfl
    exact ⟨rfl, hhand.continued rfl⟩
  packetSize _ _ := rfl
  newEndpoint _ _ _ _ _ := rfl
  register _ hleads _ _ _ := hleads
  newDevice h := h.config_eq
  settle h _ := h.config_eq
  free _ := rfl
  release _ _ _ := rfl
  flush _ _ := rfl
  dequeue _ _ := (HostM.Obeys.callRoutine henv.complete _).continued rfl

theorem Conduct.settled_admitsPrograms {m : AddressMap σ} {managing : Bool} :
    (Conduct.settled : Conduct σ ρ).AdmitsPrograms m managing where
  platform _ _ _ := rfl
  events _ _ := rfl
  context _ _ _ := rfl
  call _ henv call _ :=
    call.obeys (Host.settled_admits henv) (call.fits_of_forall fun _ _ => trivial)

/-- No program changes the settings. -/
theorem Program.settled {m : AddressMap σ} {managing : Bool} {p : HostM σ ρ α}
    (h : Program m managing p) : p.Obeys .settled :=
  h.obeys Conduct.settled_admitsPrograms

namespace Host

variable {m : AddressMap σ} {config : Config}

/-- Settings that the check lets pass are settings to work with exactly as far as what is allocated
for them fits: a host can be created if its two rings fit in a segment and its queue in an arena,
whatever the state of the platform; and whatever programs have run on it since, enabling slots for
one, devices with their control endpoints and endpoints of any number from 1 to 15 can be made if
transfer rings fit in a segment. -/
theorem validated_config_works (hvalid : config.validate = .ok ()) :
    (∀ (env : Env σ ρ) (b : Bus σ),
      (∃ w b', (create env config).run b = .ok (.ok w) b') ↔ config.Fits) ∧
    ∀ {env : Env σ ρ} {b b' : Bus σ} {w : World σ ρ} {α : Type} {p : HostM σ ρ α},
      (create env config).run b = .ok (.ok w) b' → Program m true p →
      let w' := World.after { w with bus := b' } p
      w'.controller.config = config ∧
      ∀ (env : Env σ ρ) (owner : Owner),
        (∀ rootPort route,
          (∃ d w'', (newDevice env owner rootPort route w'.controller.config).run w' =
            .ok (.ok d) w'' ∧ HasControl w'' d owner) ↔
          Ring.FitsSegment config.transferRingSize) ∧
        ∀ descriptor : EndpointDescriptor, descriptor.number ≠ 0 →
          ((∃ r w'', (newEndpointFor env owner w'.controller.config descriptor).run w' =
            .ok (.ok r) w'') ↔ Ring.FitsSegment config.transferRingSize) := by
  have hlayout : (∃ placed, (Ring.layout config.transferRingSize).run = .ok (.ok placed)) ↔
      Ring.FitsSegment config.transferRingSize :=
    Ring.exists_layout_of_checked (Config.checked_of_validate hvalid).transferRing
  refine ⟨fun env b => succeeds_create hvalid, fun {env b b' w α p} hcreated hp => ?_⟩
  have hkept : (World.after { w with bus := b' } p).controller.config = w.controller.config :=
    hp.settled.after { w with bus := b' }
  have hconfig := hkept.trans (config_of_create hcreated)
  dsimp only
  rw [hconfig]
  exact ⟨rfl, fun env owner => ⟨fun rootPort route => succeeds_newDevice.trans hlayout,
    fun descriptor hnumber => (succeeds_newEndpointFor hnumber).trans hlayout⟩⟩

end Host

namespace Board

open HostAttempt (success? run_of_success?)

/-- A slot has been enabled on the bench, and a device can be made in it. -/
theorem config_works_with_slot_enabled : ∃ (w : World Board Unit) (b : Bus Board),
    (Host.create env config).run { platform := { answer := obliging 1 } } = .ok (.ok w) b ∧
    let w' := World.after { w with bus := b } (Call.enableSlot.run env)
    w'.controller.config = config ∧
      ∃ d w'', (Host.newDevice env ⟨⟨1⟩, 1, .high, .immediate⟩ 1 none
        w'.controller.config).run w' = .ok (.ok d) w'' ∧
          Host.HasControl w'' d ⟨⟨1⟩, 1, .high, .immediate⟩ := by
  have hvalid : config.validate = .ok () := by decide
  obtain ⟨hcreate, hworks⟩ := Host.validated_config_works (m := addresses) (ρ := Unit) hvalid
  obtain ⟨w, b, hcreated⟩ := (hcreate env { platform := { answer := obliging 1 } }).2
    ⟨by decide, by decide, nofun⟩
  obtain ⟨hconfig, hmakes⟩ := hworks hcreated ((acts true).call .enableSlot (.inl rfl))
  exact ⟨w, b, hcreated, hconfig,
    ((hmakes env ⟨⟨1⟩, 1, .high, .immediate⟩).1 1 none).2 (by decide)⟩

/-- The settings of the bench, with transfer rings of 128 KiB. -/
def overlong : Config := { config with transferRingSize := 8192 }

/-- The check lets these settings pass, and a host comes up with them and enables a slot, but then
no device can be made. -/
theorem device_refused_with_validated_config : overlong.validate = .ok () ∧
    ∃ (w : World Board Unit) (b : Bus Board),
      (Host.create env overlong).run { platform := { answer := obliging 1 } } = .ok (.ok w) b ∧
      ∃ w', (Host.enableSlot env).run { w with bus := b } = .ok (.ok 1) w' ∧
        ∃ w'', (Host.newDevice env ⟨⟨1⟩, 1, .high, .immediate⟩ 1 none w'.controller.config).run w' =
          .ok (.error (.invalidArgument "trb_count" "ring does not fit in one 64 KiB segment"))
            w'' := by
  refine ⟨by decide, ?_⟩
  have hrun : (success? (Host.create env overlong)
      { platform := { answer := obliging 1 } }).bind (fun made =>
        (success? (Host.enableSlot env) { made.1 with bus := made.2 }).bind fun enabled =>
          if enabled.1 = 1 then
            refusal? (Host.newDevice env ⟨⟨1⟩, 1, .high, .immediate⟩ 1 none
              enabled.2.controller.config).run enabled.2
          else none) =
      some (.invalidArgument "trb_count" "ring does not fit in one 64 KiB segment") := by
    decide +kernel
  obtain ⟨⟨w, b⟩, hmade, hrest⟩ := Option.bind_eq_some_iff.1 hrun
  obtain ⟨⟨slot, w'⟩, henabled, hrefused⟩ := Option.bind_eq_some_iff.1 hrest
  obtain ⟨rfl, hrefused⟩ := Option.ite_none_right_eq_some.1 hrefused
  exact ⟨w, b, run_of_success? hmade, w', run_of_success? henabled, _, run_of_refusal? hrefused⟩

end Board

end UsbHost
