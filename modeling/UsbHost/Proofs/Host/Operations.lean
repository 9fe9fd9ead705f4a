import UsbHost.Proofs.Device.Table
import UsbHost.Proofs.Endpoint.Awaited
import UsbHost.Proofs.Endpoint.Routines
import UsbHost.Proofs.Host.Management
import UsbHost.Proofs.Host.Requests

/-!
Operations of a host under any conduct. Whatever an operation does, it changes the objects of the
host in a few ways only: an endpoint takes a step and what it delivers is handed on, a device or an
endpoint comes into being, a slot is filled or emptied, a parked request is taken or dropped. A
conduct that admits each of these is obeyed by every operation.
-/

namespace UsbHost

variable {σ ρ α β : Type}

/-! ### Changes -/

/-- What a platform remembers, in `ran`, of the completion routines that have been run is not
changed by the registers. -/
structure Platform.Mute (ran : σ → List ρ) (p : Platform σ) : Prop where
  busAddress : ∀ id s, ran (p.busAddress id s).2 = ran s
  doorbell : ∀ slot target s, ran (p.doorbell slot target s) = ran s
  writeEventDequeue : ∀ address s, ran (p.writeEventDequeue address s) = ran s

namespace World

variable (ran : σ → List ρ)

/-- Whatever has happened concerns neither settings nor devices nor endpoints nor parked requests,
no task has left the table, and no completion routine has been run. -/
structure Elsewhere (w w' : World σ ρ) : Prop where
  config_eq : w'.controller.config = w.controller.config
  slots_eq : w'.controller.slots = w.controller.slots
  devices_eq : w'.devices = w.devices
  endpoints_eq : w'.endpoints = w.endpoints
  completions_eq : w'.completions = w.completions
  waiters_le : w.waiters.size ≤ w'.waiters.size
  ran_eq : ran w'.bus.platform = ran w.bus.platform

/-- A device has come into being, with a control endpoint and in no slot. -/
structure Gains (device : Device) (e : Endpoint ρ) (w w' : World σ ρ) : Prop where
  config_eq : w'.controller.config = w.controller.config
  slots_eq : w'.controller.slots = w.controller.slots
  devices_eq : w'.devices = w.devices.push device
  endpoints_eq : w'.endpoints = w.endpoints.push e
  completions_eq : w'.completions = w.completions
  waiters_le : w.waiters.size ≤ w'.waiters.size
  ran_eq : ran w'.bus.platform = ran w.bus.platform
  created : ∃ traits config ring, e = .create device.owner traits config ring
  endpoint?_eq : ∀ id r, device.endpoint? id = some r → id = e.id ∧ r = ⟨w.endpoints.size⟩

variable {ran} {w w' w'' : World σ ρ}

theorem Gains.trans {device : Device} {e : Endpoint ρ} (h : w.Gains ran device e w')
    (h' : w'.Elsewhere ran w'') : w.Gains ran device e w'' where
  config_eq := h'.config_eq.trans h.config_eq
  slots_eq := h'.slots_eq.trans h.slots_eq
  devices_eq := h'.devices_eq.trans h.devices_eq
  endpoints_eq := h'.endpoints_eq.trans h.endpoints_eq
  completions_eq := h'.completions_eq.trans h.completions_eq
  waiters_le := Nat.le_trans h.waiters_le h'.waiters_le
  ran_eq := h'.ran_eq.trans h.ran_eq
  created := h.created
  endpoint?_eq := h.endpoint?_eq

end World

/-- What a conduct has to admit so that every operation obeys it. Routines are submitted to
endpoints that allow them, and tasks that wait for a request are in the table. -/
structure Conduct.Admits (c : Conduct σ ρ) (ran : σ → List ρ) (allows : EndpointRef → ρ → Prop)
    (env : Env σ ρ) : Prop where
  mute : env.toPlatform.Mute ran
  yieldNow : env.yieldNow.Obeys c
  portChanged : ∀ port, (env.portChanged port).Obeys c
  elsewhere : ∀ {w w' : World σ ρ}, w.Elsewhere ran w' → c.Leads w w'
  /-- An endpoint takes a step, and what the step delivers is handed on or kept. -/
  step : ∀ {w : World σ ρ} {r : EndpointRef} {e e' : Endpoint ρ} {op : Endpoint.Op ρ}
    {reply : Endpoint.Reply} {ds : List (Delivery ρ)}, w.endpoints[r.index]? = some e →
    e.step op = .ok ((reply, ds), e') → (∀ routine ∈ op.routines, allows r routine) →
    (∀ k, op.IsFor k → k.index < w.waiters.size) →
    c.Leads w (w.put r e') ∧
      HostM.Ends (Host.handOn env e.owner ds) (w.put r e') (c.Leads w) fun _ => c.Leads w
  packetSize : ∀ {w : World σ ρ} {r : EndpointRef} {e : Endpoint ρ} (size : UInt16),
    w.endpoints[r.index]? = some e → c.Leads w (w.put r { e with maxPacketSize := size })
  newEndpoint : ∀ (w : World σ ρ) (owner : Owner) (traits : EndpointTraits) (config : Config)
    (ring : ProducerRing), c.Leads w (w.addEndpoint (.create owner traits config ring))
  /-- A new endpoint of a device is registered, after whatever has happened meanwhile. -/
  register : ∀ {w w₁ : World σ ρ} {d : DeviceRef} {device device₁ device' : Device}
    {traits : EndpointTraits} {config : Config} {ring : ProducerRing} {e : Endpoint ρ},
    w.devices[d.index]? = some device →
    c.Leads (w.addEndpoint (.create device.owner traits config ring)) w₁ →
    w₁.devices[d.index]? = some device₁ → w₁.endpoints[w.endpoints.size]? = some e →
    device₁.register e.id ⟨w.endpoints.size⟩ = .ok device' → c.Leads w (w₁.putDevice d device')
  newDevice : ∀ {w w' : World σ ρ} {device : Device} {e : Endpoint ρ},
    w.Gains ran device e w' → c.Leads w w'
  /-- A new device is put into its slot. -/
  settle : ∀ {w w' : World σ ρ} {device : Device} {e : Endpoint ρ} {context : UInt64}
    {slots : SlotTable}, w.Gains ran device e w' →
    w'.controller.slots.assign device.owner.slot ⟨w.devices.size⟩ context = .ok slots →
    c.Leads w (w'.setSlots slots)
  free : ∀ {w : World σ ρ} {slot : UInt8} {d : Option DeviceRef} {slots : SlotTable},
    w.controller.slots.free slot = .ok (d, slots) → c.Leads w (w.setSlots slots)
  /-- A device leaves its slot, if it is still there, and loses its endpoints. -/
  release : ∀ {w : World σ ρ} {slot : UInt8} {d : DeviceRef} {occupant : Option DeviceRef}
    {device : Device} {slots : SlotTable}, w.controller.slots.free slot = .ok (occupant, slots) →
    w.devices[d.index]? = some device → slot = device.owner.slot ∨ occupant = some d →
    c.Leads w ((w.setSlots slots).putDevice d device.unregisterAll.2)
  flush : ∀ (w : World σ ρ) (device : DeviceId), c.Leads w (w.flushed device)
  /-- A parked request is taken, and its routine is run. -/
  dequeue : ∀ {w : World σ ρ} {queue queue' : CompletionQueue (Request ρ)} {request : Request ρ},
    w.completions = some queue → queue.dequeue = some (request, queue') →
    HostM.Ends (Host.callRoutine env request) { w with completions := some queue' } (c.Leads w)
      fun _ => c.Leads w

/-- The call submits only routines that are allowed. -/
def Call.Fits (allows : EndpointRef → ρ → Prop) : Call ρ α → Prop
  | .transferAsync r request _ => ∀ routine ∈ request.routine, allows r routine
  | _ => True

/-- Where all routines are allowed, every call fits. -/
theorem Call.fits_of_forall {allows : EndpointRef → ρ → Prop} (h : ∀ r routine, allows r routine)
    (c : Call ρ α) : c.Fits allows := by
  cases c
  case transferAsync r request timeout => exact fun routine _ => h r routine
  all_goals trivial

namespace Host

variable {env : Env σ ρ} {c : Conduct σ ρ} {ran : σ → List ρ} {allows : EndpointRef → ρ → Prop}

open HostAttempt (lift)

section

variable (h : c.Admits ran allows env)
include h

/-! ### Commands and input contexts -/

theorem obeys_aside {f : World σ ρ → World σ ρ}
    (hf : ∀ w : World σ ρ, w.Elsewhere ran (f w)) :
    (modify f : HostM σ ρ Unit).Obeys c :=
  .modify fun w => h.elsewhere (hf w)

theorem obeys_setCommands (commands : CommandRing) :
    (HostM.setCommands commands : HostM σ ρ Unit).Obeys c :=
  obeys_aside h fun _ => ⟨rfl, rfl, rfl, rfl, rfl, Nat.le_refl _, rfl⟩

theorem obeys_translate (id : Dma.BufferId) : (HostM.translate env id).Obeys c :=
  fun _ => h.elsewhere ⟨rfl, rfl, rfl, rfl, rfl, Nat.le_refl _, h.mute.busAddress id _⟩

theorem obeys_doorbell (slot : UInt8) (target : UInt32) :
    (HostM.onPlatform (env.doorbell slot target) : HostM σ ρ Unit).Obeys c :=
  fun _ => h.elsewhere ⟨rfl, rfl, rfl, rfl, rfl, Nat.le_refl _, h.mute.doorbell slot target _⟩

theorem obeys_takeTurn : (takeTurn : HostM σ ρ Bool).Obeys c := by
  refine HostM.Obeys.controller.bind fun controller => ?_
  dsimp only
  split
  · exact .pure _
  · exact (obeys_setCommands h _).bind fun _ => .pure _

theorem obeys_takeCompleted : (takeCompleted : HostM σ ρ Bool).Obeys c :=
  HostM.Obeys.controller.bind fun _ => (obeys_setCommands h _).bind fun _ => .pure _

theorem obeys_runCommand (t : Trb) : (runCommand env t).run.Obeys c := by
  refine .attempt_bind (.lift .controller) fun controller =>
    .attempt_bind (.lift (.ofExcept _)) fun issued =>
    .attempt_bind (.attempt_ofExcept issued) fun commands =>
    .attempt_bind (.lift (obeys_setCommands h commands)) fun _ =>
    .attempt_bind (.lift (obeys_doorbell h 0 0)) fun _ =>
    .attempt_bind (.lift (.awaitSignal h.yieldNow (obeys_takeCompleted h) _)) fun _ =>
    .attempt_bind (.lift .controller) fun controller' =>
    .attempt_bind (.lift (obeys_setCommands h _)) fun _ => ?_
  split
  · exact .attempt_pure _
  · exact .refuse _

theorem obeys_command (t : Trb) : (command env t).run.Obeys c := by
  refine .attempt_bind (HostM.Obeys.bind ?_ fun _ => (obeys_runCommand h t).bind fun result =>
    HostM.Obeys.bind (obeys_aside h fun _ => ⟨rfl, rfl, rfl, rfl, rfl, Nat.le_refl _, rfl⟩) fun _ =>
    .pure result) fun report => .attempt_ofExcept _
  exact .awaitSome h.yieldNow ((obeys_takeTurn h).bind fun _ => .pure _) _

theorem obeys_disableSlot (slot : UInt8) : (disableSlot env slot).run.Obeys c :=
  .attempt_discard (obeys_command h _)

theorem obeys_enableSlot : (enableSlot env).run.Obeys c :=
  .enableSlot (obeys_command h _)

theorem obeys_commandCompleted (address : UInt64) (code : CompletionCode) (slot : UInt8) :
    (commandCompleted address code slot : HostM σ ρ Unit).Obeys c :=
  HostM.Obeys.controller.bind fun _ => (HostM.Obeys.ofExcept _).bind fun commands =>
    obeys_setCommands h commands

/-- A command about an input context, which is looked up on the bus first. -/
theorem obeys_inputCommand (input : Dma.BufferId) (t : UInt64 → Trb) :
    (do
      let pointer ← lift (HostM.translate env input)
      discard (command env (t pointer)) : HostAttempt σ ρ Unit).run.Obeys c :=
  .attempt_bind (.lift (obeys_translate h input)) fun pointer =>
    .attempt_discard (obeys_command h (t pointer))

theorem obeys_withInput {make : HostAttempt σ ρ Dma.BufferId}
    {use : Dma.BufferId → HostAttempt σ ρ α} (hmake : MakesInput make)
    (huse : ∀ input, (use input).run.Obeys c) : (withInput make use).run.Obeys c := by
  refine .attempt_bind (fun w => ?_) fun input => .attempt_bind (.lift (huse input)) fun result =>
    .attempt_bind (.lift ?_) fun _ => .attempt_ofExcept result
  · refine ((hmake w).ends (c.refl w) (fun _ => c.refl w) ?_).run
    rintro _ _ ⟨-, content, rfl⟩
    exact h.elsewhere ⟨rfl, rfl, rfl, rfl, rfl, Nat.le_refl _, rfl⟩
  · exact obeys_aside h fun _ => ⟨rfl, rfl, rfl, rfl, rfl, Nat.le_refl _, rfl⟩

/-! ### Requests -/

theorem located_elsewhere (request : Request ρ) (w : World σ ρ) :
    w.Elsewhere ran (located env request w).2 := by
  unfold located
  cases request.buffer with
  | none => exact ⟨rfl, rfl, rfl, rfl, rfl, Nat.le_refl _, rfl⟩
  | some buffer => exact ⟨rfl, rfl, rfl, rfl, rfl, Nat.le_refl _, h.mute.busAddress buffer.id _⟩

theorem submit_leads (r : EndpointRef) (request : Request ρ) (notify : Notify)
    (deadline : Option UInt64)
    (hfits : notify = .routine → ∀ routine ∈ request.routine, allows r routine) {w : World σ ρ}
    (hseat : ∀ k, notify = .waiter k → k.index < w.waiters.size) :
    HostM.Ends (submit env r request notify deadline) w (c.Leads w) fun _ => c.Leads w := by
  have haside := located_elsewhere h request w
  refine submit_ends (obeys_doorbell h) (h.elsewhere haside) fun e e' result hw₁ hstep => ?_
  refine (h.step hw₁ hstep (fun routine hroutine => ?_) fun k hk => ?_).1
  · cases notify with
    | waiter id => cases hroutine
    | routine => exact hfits rfl routine (Option.mem_toList.1 hroutine)
  · obtain ⟨_, _, _, hop⟩ := hk
    cases hop
    exact Nat.lt_of_lt_of_le (hseat k rfl) haside.waiters_le

theorem entrust_leads (r : EndpointRef) (request : Request ρ) (notify : Notify)
    (deadline : Option UInt64)
    (hfits : notify = .routine → ∀ routine ∈ request.routine, allows r routine) {w : World σ ρ}
    (hseat : ∀ k, notify = .waiter k → k.index < w.waiters.size) :
    HostM.Ends (entrust env r request notify deadline) w (c.Leads w) fun _ => c.Leads w :=
  entrust_ends (submit_leads h r request notify deadline hfits hseat)

theorem obeys_transferAsync (r : EndpointRef) (request : Request ρ) (timeout : UInt64)
    (hfits : ∀ routine ∈ request.routine, allows r routine) :
    (transferAsync env r request timeout).Obeys c :=
  .transferAsync fun deadline _ =>
    entrust_leads h r request .routine deadline (fun _ => hfits) nofun

/-- A step that is no submission is admitted. -/
theorem leads_step {w : World σ ρ} {r : EndpointRef} {e e' : Endpoint ρ} {op : Endpoint.Op ρ}
    {reply : Endpoint.Reply} {ds : List (Delivery ρ)}
    (hop : ∀ request data notify deadline, op ≠ .submit request data notify deadline)
    (hw : w.endpoints[r.index]? = some e) (hstep : e.step op = .ok ((reply, ds), e')) :
    c.Leads w (w.put r e') ∧
      HostM.Ends (handOn env e.owner ds) (w.put r e') (c.Leads w) fun _ => c.Leads w := by
  have hnone : op.routines = [] := by
    cases op with
    | submit request data notify deadline => exact absurd rfl (hop request data notify deadline)
    | _ => rfl
  refine h.step hw hstep (fun routine hroutine => ?_) fun k hk => ?_
  · rw [hnone] at hroutine
    exact (List.not_mem_nil hroutine).elim
  · obtain ⟨request, data, deadline, heq⟩ := hk
    exact absurd heq (hop request data _ deadline)

theorem admits_step (r : EndpointRef) {op : Endpoint.Op ρ}
    (hop : ∀ request data notify deadline, op ≠ .submit request data notify deadline) :
    c.AdmitsStep env r op :=
  fun _ _ _ _ _ hw hstep => (leads_step h hop hw hstep).2

theorem obeys_transferEvent (r : EndpointRef) (event : TransferEvent) :
    (transferEvent env r event).Obeys c :=
  .transferEvent (admits_step h r fun _ _ _ _ h => nomatch h)

theorem obeys_cancel (r : EndpointRef) (id : RequestId) : (cancel env r id).Obeys c :=
  .cancel (admits_step h r fun _ _ _ _ h => nomatch h)

theorem obeys_pollEndpoint (now : UInt64) (r : EndpointRef) :
    (pollEndpoint env now r).Obeys c := .pollEndpoint (admits_step h r fun _ _ _ _ h => nomatch h)

theorem obeys_invalidate (r : EndpointRef) : (invalidate env r).Obeys c :=
  .invalidate (admits_step h r fun _ _ _ _ h => nomatch h)

/-! ### Synchronous transfers -/

theorem obeys_awaitRequest (r : EndpointRef) (id : RequestId) (waiter : WaiterId)
    (timeout : UInt64) : (awaitRequest env r id waiter timeout).Obeys c := by
  have hseat : ∀ (w : World σ ρ) waiting, c.Leads w (w.seat waiter waiting) :=
    fun w _ => h.elsewhere ⟨rfl, rfl, rfl, rfl, rfl, by simp [World.seat], rfl⟩
  refine .awaitRequest hseat h.yieldNow (fun _ _ _ _ _ hw hstep => ?_) timeout
  exact (leads_step h (by rintro _ _ _ _ ⟨⟩) hw hstep).1

theorem obeys_transfer (r : EndpointRef) (request : Request ρ) (timeout : UInt64) :
    (transfer env r request timeout).Obeys c := by
  intro w
  have hsize : (w.waiters.push {}).size = w.waiters.size + 1 := Array.size_push _
  have hseat : c.Leads w { w with waiters := w.waiters.push {} } :=
    h.elsewhere ⟨rfl, rfl, rfl, rfl, rfl, by simp [hsize], rfl⟩
  have hentrust := entrust_leads h r { request with routine := none } (.waiter ⟨w.waiters.size⟩)
    none nofun (w := { w with waiters := w.waiters.push {} }) <| by
      rintro k ⟨⟩
      exact Nat.lt_of_lt_of_eq (Nat.lt_succ_self _) hsize.symm
  exact transfer_ends (hentrust.mono (fun _ => c.trans hseat) fun _ _ => c.trans hseat)
    fun id timeout => obeys_awaitRequest h r id _ timeout

end

end Host

end UsbHost
