import UsbHost.Proofs.Dma.Layout
import UsbHost.Proofs.Host.Commands

/-!
Input contexts, in moves. The memory of an input context belongs to the call that has made it. No
move frees a context that was there before, because a call frees no memory but that which it has
allocated itself; so the context of a blocked command is still there when its task goes on.
-/

namespace UsbHost

variable {σ ρ α : Type} {m : AddressMap σ} {managing : Bool}

/-! ### What stays -/

/-- Memory that is in use in `w` is the same in `w'`, at the same bus addresses. -/
structure World.Retains (m : AddressMap σ) (w w' : World σ ρ) : Prop where
  nextBuffer_le : w.bus.nextBuffer ≤ w'.bus.nextBuffer
  addresses : m.Extends w.bus.platform w'.bus.platform
  inputs : ∀ b ∈ w.inputs, b.id.index < w.bus.nextBuffer → b ∈ w'.inputs

theorem World.Retains.refl (w : World σ ρ) : w.Retains m w :=
  ⟨Nat.le_refl _, .refl m _, fun _ hb _ => hb⟩

/-- Whatever changes neither the bus nor the input contexts retains them. -/
theorem World.Retains.of_eq {w w' : World σ ρ} (hbus : w'.bus = w.bus)
    (hinputs : w'.inputs = w.inputs) : w.Retains m w' := by
  refine ⟨Nat.le_of_eq (by rw [hbus]), ?_, fun b hb _ => by rwa [hinputs]⟩
  rw [hbus]

theorem World.Retains.trans {w w₁ w₂ : World σ ρ} (h : w.Retains m w₁) (h' : w₁.Retains m w₂) :
    w.Retains m w₂ where
  nextBuffer_le := Nat.le_trans h.nextBuffer_le h'.nextBuffer_le
  addresses := h.addresses.trans h'.addresses
  inputs b hb hlt := h'.inputs b (h.inputs b hb hlt) (Nat.lt_of_lt_of_le hlt h.nextBuffer_le)

theorem World.retains_addInput (w : World σ ρ) (content : Context.Input) :
    w.Retains m (w.addInput content) :=
  ⟨Nat.le_succ _, .refl m _, fun _ hb _ => Array.mem_push.2 (.inl hb)⟩

/-- Freeing one context leaves the others alone. -/
theorem World.mem_freeInput {w : World σ ρ} {b : InputBuffer} {id : Dma.BufferId}
    (hb : b ∈ w.inputs) (hne : b.id ≠ id) : b ∈ (w.freeInput id).inputs := by
  refine Array.mem_map.2 ⟨b, hb, ?_⟩
  rw [if_neg hne]

theorem Moves.retains {w w' : World σ ρ} (h : Moves m managing w w') : w.Retains m w' := by
  induction h with
  | refl w => exact .refl w
  | trans _ _ ih ih' => exact ih.trans ih'
  | aside h => exact ⟨h.nextBuffer_le, h.addresses, fun b hb _ => by rwa [h.inputs_eq]⟩
  | context w d f => exact .of_eq rfl rfl
  | step hw hstep haddressed hop => exact .of_eq rfl rfl
  | packetSize hw size => exact .of_eq rfl rfl
  | newEndpoint w h => exact .of_eq rfl rfl
  | newDevice w h => exact .of_eq rfl rfl
  | @register _ w w₁ e _ _ _ _ _ _ _ _ ih =>
    have hbefore : w.Retains m (w.addEndpoint e) := .of_eq rfl rfl
    exact hbefore.trans (ih.trans (.of_eq rfl rfl))
  | unregister _ hdevice => exact .of_eq rfl rfl
  | assign _ hassign => exact .of_eq rfl rfl
  | free _ hfree => exact .of_eq rfl rfl
  | turn hfree => exact .of_eq rfl rfl
  | issue hfree henqueue hinput => exact .of_eq rfl rfl
  | report hcomplete => exact .of_eq rfl rfl
  | signal w completed => exact .of_eq rfl rfl
  | conclude w => exact .of_eq rfl rfl
  | newInput w content => exact w.retains_addInput content
  | @input w w₁ content _ _ ih =>
    have hall := (w.retains_addInput content).trans ih
    refine ⟨hall.nextBuffer_le, hall.addresses, fun b hb hlt => ?_⟩
    -- What the call frees at its end has been allocated after `b`.
    refine World.mem_freeInput (hall.inputs b hb hlt) ?_
    intro hid
    rw [hid] at hlt
    exact Nat.lt_irrefl _ hlt

/-- An input context that has been found at a bus address stays there. -/
theorem Moves.hasInput {w w' : World σ ρ} (h : Moves m managing w w') {b : InputBuffer}
    {address : UInt64} (hb : b ∈ w.inputs) (halive : b.alive = true)
    (hlt : b.id.index < w.bus.nextBuffer) (haddress : w.address? m b.id = some address) :
    w'.HasInput m address :=
  ⟨b, h.retains.inputs b hb hlt, halive, h.retains.addresses _ _ haddress⟩

/-! ### Looking things up -/

/-- The operation changes nothing. -/
def Looks (x : HostAttempt σ ρ α) : Prop :=
  ∀ w, HostAttempt.AllOrNothing x w fun _ => (· = w)

namespace Looks

theorem device (d : DeviceRef) : Looks (HostAttempt.lift (HostM.device d) : HostAttempt σ ρ _) := by
  intro w
  cases hw : w.devices[d.index]? with
  | none => exact HostAttempt.ends_lift (HostM.ends_of_error (Host.device_none hw) rfl)
  | some device => exact HostAttempt.ends_lift (HostM.ends_of_ok (Host.device_eq hw) rfl)

theorem endpoint (r : EndpointRef) :
    Looks (HostAttempt.lift (HostM.endpoint r) : HostAttempt σ ρ _) := by
  intro w
  cases hw : w.endpoints[r.index]? with
  | none => exact HostAttempt.ends_lift (HostM.ends_of_error (Host.endpoint_none hw) rfl)
  | some e => exact HostAttempt.ends_lift (HostM.ends_of_ok (Host.endpoint_eq hw) rfl)

theorem ofExcept (result : Except Fault α) :
    Looks (HostAttempt.lift (HostM.ofExcept result) : HostAttempt σ ρ α) := by
  intro w
  cases result with
  | error fault => exact rfl
  | ok a => exact rfl

end Looks

/-- The operation puts one input context into memory, or changes nothing. -/
def MakesInput (x : HostAttempt σ ρ Dma.BufferId) : Prop :=
  ∀ w, HostAttempt.AllOrNothing x w fun id w' =>
    id = ⟨w.bus.nextBuffer⟩ ∧ ∃ content, w' = w.addInput content

theorem MakesInput.of_looks {x : HostAttempt σ ρ α} {f : α → HostAttempt σ ρ Dma.BufferId}
    (hx : Looks x) (hf : ∀ a, MakesInput (f a)) : MakesInput (x >>= f) :=
  fun w => (hx w).bind fun a => hf a w

theorem MakesInput.throw (error : Error) :
    MakesInput (MonadExcept.throw error : HostAttempt σ ρ Dma.BufferId) :=
  fun _ => rfl

namespace BusAttempt

variable {b : Bus σ}

theorem ends_ofAttempt {attempt : Attempt α} {failed : Bus σ → Prop}
    {refused : Error → Bus σ → Prop} {done : α → Bus σ → Prop}
    (hfailed : ∀ fault, attempt.run = .error fault → failed b)
    (hrefused : ∀ error, attempt.run = .ok (.error error) → refused error b)
    (hdone : ∀ a, attempt.run = .ok (.ok a) → done a b) :
    HostAttempt.Ends (ofAttempt attempt : BusAttempt σ α) b failed refused done := by
  unfold ofAttempt
  rcases h : attempt.run with fault | error | a
  · exact hfailed fault h
  · exact hrefused error h
  · exact hdone a h

/-- Memory for a table or a context is memory that has not been used before. -/
theorem structureBuffer_gives (size : Nat) (b : Bus σ) :
    HostAttempt.AllOrNothing (structureBuffer size) b fun id b' =>
      id = ⟨b.nextBuffer⟩ ∧ b' = { b with nextBuffer := b.nextBuffer + 1 } := by
  refine HostAttempt.AllOrNothing.bind ?_ fun layout => ⟨rfl, rfl⟩
  exact ends_ofAttempt (fun _ _ => rfl) (fun _ _ => rfl) fun _ _ => rfl

/-- There is memory for a structure of up to 64 KiB. -/
theorem structureBuffer_run {size : Nat} (hpos : 0 < size) (hfits : size ≤ Dma.structureBoundary)
    (b : Bus σ) : (structureBuffer size).run b =
      .ok (.ok ⟨b.nextBuffer⟩) { b with nextBuffer := b.nextBuffer + 1 } := by
  unfold structureBuffer ofAttempt
  rw [Dma.Layout.forStructure_run hpos hfits]
  rfl

end BusAttempt

/-- What happens on the bus happens to the bus of the world. -/
theorem HostAttempt.ends_onBus {w : World σ ρ} {op : BusAttempt σ α} {failed : World σ ρ → Prop}
    {refused : Error → World σ ρ → Prop} {done : α → World σ ρ → Prop}
    (h : HostAttempt.Ends op w.bus (fun b => failed { w with bus := b })
      (fun error b => refused error { w with bus := b }) fun a b => done a { w with bus := b }) :
    HostAttempt.Ends (onBus op) w failed refused done := by
  change HostM.Ends (HostM.onBus op.run) w _ _
  rw [HostM.Ends, HostM.onBus]
  rcases hop : op.run w.bus with ⟨error | a, b⟩ | ⟨fault, b⟩
  · exact h.of_refused hop
  · exact h.of_ok hop
  · exact h.of_error hop

theorem HostAttempt.onBus_gives {w : World σ ρ} {op : BusAttempt σ α} {done : α → Bus σ → Prop}
    (h : AllOrNothing op w.bus done) : AllOrNothing (onBus op) w fun a w' =>
      ∃ b, done a b ∧ w' = { w with bus := b } :=
  ends_onBus (h.ends rfl (fun _ => rfl) fun _ b hb => ⟨b, hb, rfl⟩)

theorem makesInput_inputBuffer (content : Context.Input) :
    MakesInput (HostAttempt.inputBuffer content : HostAttempt σ ρ Dma.BufferId) := by
  intro w
  have hmemory := HostAttempt.onBus_gives (BusAttempt.structureBuffer_gives
    Context.Input.byteSize w.bus)
  refine HostAttempt.Ends.bind hmemory ?_
  rintro _ _ ⟨_, ⟨rfl, rfl⟩, rfl⟩
  exact ⟨rfl, content, rfl⟩

namespace Host

open HostAttempt (lift)

variable {env : Env σ ρ}

theorem makesInput_addressInput (d : DeviceRef) :
    MakesInput (addressInput d : HostAttempt σ ρ Dma.BufferId) := by
  refine .of_looks (.device d) fun device => ?_
  split
  · exact .throw _
  · exact .of_looks (.endpoint _) fun e => .of_looks (.ofExcept _) makesInput_inputBuffer

theorem makesInput_configureInput (d : DeviceRef) (r : EndpointRef) :
    MakesInput (configureInput d r : HostAttempt σ ρ Dma.BufferId) :=
  .of_looks (.device d) fun _ => .of_looks (.endpoint r) fun _ =>
    .of_looks (.ofExcept _) makesInput_inputBuffer

theorem makesInput_packetSizeInput (d : DeviceRef) (r : EndpointRef) :
    MakesInput (packetSizeInput d r : HostAttempt σ ρ Dma.BufferId) :=
  .of_looks (.endpoint r) fun _ => .of_looks (.device d) fun _ =>
    .of_looks (.ofExcept _) makesInput_inputBuffer

/-! ### Calls with an input context -/

/-- What a call does with its input context: moves, and when it is over no task has the turn. -/
def UsesInput (m : AddressMap σ) (managing : Bool) (use : Dma.BufferId → HostAttempt σ ρ α) :
    Prop :=
  ∀ (w : World σ ρ) (b : InputBuffer), b ∈ w.inputs → b.alive = true →
    b.id.index < w.bus.nextBuffer →
    HostM.Ends (use b.id).run w (Moves m managing w)
      fun _ w' => Moves m managing w w' ∧ w'.isTaken = false

theorem moves_withInput {make : HostAttempt σ ρ Dma.BufferId}
    {use : Dma.BufferId → HostAttempt σ ρ α} (hmake : MakesInput make)
    (huse : UsesInput m managing use) : (withInput make use).run.Obeys (.moves m managing) := by
  intro w
  refine HostAttempt.Ends.run ((hmake w).bind_ends (.refl w) (fun _ => .refl w) ?_)
  rintro _ _ ⟨rfl, content, rfl⟩
  have huse := huse (w.addInput content) ⟨⟨w.bus.nextBuffer⟩, content, true⟩
    (Array.mem_push.2 (.inr rfl)) rfl (Nat.lt_succ_self _)
  refine (HostAttempt.ends_lift (huse.mono
    (fun _ => (Moves.newInput w content).trans) fun _ _ h => h)).bind ?_
  rintro result w₁ ⟨hmoves, hfree⟩
  exact HostAttempt.ends_of_run (Moves.input content hmoves hfree)

/-- A command about an input context, which is looked up on the bus first. -/
theorem usesInput_command (henv : env.OnlyMoves m managing) {c : UInt64 → Trb}
    (hc : ∀ address, (c address).parameter = address) :
    UsesInput m managing fun input => (do
      let pointer ← lift (HostM.translate env input)
      discard (command env (c pointer)) : HostAttempt σ ρ Unit) := by
  intro w b hb halive hlt
  let w₁ : World σ ρ := { w with bus.platform := (env.busAddress b.id w.bus.platform).2 }
  have htranslate : (lift (HostM.translate env b.id) : HostAttempt σ ρ UInt64).run w =
      .ok (.ok (env.busAddress b.id w.bus.platform).1) w₁ := rfl
  have htranslated : Moves m managing w w₁ :=
    .aside ⟨rfl, rfl, rfl, rfl, rfl, Nat.le_refl _, henv.platform.busAddress b.id _⟩
  have hcommand := command_ends (t := c (env.busAddress b.id w.bus.platform).1) henv w₁
    fun w₂ hmoves _ => by
      rw [hc]
      exact hmoves.hasInput hb halive hlt (henv.platform.busAddress_eq b.id _)
  refine HostAttempt.Ends.run (HostAttempt.ends_bind_of_ok htranslate
    ((HostAttempt.ends_of_run (hcommand.mono (fun _ => htranslated.trans) ?_)).bind
      fun _ _ hend => HostAttempt.ends_of_run hend))
  rintro _ w' ⟨hmoves, hfree⟩
  exact ⟨htranslated.trans hmoves, hfree⟩

theorem usesInput_addressDevice (henv : env.OnlyMoves m managing) (slot : UInt8)
    (setAddress : Bool) :
    UsesInput m managing fun input => addressDevice env slot input setAddress :=
  usesInput_command henv fun _ => rfl

theorem usesInput_configureEndpoint (henv : env.OnlyMoves m managing) (slot : UInt8)
    (deconfigure : Bool) :
    UsesInput m managing fun input => configureEndpoint env slot input deconfigure :=
  usesInput_command henv fun _ => rfl

theorem usesInput_evaluateContext (henv : env.OnlyMoves m managing) (slot : UInt8) :
    UsesInput m managing (evaluateContext env slot) :=
  usesInput_command henv fun _ => rfl

end Host

end UsbHost
