import UsbHost.Proofs.Ring.Pending
import UsbHost.Proofs.Host.Board

/-!
Input contexts and the commands that read them. While a task waits for its command, the input
context of the command is in memory where the TRB says, and whatever the rest of the system does in
the meantime leaves it there as it is. But the context belongs to the call and not to the TRB: a
call that has given its command up frees the context, although the TRB is still on the command ring
and the controller may come to it later.
-/

namespace UsbHost

variable {σ ρ α : Type} {m : AddressMap σ} {managing : Bool}

namespace ProducerRing

/-- Releasing moves the dequeueing end, and does nothing else. -/
theorem exists_drop_of_releaseThrough {r r' : ProducerRing} (hr : r.WellFormed) {address : UInt64}
    {released : Nat} (h : r.releaseThrough address = .ok (released, r')) :
    ∃ n, r' = r.drop n := by
  unfold releaseThrough at h
  split at h
  · cases h
    exact ⟨0, (drop_zero hr).symm⟩
  · rename_i index _
    split at h
    · rename_i hout
      obtain ⟨ring, hrelease, h⟩ := Fault.bind_eq_ok.1 h
      cases h
      rw [isOutstanding, Bool.and_eq_true, decide_eq_true_eq, decide_eq_true_eq] at hout
      rw [release_eq hr hout.2] at hrelease
      exact ⟨_, (Except.ok.inj hrelease).symm⟩
    · cases h
      exact ⟨0, (drop_zero hr).symm⟩

end ProducerRing

namespace CommandRing

/-- Taking in a report changes neither who waits nor what is waited for. -/
theorem complete_frame {c c' : CommandRing} (hr : c.ring.WellFormed) {address : UInt64}
    {report : CommandReport} (h : c.complete address report = .ok c') :
    c'.ring.WellFormed ∧ c'.serial = c.serial ∧ c'.awaited = c.awaited ∧
      c'.underway? = c.underway? := by
  obtain ⟨⟨released, ring⟩, hrelease, h⟩ := Fault.bind_eq_ok.1 h
  obtain ⟨n, rfl⟩ := ProducerRing.exists_drop_of_releaseThrough hr hrelease
  dsimp only at h
  split at h
  · cases h
    exact ⟨hr.drop n, rfl, rfl, rfl⟩
  · cases h
    exact ⟨hr.drop n, rfl, rfl, rfl⟩

/-- The command just issued is the one that is waited for. -/
theorem underway?_of_enqueue {c : CommandRing} (hr : c.ring.WellFormed) {t : Trb}
    {address : UInt64} {ring : ProducerRing} (h : c.ring.enqueue t = .ok (some (address, ring))) :
    ring.WellFormed ∧ ∀ c' : CommandRing, c'.ring = ring → c'.awaited = some address →
      c'.underway? = some (address, t.withCycle c.ring.cycle) := by
  rw [ProducerRing.enqueue_eq hr, Except.ok.injEq] at h
  split at h
  · cases h
  · cases h
    refine ⟨hr.accept t, fun c' hring hawaited => ?_⟩
    have hplace := hr.enqueue_lt
    have hindex : (c.ring.accept t).indexOf? (c.ring.addressAt c.ring.enqueueIndex) =
        some c.ring.enqueueIndex := by
      rw [← ProducerRing.addressAt_accept t]
      exact ProducerRing.indexOf?_addressAt (hr.accept t) (by simpa using Nat.le_of_lt hplace)
    rw [underway?, hawaited, hring]
    simp only [Option.bind_eq_bind, Option.bind_some, hindex]
    rw [ProducerRing.trbAt_accept hr t hplace, if_pos rfl]
    rfl

end CommandRing

@[simp] theorem Trb.readsInput_withCycle (t : Trb) (on : Bool) :
    (t.withCycle on).readsInput = t.readsInput := by
  simp [readsInput]

/-! ### The invariant -/

/-- A command is waited for on somebody's turn, and its input context is in memory. -/
structure World.Guarded (m : AddressMap σ) (w : World σ ρ) : Prop where
  wellFormed : w.controller.commands.ring.WellFormed
  awaited_eq_none : w.isTaken = false → w.controller.commands.awaited = none
  hasInput : ∀ address t, w.controller.commands.underway? = some (address, t) →
    t.readsInput = true → w.HasInput m t.parameter
  id_lt : ∀ b ∈ w.inputs, b.id.index < w.bus.nextBuffer

namespace World.Guarded

variable {w w' : World σ ρ}

/-- What concerns neither commands nor memory. -/
theorem of_frame (h : w.Guarded m)
    (hcommands : w'.controller.commands = w.controller.commands) (hinputs : w'.inputs = w.inputs)
    (hnext : w.bus.nextBuffer ≤ w'.bus.nextBuffer)
    (haddresses : m.Extends w.bus.platform w'.bus.platform) : w'.Guarded m := by
  constructor
  case wellFormed =>
    rw [hcommands]
    exact h.wellFormed
  case awaited_eq_none =>
    rw [World.isTaken, hcommands]
    exact h.awaited_eq_none
  case hasInput =>
    intro address t hcommand hreads
    rw [hcommands] at hcommand
    obtain ⟨b, hb, halive, hplace⟩ := h.hasInput address t hcommand hreads
    rw [← hinputs] at hb
    exact ⟨b, hb, halive, haddresses _ _ hplace⟩
  case id_lt =>
    intro b hb
    rw [hinputs] at hb
    exact Nat.lt_of_lt_of_le (h.id_lt b hb) hnext

theorem addInput (h : w.Guarded m) (content : Context.Input) : (w.addInput content).Guarded m := by
  constructor
  case wellFormed => exact h.wellFormed
  case awaited_eq_none => exact h.awaited_eq_none
  case hasInput =>
    intro address t hcommand hreads
    obtain ⟨b, hb, halive, hplace⟩ := h.hasInput address t hcommand hreads
    exact ⟨b, Array.mem_push.2 (.inl hb), halive, hplace⟩
  case id_lt =>
    intro b hb
    rcases Array.mem_push.1 hb with hb | rfl
    · exact Nat.lt_succ_of_lt (h.id_lt b hb)
    · exact Nat.lt_succ_self _

/-- Nobody waits for a command when no task has the turn, so no context is missed then. -/
theorem freeInput (h : w.Guarded m) (hfree : w.isTaken = false) (id : Dma.BufferId) :
    (w.freeInput id).Guarded m := by
  constructor
  case wellFormed => exact h.wellFormed
  case awaited_eq_none => exact h.awaited_eq_none
  case hasInput =>
    intro address t hcommand
    change w.controller.commands.underway? = _ at hcommand
    rw [CommandRing.underway?, h.awaited_eq_none hfree] at hcommand
    cases hcommand
  case id_lt =>
    intro b hb
    obtain ⟨b', hb', rfl⟩ := Array.mem_map.1 hb
    have hlt := h.id_lt b' hb'
    split <;> exact hlt

theorem issue (h : w.Guarded m) {t : Trb} {address : UInt64} {ring : ProducerRing}
    (henqueue : w.controller.commands.ring.enqueue t = .ok (some (address, ring)))
    (hinput : t.readsInput = true → w.HasInput m t.parameter) :
    (w.setCommands { w.controller.commands with
      ring := ring
      awaited := some address
      report := none
      completed := w.controller.commands.completed.clear
      serial.held := true }).Guarded m := by
  obtain ⟨hring, hunderway⟩ := CommandRing.underway?_of_enqueue h.wellFormed henqueue
  constructor
  case wellFormed => exact hring
  case awaited_eq_none => exact fun hfree => Bool.noConfusion hfree
  case hasInput =>
    intro address' t' hcommand hreads
    rw [hunderway _ rfl rfl, Option.some.injEq, Prod.mk.injEq] at hcommand
    obtain ⟨-, rfl⟩ := hcommand
    rw [Trb.readsInput_withCycle] at hreads
    exact hinput hreads
  case id_lt => exact h.id_lt

theorem report (h : w.Guarded m) {address : UInt64} {report : CommandReport}
    {commands : CommandRing}
    (hcomplete : w.controller.commands.complete address report = .ok commands) :
    (w.setCommands commands).Guarded m := by
  obtain ⟨hring, hserial, hawaited, hunderway⟩ :=
    CommandRing.complete_frame h.wellFormed hcomplete
  constructor
  case wellFormed => exact hring
  case awaited_eq_none =>
    intro hfree
    change commands.serial.held = false at hfree
    rw [hserial] at hfree
    exact hawaited.trans (h.awaited_eq_none hfree)
  case hasInput =>
    intro address' t hcommand
    exact h.hasInput address' t (hunderway.symm.trans hcommand)
  case id_lt => exact h.id_lt

theorem moves (h : w.Guarded m) (hmoves : Moves m managing w w') : w'.Guarded m := by
  induction hmoves with
  | refl w => exact h
  | trans _ _ ih ih' => exact ih' (ih h)
  | aside haside =>
    exact h.of_frame haside.commands_eq haside.inputs_eq haside.nextBuffer_le haside.addresses
  | context => exact h.of_frame rfl rfl (Nat.le_refl _) (.refl m _)
  | step => exact h.of_frame rfl rfl (Nat.le_refl _) (.refl m _)
  | packetSize => exact h.of_frame rfl rfl (Nat.le_refl _) (.refl m _)
  | newEndpoint => exact h.of_frame rfl rfl (Nat.le_refl _) (.refl m _)
  | newDevice => exact h.of_frame rfl rfl (Nat.le_refl _) (.refl m _)
  | register _ _ _ _ _ ih =>
    have hadded := ih (h.of_frame rfl rfl (Nat.le_refl _) (.refl m _))
    exact hadded.of_frame rfl rfl (Nat.le_refl _) (.refl m _)
  | unregister => exact h.of_frame rfl rfl (Nat.le_refl _) (.refl m _)
  | assign => exact h.of_frame rfl rfl (Nat.le_refl _) (.refl m _)
  | free => exact h.of_frame rfl rfl (Nat.le_refl _) (.refl m _)
  | turn => exact ⟨h.wellFormed, fun hfree => Bool.noConfusion hfree, h.hasInput, h.id_lt⟩
  | issue _ henqueue hinput => exact h.issue henqueue hinput
  | report hcomplete => exact h.report hcomplete
  | signal => exact ⟨h.wellFormed, h.awaited_eq_none, h.hasInput, h.id_lt⟩
  | conclude => exact ⟨h.wellFormed, fun _ => rfl, nofun, h.id_lt⟩
  | newInput w content => exact h.addInput content
  | input content _ hfree ih => exact (ih (h.addInput content)).freeInput hfree _

end World.Guarded

theorem World.Reachable.guarded {w : World σ ρ} (h : w.Reachable m) : w.Guarded m := by
  refine h.invariant (fun w hw => ?_) fun w w' hmoves hw => hw.moves hmoves
  constructor
  case wellFormed => exact hw.wellFormed
  case awaited_eq_none => exact fun _ => hw.awaited_eq
  case hasInput =>
    intro address t hcommand
    rw [CommandRing.underway?, hw.awaited_eq] at hcommand
    cases hcommand
  case id_lt =>
    intro b hb
    rw [hw.inputs_eq] at hb
    simp at hb

/-- While a command that reads an input context is waited for, the context is in memory where its
TRB says; and whatever happens meanwhile, it stays there with the content it has. -/
theorem World.Reachable.input_of_underway {w : World σ ρ} (h : w.Reachable m) {address : UInt64}
    {t : Trb} (hcommand : w.controller.commands.underway? = some (address, t))
    (hreads : t.readsInput = true) :
    ∃ b ∈ w.inputs, b.alive = true ∧ w.address? m b.id = some t.parameter ∧
      ∀ (managing : Bool) (α : Type) (p : HostM σ ρ α), Program m managing p →
        b ∈ (w.after p).inputs ∧ (w.after p).address? m b.id = some t.parameter := by
  obtain ⟨b, hb, halive, hplace⟩ := h.guarded.hasInput address t hcommand hreads
  refine ⟨b, hb, halive, hplace, fun managing α p hp => ?_⟩
  have hretains := (hp.moves.after w).retains
  exact ⟨hretains.inputs b hb (h.guarded.id_lt b hb), hretains.addresses _ _ hplace⟩

namespace Board

/-- An endpoint is being configured, and the board does nothing. -/
def configuring : World Board Unit :=
  attached.after ((Call.configure ⟨0⟩ ⟨0x81, 2, 512, 0⟩).run still)

/-- Its input context is in memory. -/
theorem input_of_underway_configuring :
    ∃ address t, configuring.controller.commands.underway? = some (address, t) ∧
      t.readsInput = true ∧ ∃ b ∈ configuring.inputs, b.alive = true ∧
        configuring.address? addresses b.id = some t.parameter ∧
        ∀ (managing : Bool) (α : Type) (p : HostM Board Unit α), Program addresses managing p →
          b ∈ (configuring.after p).inputs ∧
            (configuring.after p).address? addresses b.id = some t.parameter := by
  have hreachable : configuring.Reachable addresses :=
    reachable_attached.run ((acts_still true).call (.configure ⟨0⟩ ⟨0x81, 2, 512, 0⟩) (.inl rfl))
  have hlook : (configuring.controller.commands.underway?.map fun c => c.2.readsInput) =
      some true := by decide +kernel
  obtain ⟨⟨address, t⟩, hcommand, hreads⟩ := Option.map_eq_some_iff.1 hlook
  exact ⟨address, t, hcommand, hreads, hreachable.input_of_underway hcommand hreads⟩

/-- An endpoint was to be configured, but the board did not report the command in time. -/
def unconfigured : World Board Unit :=
  (tell (fun _ => none) attached).after ((Call.configure ⟨0⟩ ⟨0x81, 2, 512, 0⟩).run env)

/-- The call has given Configure Endpoint up and has freed its input context, but the TRB is still
on the command ring. -/
theorem frees_input_before_command_is_done : unconfigured.Reachable addresses ∧
    refusal? ((Call.configure ⟨0⟩ ⟨0x81, 2, 512, 0⟩).run env) (tell (fun _ => none) attached) =
      some (.timeout "xHCI command" 3000) ∧
    unconfigured.controller.commands.ring.isOutstanding 2 = true ∧
    (unconfigured.controller.commands.ring.trbAt 2).kind? = some .configureEndpoint ∧
    ¬ unconfigured.HasInput addresses
      (unconfigured.controller.commands.ring.trbAt 2).parameter := by
  refine ⟨reachable_call (reachable_tell reachable_attached _) _, by decide +kernel,
    by decide +kernel, by decide +kernel, ?_⟩
  have hdead : (unconfigured.inputs.all fun b => !b.alive) = true := by decide +kernel
  rintro ⟨b, hb, halive, -⟩
  have hb := Array.all_eq_true_iff_forall_mem.1 hdead b hb
  rw [halive] at hb
  cases hb

end Board

end UsbHost
