import UsbHost.Proofs.Host.Management

/-!
Reachable worlds. Every operation that a host offers is made of moves, and so is every program;
hence what holds of an unused host, and is kept by each kind of move, holds whenever a task or the
surroundings of a blocked task look at the host.
-/

namespace UsbHost

variable {σ ρ α β : Type} {m : AddressMap σ} {managing : Bool}

/-! ### Programs -/

theorem Call.moves {env : Env σ ρ} (henv : env.OnlyMoves m managing) (c : Call ρ α)
    (hc : managing = true ∨ c.isManagement = false) : (c.run env).Obeys (.moves m managing) := by
  cases c with
  | checkRunning => exact Host.moves_checkRunning henv
  | interrupt => exact Host.moves_handleInterrupt henv
  | attach rootPort speed route =>
    exact Host.moves_attach henv (hc.resolve_right nofun) rootPort speed route
  | detach d => exact Host.moves_detach henv (hc.resolve_right nofun) d
  | configure d descriptor =>
    exact Host.moves_configure henv (hc.resolve_right nofun) d descriptor
  | setMaxPacketSize d size => exact Host.moves_setMaxPacketSize henv d size
  | recoverEndpoint r => exact Host.moves_recoverEndpoint henv r
  | processCompletions => exact Host.moves_processCompletions henv
  | pollTimeouts => exact Host.moves_pollTimeouts henv
  | listen => exact fun _ => .aside ⟨rfl, rfl, rfl, rfl, rfl, Nat.le_refl _, .refl m _⟩
  | transferAsync r request timeout => exact Host.moves_transferAsync henv r request timeout
  | transfer r request timeout => exact Host.moves_transfer henv r request timeout
  | cancel r id => exact Host.moves_cancel henv r id
  | pollEndpoint now r => exact Host.moves_pollEndpoint henv now r
  | transferEvent r event => exact Host.moves_transferEvent henv r event
  | invalidate r => exact Host.moves_invalidate henv (hc.resolve_right nofun) r
  | slotEvent event => exact Host.moves_slotEvent henv event
  | commandCompleted address code slot => exact Host.moves_commandCompleted address code slot
  | enableSlot => exact Host.moves_enableSlot henv
  | disableSlot slot => exact Host.moves_disableSlot henv slot
  | stopEndpoint slot endpoint suspend =>
    exact Host.moves_stopEndpoint henv slot endpoint suspend
  | resetEndpoint slot endpoint => exact Host.moves_resetEndpoint henv slot endpoint

theorem Conduct.moves_admitsPrograms :
    (Conduct.moves m managing : Conduct σ ρ).AdmitsPrograms m managing where
  platform _ hf := Host.moves_onPlatform hf
  events _ _ := .aside ⟨rfl, rfl, rfl, rfl, rfl, Nat.le_refl _, .refl m _⟩
  context d f w := .context w d f
  call hplatform henv c hc := c.moves ⟨henv, hplatform⟩ hc

/-- Whatever a program does are moves. -/
theorem Program.moves {p : HostM σ ρ α} (h : Program m managing p) :
    p.Obeys (.moves m managing) :=
  h.obeys Conduct.moves_admitsPrograms

theorem Env.Acts.onlyMoves {env : Env σ ρ} (h : env.Acts m managing) :
    env.OnlyMoves m managing :=
  ⟨h.obeys Conduct.moves_admitsPrograms, h.platform⟩

/-! ### Creation -/

/-- A host that nobody has used. -/
structure World.Unused (w : World σ ρ) : Prop where
  slots_eq : ∃ maxSlots, w.controller.slots = .empty maxSlots
  devices_eq : w.devices = #[]
  endpoints_eq : w.endpoints = #[]
  inputs_eq : w.inputs = #[]
  awaited_eq : w.controller.commands.awaited = none
  wellFormed : w.controller.commands.ring.WellFormed

namespace BusAttempt

variable {p : Platform σ} {config : Config} {b b' : Bus σ}

theorem slotTable_of_ok {maxSlots : UInt8} {slots : SlotTable}
    (h : (slotTable p maxSlots).run b = .ok (.ok slots) b') : slots = .empty maxSlots := by
  unfold slotTable at h
  dsimp only at h
  split at h
  · obtain ⟨_, _, hrefused, -⟩ := HostAttempt.bind_eq_ok h
    cases hrefused
  · obtain ⟨_, _, -, h⟩ := HostAttempt.bind_eq_ok h
    obtain ⟨_, _, -, h⟩ := HostAttempt.bind_eq_ok h
    obtain ⟨_, _, -, h⟩ := HostAttempt.bind_eq_ok h
    cases h
    rfl

theorem commandRing_of_ok (hp : p.Respects m) {commands : CommandRing}
    (h : (commandRing p config).run b = .ok (.ok commands) b') :
    commands.awaited = none ∧ commands.ring.WellFormed := by
  unfold commandRing at h
  obtain ⟨ring, b₁, hring, h⟩ := HostAttempt.bind_eq_ok h
  obtain ⟨_, _, -, h⟩ := HostAttempt.bind_eq_ok h
  cases h
  refine ⟨rfl, ?_⟩
  obtain ⟨layout, base, hlayout, hfits, -, -, rfl⟩ :=
    (producerRing_gives hp .command config.commandRingSize b).of_ok hring
  have hcount := (Ring.layout_bounds hlayout).1
  exact ProducerRing.wellFormed_create .command (Nat.le_trans (by decide) hcount) hfits

theorem controller_of_ok (hp : p.Respects m) {c : Controller}
    (h : (controller p config).run b = .ok (.ok c) b') :
    (∃ maxSlots, c.slots = .empty maxSlots) ∧ c.commands.awaited = none ∧
      c.commands.ring.WellFormed := by
  unfold controller at h
  obtain ⟨_, _, -, h⟩ := HostAttempt.bind_eq_ok h
  obtain ⟨slots, _, hslots, h⟩ := HostAttempt.bind_eq_ok h
  obtain ⟨commands, _, hcommands, h⟩ := HostAttempt.bind_eq_ok h
  obtain ⟨events, _, -, h⟩ := HostAttempt.bind_eq_ok h
  cases h
  exact ⟨⟨_, slotTable_of_ok hslots⟩, commandRing_of_ok hp hcommands⟩

end BusAttempt

theorem World.unused_of_create {env : Env σ ρ} (henv : env.toPlatform.Respects m)
    {config : Config} {b b' : Bus σ} {w : World σ ρ}
    (h : (Host.create env config).run b = .ok (.ok w) b') : w.Unused := by
  unfold Host.create at h
  obtain ⟨c, _, hc, h⟩ := HostAttempt.bind_eq_ok h
  obtain ⟨hslots, hawaited, hring⟩ := BusAttempt.controller_of_ok henv hc
  dsimp only at h
  split at h
  · obtain ⟨completions, _, -, h⟩ := HostAttempt.bind_eq_ok h
    cases h
    exact ⟨hslots, rfl, rfl, rfl, hawaited, hring⟩
  · obtain ⟨completions, _, -, h⟩ := HostAttempt.bind_eq_ok h
    cases h
    exact ⟨hslots, rfl, rfl, rfl, hawaited, hring⟩

theorem World.Unused.onBus {w : World σ ρ} (h : w.Unused) (bus : Bus σ) :
    { w with bus := bus }.Unused :=
  ⟨h.slots_eq, h.devices_eq, h.endpoints_eq, h.inputs_eq, h.awaited_eq, h.wellFormed⟩

/-- What holds of an unused host, and is kept by moves, holds of every reachable world. -/
theorem World.Reachable.invariant {I : World σ ρ → Prop} (hunused : ∀ w, w.Unused → I w)
    (hmoves : ∀ w w', Moves m true w w' → I w → I w') {w : World σ ρ} (h : w.Reachable m) :
    I w := by
  induction h with
  | create henv config h => exact hunused _ ((World.unused_of_create henv h).onBus _)
  | run _ hp ih => exact hmoves _ _ (hp.moves.after _) ih

/-! ### Endpoints -/

/-- What new endpoints have and endpoints keep, whatever step they take, while bus addresses become
known. -/
structure Endpoint.Invariant (I : (Dma.BufferId → Option UInt64) → Endpoint ρ → Prop) : Prop where
  fresh : ∀ {address? e}, e.Fresh → I address? e
  mono : ∀ {address? address?' e}, I address? e →
    (∀ id address, address? id = some address → address?' id = some address) → I address?' e
  step : ∀ {address? e op reply ds e'}, I address? e → e.step op = .ok ((reply, ds), e') →
    op.Addressed address? → I address? e'
  packetSize : ∀ {address? e}, I address? e → ∀ size, I address? { e with maxPacketSize := size }

section Invariant

variable {I : (Dma.BufferId → Option UInt64) → Endpoint ρ → Prop} {w w' : World σ ρ}

/-- One endpoint may be replaced by another one that has the same. -/
theorem World.forall_put (h : ∀ e ∈ w.endpoints, I (w.address? m) e) {r : EndpointRef}
    {e' : Endpoint ρ} (he' : I (w.address? m) e') :
    ∀ e ∈ (w.put r e').endpoints, I (w.address? m) e := by
  intro e he
  rcases Array.mem_or_eq_of_mem_setIfInBounds he with he | rfl
  · exact h e he
  · exact he'

theorem Endpoint.Invariant.addEndpoint (hI : Endpoint.Invariant I)
    (h : ∀ e ∈ w.endpoints, I (w.address? m) e) {e' : Endpoint ρ} (hfresh : e'.Fresh) :
    ∀ e ∈ (w.addEndpoint e').endpoints, I (w.address? m) e := by
  intro e he
  rcases Array.mem_push.1 he with he | rfl
  · exact h e he
  · exact hI.fresh hfresh

theorem Endpoint.Invariant.moves (hI : Endpoint.Invariant I)
    (h : ∀ e ∈ w.endpoints, I (w.address? m) e) (hmoves : Moves m managing w w') :
    ∀ e ∈ w'.endpoints, I (w'.address? m) e := by
  induction hmoves with
  | refl w => exact h
  | trans _ _ ih ih' => exact ih' (ih h)
  | aside haside =>
    intro e he
    rw [haside.endpoints_eq] at he
    exact hI.mono (h e he) haside.addresses
  | context w d f => exact h
  | step hw hstep haddressed _ =>
    exact World.forall_put h (hI.step (h _ (Array.mem_of_getElem? hw)) hstep haddressed)
  | packetSize hw size =>
    exact World.forall_put h (hI.packetSize (h _ (Array.mem_of_getElem? hw)) size)
  | newEndpoint w hfresh => exact hI.addEndpoint h hfresh
  | newDevice w _ => exact h
  | register _ hfresh _ _ _ ih => exact ih (hI.addEndpoint h hfresh)
  | unregister => exact h
  | assign => exact h
  | free => exact h
  | turn => exact h
  | issue => exact h
  | report => exact h
  | signal => exact h
  | conclude => exact h
  | newInput => exact h
  | input _ _ _ ih => exact ih h

theorem World.Reachable.forall_endpoints (hI : Endpoint.Invariant I) (h : w.Reachable m) :
    ∀ e ∈ w.endpoints, I (w.address? m) e := by
  refine h.invariant (fun w hw e he => ?_) fun w w' hmoves hw => hI.moves hw hmoves
  rw [hw.endpoints_eq] at he
  simp at he

end Invariant

end UsbHost
