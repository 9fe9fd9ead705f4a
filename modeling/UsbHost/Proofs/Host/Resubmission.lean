import UsbHost.Proofs.Endpoint.Resubmission
import UsbHost.Proofs.Host.Board
import UsbHost.Proofs.Host.Timeouts

/-!
Completion routines that submit their request once more. A transfer event is taken in completely
before the routine runs: the record and the TRBs of the finished request are gone. So the routine
can submit the same request, and it is taken, even if the endpoint has been so full before the event
that nothing would have been taken.
-/

namespace UsbHost

variable {σ ρ : Type} {m : AddressMap σ}

/-! ### Histories of endpoints -/

namespace Endpoint

/-- The endpoint has a history in which the data of each request lies where its buffer is. -/
def Chronicled (address? : Dma.BufferId → Option UInt64) (e : Endpoint ρ) : Prop :=
  ∃ ps, Placed ps e ∧ ∀ p ∈ ps, ∀ b ∈ p.request.buffer, address? b.id = some p.data

variable {address? : Dma.BufferId → Option UInt64} {e : Endpoint ρ} {op : Op ρ} {reply : Reply}

theorem mem_placed_addressed (hop : op.Addressed address?) {p : Placement ρ}
    (hp : p ∈ e.placed op reply) : ∀ b ∈ p.request.buffer, address? b.id = some p.data := by
  unfold placed at hp
  split at hp
  · split at hp
    · obtain rfl := List.mem_singleton.1 hp
      exact hop
    · cases hp
  · cases hp

theorem invariant_chronicled :
    Endpoint.Invariant fun address? (e : Endpoint ρ) => e.Chronicled address? where
  fresh hfresh := ⟨[], .fresh hfresh, nofun⟩
  mono := by
    rintro address? address?' e ⟨ps, hplaced, hdata⟩ hextends
    exact ⟨ps, hplaced, fun p hp b hb => hextends _ _ (hdata p hp b hb)⟩
  step := by
    rintro address? e op reply ds e' ⟨ps, hplaced, hdata⟩ hstep hop
    refine ⟨_, .step hplaced hstep, fun p hp => ?_⟩
    rcases List.mem_append.1 hp with hp | hp
    · exact hdata p hp
    · exact mem_placed_addressed hop hp
  packetSize := by
    rintro address? e ⟨ps, hplaced, hdata⟩ size
    exact ⟨ps, .packetSize hplaced size, hdata⟩

end Endpoint

/-! ### Submitting again -/

/-- Since `w` the endpoint has neither been given a request nor been shut down, and the bus
addresses of buffers have stayed what they were. -/
structure World.Eased (m : AddressMap σ) (ref : EndpointRef) (w w' : World σ ρ) : Prop where
  endpoint : ∀ e, w.endpoints[ref.index]? = some e →
    ∃ e', w'.endpoints[ref.index]? = some e' ∧ e.Eases e'
  addresses : m.Extends w.bus.platform w'.bus.platform

theorem World.Eased.refl (m : AddressMap σ) (ref : EndpointRef) (w : World σ ρ) :
    w.Eased m ref w :=
  ⟨fun e hw => ⟨e, hw, .refl e⟩, .refl m _⟩

section Resubmission

variable {env : Env σ ρ} {ref : EndpointRef} {w : World σ ρ} {e e' : Endpoint ρ}
  {event : TransferEvent} {d : Delivery ρ}

/-- A request that has been on the endpoint before has a TD of as many TRBs, wherever its buffer is
looked up now. -/
theorem Host.exists_plan_again (henv : env.toPlatform.Respects m) {request again : Request ρ}
    {data : UInt64} {plan : TdPlan} {kind : TransferKind}
    (hplan : (TdPlan.ofRequest kind request data).run = .ok (.ok plan))
    (hdata : ∀ b ∈ request.buffer, w.address? m b.id = some data)
    (hagain : request.Repeats again) :
    ∃ plan', (TdPlan.ofRequest kind again (located env again w).1).run = .ok (.ok plan') ∧
      plan'.trbs.length = plan.trbs.length := by
  rw [TdPlan.ofRequest_repeats hagain]
  have hbuffer := hagain.buffer_eq
  cases hrequest : request.buffer with
  | none =>
    have hlength : request.bufferLength = 0 := by
      rw [Request.bufferLength, hrequest]
      rfl
    exact TdPlan.exists_plan_of_no_data hlength hplan _
  | some b =>
    rw [hrequest, Option.map_some] at hbuffer
    obtain ⟨b', hb', hid⟩ := Option.map_eq_some_iff.1 hbuffer
    -- The platform names the address that the buffer has had when it was submitted.
    have hsame := henv.fst_busAddress (hdata b hrequest)
    have hlocated : (located env again w).1 = data := by
      rw [located, hb']
      simp only [hid, hsame]
    rw [hlocated]
    exact ⟨plan, hplan, rfl⟩

/-- The event that ends a request with a completion routine runs this routine, and leaves room for
the request. -/
theorem Host.transferEvent_routine (hw : w.endpoints[ref.index]? = some e)
    (hsink : e.owner.sink = .immediate) (hevent : e.transferEvent event = .ok (some d, e'))
    (hnotify : d.notify = .routine) {routine : ρ} (hroutine : d.request.routine = some routine) :
    transferEvent env ref event w =
      env.complete routine { d.request with routine := none } (w.put ref e') := by
  simp [transferEvent_eq hw hevent, deliver_of_immediate hnotify hsink,
    callRoutine_of_some hroutine]

/-- What the endpoint has room for is taken, if the deadline is a time. -/
theorem Host.transferAsync_admitted (hsound : e.Sound) (hw : w.endpoints[ref.index]? = some e)
    {request : Request ρ} {plan : TdPlan}
    (hplan : (TdPlan.ofRequest e.kind request (located env request w).1).run = .ok (.ok plan))
    (hroom : e.Admits plan) (timeout : UInt64)
    (htimeout : timeout = 0 ∨ (env.now w.bus.platform).toNat + timeout.toNat < UInt64.size) :
    ∃ id w', transferAsync env ref request timeout w = .ok (.ok id) w' := by
  rw [transferAsync_eq htimeout]
  obtain ⟨result, w', hrun, hsettled⟩ := entrust_settled hsound hw
    (dataAddress_located env request w) hplan .routine (deadlineFor env w timeout)
  cases hsettled with
  | accepted id e' => exact ⟨id, _, hrun⟩
  | rejected error e' hverdict =>
    obtain ⟨id, hid⟩ := hverdict.accepted_iff.2 ⟨plan, rfl, hroom⟩
    cases hid

/-- After the event that ends the oldest request, and until another request has been submitted, the
endpoint has a plan for the same request, and room for it. -/
theorem World.Reachable.admits_again (h : w.Reachable m) (henv : env.toPlatform.Respects m)
    (hw : w.endpoints[ref.index]? = some e)
    (hevent : e.transferEvent event = .ok (some d, e')) {w₁ : World σ ρ}
    (heased : (w.put ref e').Eased m ref w₁) {again : Request ρ}
    (hagain : d.request.Repeats again) :
    ∃ e₁ plan, w₁.endpoints[ref.index]? = some e₁ ∧ e₁.Sound ∧
      (TdPlan.ofRequest e₁.kind again (Host.located env again w₁).1).run = .ok (.ok plan) ∧
      e₁.Admits plan := by
  obtain ⟨ps, hplaced, hdata⟩ := h.forall_endpoints Endpoint.invariant_chronicled e
    (Array.mem_of_getElem? hw)
  have hsound := hplaced.tallies.sound
  have ht := Endpoint.transition_event hevent
  have hsound' : e'.Sound := hsound.transition ht
  -- The oldest request has had its TRBs, and they are free again.
  obtain ⟨record, rest, request, status, length, hlist, hcargo, hrequest, hadmits⟩ :=
    hsound.finished_admits hevent
  obtain ⟨gone, p, younger, rfl, hp, -⟩ := hplaced.tallies.oldest hlist
  obtain rfl := hp.live_eq request _ hcargo
  obtain ⟨e₁, hw₁, heases⟩ := heased.endpoint e' (by simp [hw])
  obtain ⟨ds, hcontinues⟩ := heases.continues
  obtain ⟨hsound₁, hsame⟩ := hcontinues.sound_sameRoom hsound'
  have hkind : e₁.kind = e.kind := hsame.kind_eq.trans (hsound.sameRoom ht).kind_eq
  have hstill : ∀ b ∈ p.request.buffer, w₁.address? m b.id = some p.data :=
    fun b hb => heased.addresses _ _ (hdata p (by simp) b hb)
  rw [hrequest] at hagain
  obtain ⟨plan, hplan, hlength⟩ :=
    Host.exists_plan_again henv hp.planned hstill hagain.of_finish
  refine ⟨e₁, plan, hw₁, hsound₁, by rwa [hkind], heases.admits hsound' (hadmits plan ?_)⟩
  rw [hlength, hp.trbCount_eq]

/-- A completion routine can submit its request again. On an endpoint whose routines run at once,
the event that ends the oldest request runs its routine. As long as nobody has submitted another
request since, the same request is not refused, whatever else has been in flight and however full
window and ring have been; it is taken, unless its timeout goes beyond the end of time. -/
theorem World.Reachable.can_resubmit (h : w.Reachable m) (henv : env.toPlatform.Respects m)
    (hw : w.endpoints[ref.index]? = some e) (hsink : e.owner.sink = .immediate)
    (hevent : e.transferEvent event = .ok (some d, e')) (hnotify : d.notify = .routine)
    {routine : ρ} (hroutine : d.request.routine = some routine) :
    Host.transferEvent env ref event w =
      env.complete routine { d.request with routine := none } (w.put ref e') ∧
    ∀ (w₁ : World σ ρ) (again : Request ρ) (timeout : UInt64),
      (w.put ref e').Eased m ref w₁ → d.request.Repeats again →
      (∀ rejected w₂,
        Host.transferAsync env ref again timeout w₁ ≠ .ok (.error rejected) w₂) ∧
      (timeout = 0 ∨ (env.now w₁.bus.platform).toNat + timeout.toNat < UInt64.size →
        ∃ id w₂, Host.transferAsync env ref again timeout w₁ = .ok (.ok id) w₂) := by
  refine ⟨Host.transferEvent_routine hw hsink hevent hnotify hroutine, ?_⟩
  intro w₁ again timeout heased hagain
  obtain ⟨e₁, plan, hw₁, hsound₁, hplan, hroom⟩ := h.admits_again henv hw hevent heased hagain
  have htaken := Host.transferAsync_admitted hsound₁ hw₁ hplan hroom timeout
  refine ⟨fun rejected w₂ hrejected => ?_, htaken⟩
  by_cases htimeout : timeout = 0 ∨
      (env.now w₁.bus.platform).toNat + timeout.toNat < UInt64.size
  · obtain ⟨id, w', hok⟩ := htaken htimeout
    rw [hok] at hrejected
    cases hrejected
  · rw [not_or, Nat.not_lt] at htimeout
    rw [Host.transferAsync_overflow htimeout.1 htimeout.2] at hrejected
    cases hrejected

end Resubmission

namespace Board

/-- Packets of one byte in this buffer, and a routine. -/
def burst (buffer count : Nat) (h : count ≤ Request.maxPackets) : Request Unit :=
  { Host.packetsOfOne count h with
    buffer := some (.zeroed ⟨buffer⟩ count)
    routine := some () }

/-- An isochronous endpoint has been used once; then two bursts have been submitted that fill window
and ring, the first one across the end of the ring, and the second one has been cancelled. -/
def crowded : World Board Unit :=
  (((((attached.after ((Call.configure ⟨0⟩ ⟨0x81, 1, 64, 1⟩).run env)).after
    ((Call.transferAsync ⟨1⟩ (burst 0x800 10 (by decide)) 0).run env)).after
    ((Call.transferEvent ⟨1⟩ ⟨.success, 0, 1, 3, 0x80090⟩).run env)).after
    ((Call.transferAsync ⟨1⟩ (burst 0x800 7 (by decide)) 0).run env)).after
    ((Call.transferAsync ⟨1⟩ (burst 0x801 7 (by decide)) 0).run env)).after
    ((Call.cancel ⟨1⟩ ⟨3⟩).run env)

theorem reachable_crowded : crowded.Reachable addresses :=
  reachable_call (reachable_call (reachable_call (reachable_call (reachable_call (reachable_call
    reachable_attached _) _) _) _) _) _

/-- The report on the last packet of the burst that is still live. -/
def lastPacket : TransferEvent := ⟨.success, 0, 1, 3, 0x80010⟩

theorem can_resubmit_crowded : ∃ e d e', crowded.endpoints[1]? = some e ∧
    e.inFlight.length = e.window ∧ e.ring.freeSlots = 0 ∧
    e.transferEvent lastPacket = .ok (some d, e') ∧
    Host.transferEvent env ⟨1⟩ lastPacket crowded =
      env.complete () { d.request with routine := none } (crowded.put ⟨1⟩ e') ∧
    ∃ id w, Host.transferAsync env ⟨1⟩ d.request 0 (crowded.put ⟨1⟩ e') = .ok (.ok id) w := by
  have hfull : (crowded.endpoints[1]?.map fun e =>
      (e.owner.sink, e.inFlight.length, e.window, e.ring.freeSlots)) =
      some (.immediate, 2, 2, 0) := by decide +kernel
  have htaken : (crowded.endpoints[1]?.map fun e => (e.transferEvent lastPacket).toOption.bind
      fun taken => taken.1.map fun d => (d.notify, d.request.routine)) =
      some (some (.routine, some ())) := by decide +kernel
  obtain ⟨e, he, hfields⟩ := Option.map_eq_some_iff.1 hfull
  simp only [Prod.mk.injEq] at hfields
  obtain ⟨hsink, hlength, hwindow, hfree⟩ := hfields
  rw [he, Option.map_some, Option.some.injEq] at htaken
  obtain ⟨⟨taken, e'⟩, hevent, hdelivery⟩ := Option.bind_eq_some_iff.1 htaken
  obtain ⟨d, rfl, hroutine⟩ := Option.map_eq_some_iff.1 hdelivery
  rw [Prod.mk.injEq] at hroutine
  have hevent : e.transferEvent lastPacket = .ok (some d, e') := by
    cases hresult : e.transferEvent lastPacket with
    | error fault => simp [hresult, Except.toOption] at hevent
    | ok result =>
      rw [hresult] at hevent
      rw [Option.some.inj hevent]
  have hw : crowded.endpoints[(⟨1⟩ : EndpointRef).index]? = some e := he
  obtain ⟨hrun, hagain⟩ := reachable_crowded.can_resubmit (acts true).platform hw hsink hevent
    hroutine.1 hroutine.2
  exact ⟨e, d, e', he, hlength.trans hwindow.symm, hfree, hevent, hrun,
    (hagain _ _ 0 (.refl _ _ _) (.refl _)).2 (.inl rfl)⟩

end Board

end UsbHost
