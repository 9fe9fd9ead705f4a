import UsbHost.Proofs.Endpoint.Retention
import UsbHost.Proofs.Host.Board

/-!
The data of transfers, on the level of the host. Whatever programs do, a valid endpoint has the
buffers that its outstanding TRBs refer to; it lets go of them when it is shut down, and not before.
Shutting down comes before the controller has been told to disable the slot: a host that detaches a
device drops buffers which the controller may still use.
-/

namespace UsbHost

variable {σ ρ : Type} {m : AddressMap σ} {managing : Bool}

/-- Every endpoint is in order and, while it is valid, has the data of its outstanding TRBs. -/
def World.Retaining (m : AddressMap σ) (w : World σ ρ) : Prop :=
  ∀ e ∈ w.endpoints, e.Retaining (w.address? m)

theorem Endpoint.invariant_retaining :
    Endpoint.Invariant fun address? (e : Endpoint ρ) => e.Retaining address? where
  fresh hfresh := retaining_of_fresh hfresh
  mono h hextends := h.mono hextends
  step h hstep haddressed := h.transition (transition_of_step hstep) haddressed
  packetSize h size := ⟨h.sound.setPacketSize size, h.backed⟩

theorem World.Reachable.retaining {w : World σ ρ} (h : w.Reachable m) : w.Retaining m :=
  h.forall_endpoints Endpoint.invariant_retaining

/-- Whatever has happened: as long as a TRB with data is outstanding on a transfer ring, the
endpoint has the buffer around this data in its hands, be it the request's or a tombstone's, if and
only if the endpoint has not been shut down. Nor does it hand a buffer back next, unless an event
ends the TD. -/
theorem World.Reachable.holds_iff_valid {w : World σ ρ} (h : w.Reachable m) {r : EndpointRef}
    {e : Endpoint ρ} (he : w.endpoints[r.index]? = some e) {i : Nat}
    (hi : e.ring.isOutstanding i = true) {span : UInt64 × Nat}
    (hspan : (e.ring.trbAt i).dataSpan? = some span) :
    (e.Holds (w.address? m) span ↔ e.valid = true) ∧
      ∀ op reply ds e', e.step op = .ok ((reply, ds), e') → (∀ event, op ≠ .event event) →
        ∀ d ∈ ds, d.request.buffer = none := by
  refine ⟨(h.retaining e (Array.mem_of_getElem? he)).holds_iff hi hspan, ?_⟩
  intro op reply ds e' hstep hop
  exact (Endpoint.transition_of_step hstep).buffer_eq_none hop

namespace Board

/-- The data of a transfer: its TRB is outstanding, and the endpoint holds the buffer. -/
theorem holds_iff_valid_sending : ∃ e, sending.endpoints[0]? = some e ∧
    e.ring.isOutstanding 1 = true ∧ (e.ring.trbAt 1).dataSpan? = some (0x8010000, 8) ∧
    e.valid = true ∧ (e.Holds (sending.address? addresses) (0x8010000, 8) ↔ e.valid = true) ∧
    ∀ op reply ds e', e.step op = .ok ((reply, ds), e') → (∀ event, op ≠ .event event) →
      ∀ d ∈ ds, d.request.buffer = none := by
  have hlook : (sending.endpoints[0]?.map fun e =>
      (e.ring.isOutstanding 1, (e.ring.trbAt 1).dataSpan?, e.valid)) =
      some (true, some (0x8010000, 8), true) := by decide +kernel
  obtain ⟨e, he, hfields⟩ := Option.map_eq_some_iff.1 hlook
  simp only [Prod.mk.injEq] at hfields
  obtain ⟨hout, hspan, hvalid⟩ := hfields
  exact ⟨e, he, hout, hspan, hvalid, reachable_sending.holds_iff_valid (r := ⟨0⟩) he hout hspan⟩

/-- The device is detached while the board reports no command. -/
def detaching : World Board Unit :=
  (tell (fun _ => none) sending).after ((Call.detach ⟨0⟩).run env)

/-- The command that disables the slot has not been reported, it is still on the command ring, and
so is the TRB with the data on the transfer ring; but the buffer has been dropped. -/
theorem drops_data_before_slot_is_disabled : detaching.Reachable addresses ∧
    ∃ e, detaching.endpoints[0]? = some e ∧ e.ring.isOutstanding 1 = true ∧
      (e.ring.trbAt 1).dataSpan? = some (0x8010000, 8) ∧
      refusal? ((Call.detach ⟨0⟩).run env) (tell (fun _ => none) sending) =
        some (.timeout "xHCI command" 3000) ∧
      detaching.controller.commands.ring.isOutstanding 2 = true ∧
      (detaching.controller.commands.ring.trbAt 2).kind? = some .disableSlot ∧
      ¬ e.Holds (detaching.address? addresses) (0x8010000, 8) := by
  have hlook : (detaching.endpoints[0]?.map fun e =>
      (e.ring.isOutstanding 1, (e.ring.trbAt 1).dataSpan?, e.inFlight.length)) =
      some (true, some (0x8010000, 8), 0) := by decide +kernel
  obtain ⟨e, he, hfields⟩ := Option.map_eq_some_iff.1 hlook
  simp only [Prod.mk.injEq] at hfields
  obtain ⟨hout, hspan, hlength⟩ := hfields
  refine ⟨reachable_call (reachable_tell reachable_sending _) _, e, he, hout, hspan,
    by decide +kernel, by decide +kernel, by decide +kernel, ?_⟩
  rintro ⟨r, hr, -⟩
  rw [List.length_eq_zero_iff.1 hlength] at hr
  cases hr

end Board

end UsbHost
