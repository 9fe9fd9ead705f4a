import UsbHost.Proofs.Endpoint.Admission
import UsbHost.Proofs.Endpoint.Expressible
import UsbHost.Proofs.Endpoint.Packets

/-!
Room after an event. The event that ends the oldest TD takes away its record and its TRBs before the
request is handed on. So whoever is handed the request finds room for the same transfer once more,
however full the endpoint has been and whatever else is in flight: the window has one record less,
and on the ring as many TRBs are free as the transfer takes. The room stays until the next
submission.
-/

namespace UsbHost

variable {ρ : Type}

/-- The request `r'` is the same transfer as `r`: the same setup packet, the same packets, and a
buffer of the same length in the same place. Outcome, routine and the bytes may differ. -/
structure Request.Repeats (r r' : Request ρ) : Prop where
  setup_eq : r'.setup = r.setup
  packets_eq : r'.packets = r.packets
  buffer_eq : r'.buffer.map Dma.Buffer.id = r.buffer.map Dma.Buffer.id
  length_eq : r'.bufferLength = r.bufferLength

theorem Request.Repeats.refl (r : Request ρ) : r.Repeats r := ⟨rfl, rfl, rfl, rfl⟩

/-- The outcome of a request does not count. -/
theorem Request.Repeats.of_finish {r r' : Request ρ} {status : Status} {length : Nat}
    (h : (r.finish status length).Repeats r') : r.Repeats r' :=
  ⟨h.setup_eq, h.packets_eq, h.buffer_eq, h.length_eq⟩

namespace TdPlan

variable {r r' : Request ρ} {kind : TransferKind} {data : UInt64} {plan : TdPlan}

theorem ofRequest_repeats (h : r.Repeats r') (kind : TransferKind) (data : UInt64) :
    ofRequest kind r' data = ofRequest kind r data := by
  cases kind with
  | control => simp only [ofRequest, control, h.setup_eq, h.length_eq]
  | bulk | interrupt => simp only [ofRequest, bulk, h.length_eq]
  | isochronous => simp only [ofRequest, isochronous, h.packets_eq, h.length_eq]

/-- Where there is no data, it does not matter where it lies. -/
theorem exists_plan_of_no_data (hlength : r.bufferLength = 0)
    (h : (ofRequest kind r data).run = .ok (.ok plan)) (data' : UInt64) :
    ∃ plan', (ofRequest kind r data').run = .ok (.ok plan') ∧
      plan'.trbs.length = plan.trbs.length := by
  have hbulk : (bulk r data).run ≠ .ok (.ok plan) := by
    intro h
    simp only [bulk, hlength, if_true] at h
    exact refuse_bind_ne_ok h
  cases kind with
  | control =>
    have hsame : control r data' = control r data := by
      simp only [control, hlength, if_true]
    refine ⟨plan, ?_, rfl⟩
    rw [ofRequest, hsame]
    exact h
  | bulk => exact absurd h hbulk
  | interrupt => exact absurd h hbulk
  | isochronous =>
    have hcount := (isochronous_eq_ok h).1
    simp only [ofRequest, isochronous] at h ⊢
    split at h
    · exact absurd h refuse_bind_ne_ok
    · rename_i hpackets
      split at h
      · exact absurd h refuse_bind_ne_ok
      · -- All packets are empty, so none of them ends behind the address space.
        rename_i htotal
        have hlt := data'.toNat_lt
        obtain ⟨trbs, htrbs⟩ : ∃ trbs, packetTrbs data' 0 r.packets = .ok trbs := by
          apply packetTrbs_total
          change data'.toNat < 2 ^ 64 at hlt
          change _ < 2 ^ 64
          omega
        rw [if_neg hpackets, if_neg htotal, hcount, ← length_packetTrbs htrbs]
        exact ⟨_, Attempt.run_bind_eq_ok.2 ⟨trbs, Attempt.run_liftM_eq_ok.2 htrbs, rfl⟩, rfl⟩

end TdPlan

namespace Endpoint

variable {e e' e₁ : Endpoint ρ} {plan : TdPlan}

/-! ### Steps that take nothing -/

/-- The step neither submits a request nor shuts the endpoint down. -/
def Op.Relieves : Op ρ → Prop
  | .submit .. | .invalidate => False
  | .event _ | .giveBack .. | .expire _ => True

/-- Such steps lead from one endpoint to another. In between the packet size may have been set. -/
inductive Eases : Endpoint ρ → Endpoint ρ → Prop
  | refl (e : Endpoint ρ) : Eases e e
  | step {e e₁ e₂ : Endpoint ρ} {op : Op ρ} {reply : Reply} {ds : List (Delivery ρ)}
      (h : Eases e e₁) (hstep : e₁.step op = .ok ((reply, ds), e₂)) (hop : op.Relieves) :
      Eases e e₂
  | packetSize {e e₁ : Endpoint ρ} (h : Eases e e₁) (size : UInt16) :
      Eases e { e₁ with maxPacketSize := size }

theorem Eases.continues (h : e.Eases e') : ∃ ds, Continues e ds e' := by
  induction h with
  | refl => exact ⟨[], .refl _⟩
  | step _ hstep hop ih =>
    obtain ⟨ds, hcontinues⟩ := ih
    refine ⟨_, .step hcontinues hstep ?_⟩
    rintro rfl
    exact hop
  | packetSize _ size ih =>
    obtain ⟨ds, hcontinues⟩ := ih
    exact ⟨ds, .packetSize hcontinues size⟩

theorem Withdraws.length_eq {failure : TransferFailure} {due : InFlight ρ → Prop}
    {rs rs' : List (InFlight ρ)} {ds : List (Delivery ρ)} (h : Withdraws failure due rs ds rs') :
    rs'.length = rs.length := by
  have htds := congrArg List.length h.map_td
  rwa [List.length_map, List.length_map] at htds

/-- When the oldest TD goes, there is room for whatever takes no more TRBs. -/
theorem Aligned.admits_rest (h : e.Aligned) {record : InFlight ρ} {rest : List (InFlight ρ)}
    (hlist : e.inFlight = record :: rest) (hvalid : e.valid = true)
    (hplan : plan.trbs.length ≤ e.ring.freeSlots + record.trbCount) :
    Admits { e with ring := e.ring.drop record.trbCount, inFlight := rest } plan := by
  have hwindow := h.window_le
  have hspan := h.head_span hlist
  rw [hlist, List.length_cons] at hwindow
  refine ⟨hvalid, hwindow, ?_⟩
  show plan.trbs.length ≤ (e.ring.drop record.trbCount).freeSlots
  rwa [ProducerRing.freeSlots_drop h.wellFormed (by omega)]

/-- What is admitted before such a step is admitted after it. -/
theorem Transition.admits {op : Op ρ} {reply : Reply} {ds : List (Delivery ρ)}
    (ht : Transition e op reply ds e') (hs : e.Sound) (hop : op.Relieves) (h : e.Admits plan) :
    e'.Admits plan := by
  cases ht with
  | unplanned => exact hop.elim
  | refused => exact hop.elim
  | accepted => exact hop.elim
  | stale => exact h
  | advanced event record record' rest position _ hlist =>
    have hwindow := h.window
    rw [hlist] at hwindow
    exact ⟨h.valid, hwindow, h.room⟩
  | finished event record record' rest position released outcome ring _ hlist _ _ hrelease =>
    have haligned := hs.aligned h.valid
    obtain rfl := haligned.eq_drop_of_release hlist hrelease
    exact haligned.admits_rest hlist h.valid (Nat.le_add_right_of_le h.room)
  | givenBack id failure =>
    refine ⟨h.valid, ?_, h.room⟩
    rw [(withdraws_giveBack e id failure).length_eq]
    exact h.window
  | expired now =>
    refine ⟨h.valid, ?_, h.room⟩
    rw [(withdraws_expire e now).length_eq]
    exact h.window
  | invalidated => exact hop.elim

theorem Eases.admits (h : e.Eases e') (hs : e.Sound) (hadmits : e.Admits plan) :
    e'.Admits plan := by
  induction h with
  | refl => exact hadmits
  | step h hstep hop ih =>
    obtain ⟨ds, hcontinues⟩ := h.continues
    exact (transition_of_step hstep).admits (hcontinues.sound_sameRoom hs).1 hop ih
  | packetSize _ size ih => exact ⟨ih.valid, ih.window, ih.room⟩

/-! ### The event that ends the oldest TD -/

/-- Ending the oldest TD has given this request back, and made room for what takes no more TRBs than
it has taken. -/
theorem Sound.finished_admits {event : TransferEvent} {d : Delivery ρ} (h : e.Sound)
    (hevent : e.transferEvent event = .ok (some d, e')) :
    ∃ record rest request status length, e.inFlight = record :: rest ∧
      record.cargo = .live request d.notify ∧ d.request = request.finish status length ∧
      ∀ plan : TdPlan, plan.trbs.length ≤ record.trbCount → e'.Admits plan := by
  have ht := transition_event hevent
  rw [Option.toList_some] at ht
  generalize hds : [d] = ds at ht
  cases ht with
  | stale => cases hds
  | advanced => cases hds
  | finished event record record' rest position released outcome ring _ hlist _ _ hrelease =>
    have hvalid := h.valid_of_inFlight hlist
    have haligned := h.aligned hvalid
    obtain rfl := haligned.eq_drop_of_release hlist hrelease
    cases hcargo : record.cargo with
    | tombstone retained =>
      rw [deliveries_tombstone hcargo] at hds
      cases hds
    | live request notify =>
      rw [deliveries_live hcargo] at hds
      cases hds
      refine ⟨record, rest, request, _, _, hlist, hcargo, rfl, fun plan hplan => ?_⟩
      exact haligned.admits_rest hlist hvalid (Nat.le_add_left_of_le hplan)

end Endpoint

end UsbHost
