import UsbHost.Proofs.Endpoint.Ledger

/-!
Endpoints that go on. As long as it is not shut down, an endpoint stays valid or invalid as it is,
whatever it is asked to do; and each request in flight either stays in flight or is handed back
with an outcome. Nothing is dropped.
-/

namespace UsbHost.Endpoint

variable {ρ : Type} {e e' e'' : Endpoint ρ} {ds ds' : List (Delivery ρ)}

/-- Steps other than shutting down lead from one endpoint to another, and yield these deliveries.
In between the packet size may have been set. -/
inductive Continues : Endpoint ρ → List (Delivery ρ) → Endpoint ρ → Prop
  | refl (e : Endpoint ρ) : Continues e [] e
  | step {e e₁ e₂ : Endpoint ρ} {op : Op ρ} {reply : Reply} {ds ds' : List (Delivery ρ)}
      (h : Continues e ds e₁) (hstep : e₁.step op = .ok ((reply, ds'), e₂))
      (hop : op ≠ .invalidate) : Continues e (ds ++ ds') e₂
  | packetSize {e e₁ : Endpoint ρ} {ds : List (Delivery ρ)} (h : Continues e ds e₁)
      (size : UInt16) : Continues e ds { e₁ with maxPacketSize := size }

theorem Continues.trans (h : Continues e ds e') (h' : Continues e' ds' e'') :
    Continues e (ds ++ ds') e'' := by
  induction h' with
  | refl => rwa [List.append_nil]
  | step _ hstep hop ih =>
    rw [← List.append_assoc]
    exact .step ih hstep hop
  | packetSize _ size ih => exact .packetSize ih size

theorem Transition.valid_eq {op : Op ρ} {reply : Reply} (ht : Transition e op reply ds e')
    (hop : op ≠ .invalidate) : e'.valid = e.valid := by
  cases ht with
  | invalidated => exact absurd rfl hop
  | _ => rfl

theorem Continues.valid_eq (h : Continues e ds e') : e'.valid = e.valid := by
  induction h with
  | refl => rfl
  | step _ hstep hop ih => exact ((transition_of_step hstep).valid_eq hop).trans ih
  | packetSize _ _ ih => exact ih

/-! ### Requests in flight -/

/-- A request that was in flight is so still, or has been handed back. -/
def Accounted (s : Submission ρ) (rs : List (InFlight ρ)) (ds : List (Delivery ρ)) : Prop :=
  (∃ r ∈ rs, r.id = s.id ∧ r.cargo = .live s.request s.notify) ∨ ∃ d ∈ ds, s.Finished d

theorem Accounted.mono {s : Submission ρ} {rs rs' : List (InFlight ρ)}
    (h : Accounted s rs ds) (hrs : ∀ r ∈ rs, r ∈ rs') (hds : ∀ d ∈ ds, d ∈ ds') :
    Accounted s rs' ds' := by
  rcases h with ⟨r, hr, hlive⟩ | ⟨d, hd, hfinished⟩
  · exact .inl ⟨r, hrs r hr, hlive⟩
  · exact .inr ⟨d, hds d hd, hfinished⟩

theorem Accounted.here {s : Submission ρ} {rs : List (InFlight ρ)} {r : InFlight ρ} (hr : r ∈ rs)
    (hid : r.id = s.id) (hcargo : r.cargo = .live s.request s.notify) : Accounted s rs ds :=
  .inl ⟨r, hr, hid, hcargo⟩

theorem Withdraws.accounted {failure : TransferFailure} {due : InFlight ρ → Prop}
    {rs rs' : List (InFlight ρ)} (h : Withdraws failure due rs ds rs') {s : Submission ρ}
    {r : InFlight ρ} (hr : r ∈ rs) (hid : r.id = s.id)
    (hlive : r.cargo = .live s.request s.notify) : Accounted s rs' ds := by
  induction h with
  | nil => cases hr
  | keep htd hcargo _ ih =>
    rcases List.mem_cons.1 hr with rfl | hr
    · exact .here List.mem_cons_self ((congrArg Td.id htd).trans hid) (hcargo.trans hlive)
    · exact (ih hr).mono (fun _ => List.mem_cons_of_mem _) fun _ hd => hd
  | bury _ hburied _ _ _ ih =>
    rcases List.mem_cons.1 hr with rfl | hr
    · cases hlive.symm.trans hburied
      exact .inr ⟨_, List.mem_cons_self, rfl, _, _, Request.Status.noConfusion, .inr rfl⟩
    · exact (ih hr).mono (fun _ => List.mem_cons_of_mem _) fun _ => List.mem_cons_of_mem _

/-- The event that ends a TD hands its request back. -/
theorem accounted_of_deliveries {s : Submission ρ} {record record' : InFlight ρ}
    {kind : TransferKind} {position : Nat} {event : TransferEvent} {outcome : Outcome}
    (hadvance : record.advance kind position event = (record', some outcome))
    (hlive : record.cargo = .live s.request s.notify) (rs : List (InFlight ρ)) :
    Accounted s rs (deliveries record outcome) := by
  have hstatus : outcome.status ≠ .pending := by
    rw [InFlight.status_of_advance hadvance]
    split <;> exact Request.Status.noConfusion
  rw [deliveries_live hlive]
  exact .inr ⟨_, List.mem_cons_self, rfl, _, _, hstatus, .inl rfl⟩

theorem Transition.accounted {op : Op ρ} {reply : Reply} (ht : Transition e op reply ds e')
    (hop : op ≠ .invalidate) {s : Submission ρ} {r : InFlight ρ} (hr : r ∈ e.inFlight)
    (hid : r.id = s.id) (hlive : r.cargo = .live s.request s.notify) :
    Accounted s e'.inFlight ds := by
  cases ht with
  | unplanned => exact .here hr hid hlive
  | refused => exact .here hr hid hlive
  | accepted => exact .here (List.mem_append_left _ hr) hid hlive
  | stale => exact .here hr hid hlive
  | advanced event record record' rest position _ hlist _ hadvance =>
    obtain ⟨htd, hcargo⟩ := InFlight.advance_frame_of_eq hadvance
    rw [hlist] at hr
    rcases List.mem_cons.1 hr with rfl | hr
    · exact .here List.mem_cons_self ((congrArg Td.id htd).trans hid) (hcargo.trans hlive)
    · exact .here (List.mem_cons_of_mem _ hr) hid hlive
  | finished event record record' rest position released outcome ring _ hlist _ hadvance =>
    rw [hlist] at hr
    rcases List.mem_cons.1 hr with rfl | hr
    · exact accounted_of_deliveries hadvance hlive rest
    · exact .here hr hid hlive
  | givenBack id failure => exact (withdraws_giveBack e id failure).accounted hr hid hlive
  | expired now => exact (withdraws_expire e now).accounted hr hid hlive
  | invalidated => exact absurd rfl hop

/-- While an endpoint goes on, no request in flight is dropped. -/
theorem Continues.accounted (h : Continues e ds e') {s : Submission ρ} {r : InFlight ρ}
    (hr : r ∈ e.inFlight) (hid : r.id = s.id) (hlive : r.cargo = .live s.request s.notify) :
    Accounted s e'.inFlight ds := by
  induction h with
  | refl => exact .here hr hid hlive
  | step _ hstep hop ih =>
    rcases ih with ⟨r', hr', hid', hlive'⟩ | ⟨d, hd, hfinished⟩
    · exact ((transition_of_step hstep).accounted hop hr' hid' hlive').mono (fun _ h => h)
        fun _ => List.mem_append_right _
    · exact .inr ⟨d, List.mem_append_left _ hd, hfinished⟩
  | packetSize _ _ ih => exact ih

/-- The endpoint is as valid as it was, and its requests in flight are accounted for. -/
structure Unharmed (e e' : Endpoint ρ) : Prop where
  valid_eq : e'.valid = e.valid
  accounted : ∃ ds, Continues e ds e' ∧ ∀ s : Submission ρ, ∀ r ∈ e.inFlight, r.id = s.id →
    r.cargo = .live s.request s.notify → Accounted s e'.inFlight ds

theorem Continues.unharmed (h : Continues e ds e') : e.Unharmed e' :=
  ⟨h.valid_eq, ds, h, fun _ _ hr hid hlive => h.accounted hr hid hlive⟩

end UsbHost.Endpoint
