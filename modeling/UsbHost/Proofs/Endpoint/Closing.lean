import UsbHost.Proofs.Endpoint.Continuation

/-!
Endpoints that are closed. Shutting an endpoint down drops what is in flight and closes it for good:
a closed endpoint takes no request and delivers nothing, and no step opens it again. So whatever
happens to an endpoint, it keeps its owner and its ID, and it has gone on or it is closed.
-/

namespace UsbHost.Endpoint

variable {ρ : Type} {e e' e'' : Endpoint ρ} {op : Op ρ} {reply : Reply} {ds : List (Delivery ρ)}

/-- The endpoint takes no requests any more, and none is in flight. -/
structure Closed (e : Endpoint ρ) : Prop where
  valid_eq : e.valid = false
  inFlight_eq : e.inFlight = []

theorem closed_invalidate (e : Endpoint ρ) : e.invalidate.2.Closed := ⟨rfl, rfl⟩

/-- A request that arrives at a closed endpoint is refused. -/
theorem Closed.submit_eq (h : e.Closed) (plan : TdPlan) (request : Request ρ) (notify : Notify)
    (deadline : Option UInt64) :
    e.submit plan request notify deadline =
      .ok (.error (.endpointNotValid e.id), { e with nextRequest := e.nextRequest + 1 }) := by
  have hrefusal : { e with nextRequest := e.nextRequest + 1 }.refusal? plan =
      some (.endpointNotValid e.id) := by
    rw [refusal?, h.valid_eq]
    rfl
  simp only [submit, hrefusal]
  rfl

/-- No step opens a closed endpoint, and there is nothing to hand on. -/
theorem Closed.of_transition (h : e.Closed) (ht : Transition e op reply ds e') :
    e'.Closed ∧ ds = [] := by
  have hnone : ∀ {failure due ds rs}, Withdraws (ρ := ρ) failure due e.inFlight ds rs →
      rs = [] ∧ ds = [] := by
    intro failure due ds rs hwithdraws
    rw [h.inFlight_eq] at hwithdraws
    cases hwithdraws
    exact ⟨rfl, rfl⟩
  cases ht with
  | unplanned => exact ⟨h, rfl⟩
  | refused => exact ⟨⟨h.valid_eq, h.inFlight_eq⟩, rfl⟩
  | accepted plan _ _ _ hroom =>
    rw [refusal?, h.valid_eq] at hroom
    cases hroom
  | stale => exact ⟨h, rfl⟩
  | advanced _ _ _ _ _ _ hlist =>
    rw [h.inFlight_eq] at hlist
    cases hlist
  | finished _ _ _ _ _ _ _ _ _ hlist =>
    rw [h.inFlight_eq] at hlist
    cases hlist
  | givenBack id failure =>
    obtain ⟨hrecords, hds⟩ := hnone (withdraws_giveBack e id failure)
    exact ⟨⟨h.valid_eq, hrecords⟩, hds⟩
  | expired now =>
    obtain ⟨hrecords, hds⟩ := hnone (withdraws_expire e now)
    exact ⟨⟨h.valid_eq, hrecords⟩, hds⟩
  | invalidated =>
    refine ⟨closed_invalidate e, ?_⟩
    simp only [invalidate, h.inFlight_eq]
    rfl

theorem Transition.frame (ht : Transition e op reply ds e') :
    e'.owner = e.owner ∧ e'.traits = e.traits := by
  cases ht <;> exact ⟨rfl, rfl⟩

/-! ### Whatever happens -/

/-- The endpoint is the same one, and it has gone on or it is closed. -/
structure Follows (e e' : Endpoint ρ) : Prop where
  owner_eq : e'.owner = e.owner
  traits_eq : e'.traits = e.traits
  goesOn : e'.Closed ∨ ∃ ds, Continues e ds e'

theorem Follows.refl (e : Endpoint ρ) : Follows e e := ⟨rfl, rfl, .inr ⟨[], .refl e⟩⟩

theorem Continues.closed (h : Continues e ds e') (hclosed : e.Closed) : e'.Closed := by
  induction h with
  | refl => exact hclosed
  | step _ hstep _ ih => exact (ih.of_transition (transition_of_step hstep)).1
  | packetSize _ _ ih => exact ⟨ih.valid_eq, ih.inFlight_eq⟩

theorem Follows.closed (h : Follows e e') (hclosed : e.Closed) : e'.Closed := by
  rcases h.goesOn with h' | ⟨ds, hcontinues⟩
  · exact h'
  · exact hcontinues.closed hclosed

theorem Follows.trans (h : Follows e e') (h' : Follows e' e'') : Follows e e'' := by
  refine ⟨h'.owner_eq.trans h.owner_eq, h'.traits_eq.trans h.traits_eq, ?_⟩
  rcases h.goesOn with hclosed | ⟨ds, hcontinues⟩
  · exact .inl (h'.closed hclosed)
  · rcases h'.goesOn with hclosed | ⟨ds', hcontinues'⟩
    · exact .inl hclosed
    · exact .inr ⟨ds ++ ds', hcontinues.trans hcontinues'⟩

theorem follows_of_step (h : e.step op = .ok ((reply, ds), e')) : Follows e e' := by
  have ht := transition_of_step h
  refine ⟨ht.frame.1, ht.frame.2, ?_⟩
  cases hop : op with
  | invalidate =>
    subst hop
    cases ht
    exact .inl (closed_invalidate e)
  | _ => exact .inr ⟨_, .step (.refl e) h (by rw [hop]; exact nofun)⟩

theorem follows_packetSize (e : Endpoint ρ) (size : UInt16) :
    Follows e { e with maxPacketSize := size } :=
  ⟨rfl, rfl, .inr ⟨[], .packetSize (.refl e) size⟩⟩

end UsbHost.Endpoint
