import UsbHost.Proofs.Endpoint.Addressing
import UsbHost.Proofs.Endpoint.Continuation
import UsbHost.Proofs.Ring.Pending

/-!
Which requests are admitted. A request that has a plan is taken if the endpoint is valid, the window
has room for a record and the ring for all TRBs of the plan; otherwise it is refused for the first
of these that fails, and nothing but the counter of request IDs moves. A ring that is full now is
big enough: once what is in flight has been reported, the same plan is admitted.
-/

namespace UsbHost

variable {ρ : Type}

/-! ### Requests without a plan -/

/-- The attempt is refused for nothing but what is wrong with the request. -/
def Attempt.BlamesRequest {α : Type} (x : Attempt α) : Prop :=
  ∀ error, x.run = .ok (.error error) → ∃ reason, error = .invalidArgument "urb" reason

namespace Attempt.BlamesRequest

variable {α β : Type}

theorem pure (a : α) : BlamesRequest (Pure.pure a : Attempt α) := nofun

theorem refuse (reason : String) : BlamesRequest (TdPlan.refuse reason : Attempt α) := by
  intro error h
  cases h
  exact ⟨reason, rfl⟩

theorem liftM (x : Except Fault α) : BlamesRequest (liftM x : Attempt α) := by
  intro error h
  cases x <;> cases h

theorem bind {x : Attempt α} {f : α → Attempt β} (h : x.BlamesRequest)
    (hf : ∀ a, (f a).BlamesRequest) : (x >>= f).BlamesRequest := by
  intro error hrun
  rw [ExceptT.run_bind] at hrun
  rcases hx : x.run with fault | (refused | a)
  · rw [hx] at hrun
    cases hrun
  · rw [hx] at hrun
    cases hrun
    exact h _ hx
  · rw [hx] at hrun
    exact hf a error hrun

/-- What comes after a refusal does not matter. -/
theorem refuse_bind (reason : String) (f : α → Attempt β) :
    (TdPlan.refuse reason >>= f).BlamesRequest := by
  intro error h
  cases h
  exact ⟨reason, rfl⟩

end Attempt.BlamesRequest

namespace TdPlan

open Attempt (BlamesRequest)

variable {r : Request ρ} {data : UInt64}

theorem blames_control : (control r data).BlamesRequest := by
  unfold control
  simp only
  split
  · split
    · exact .refuse_bind _ _
    · split
      · exact .refuse_bind _ _
      · split <;> exact .pure _
  · exact .refuse _

theorem blames_bulk : (bulk r data).BlamesRequest := by
  unfold bulk
  simp only
  split
  · exact .refuse_bind _ _
  · exact .bind (.liftM _) fun _ => .pure _

theorem blames_isochronous : (isochronous r data).BlamesRequest := by
  unfold isochronous
  simp only
  split
  · exact .refuse_bind _ _
  · split
    · exact .refuse_bind _ _
    · exact .bind (.liftM _) fun _ => .pure _

theorem blames_ofRequest (kind : TransferKind) (r : Request ρ) (data : UInt64) :
    (ofRequest kind r data).BlamesRequest := by
  cases kind with
  | control => exact blames_control
  | bulk | interrupt => exact blames_bulk
  | isochronous => exact blames_isochronous

end TdPlan

namespace Endpoint

variable {e e' : Endpoint ρ} {plan : TdPlan} {error : Error}

/-! ### Room for a plan -/

/-- The endpoint has room for a planned request. -/
structure Admits (e : Endpoint ρ) (plan : TdPlan) : Prop where
  valid : e.valid = true
  window : e.inFlight.length < e.window
  room : plan.trbs.length ≤ e.ring.freeSlots

/-- Why it has none: the first reason that holds. -/
inductive Refuses (e : Endpoint ρ) (plan : TdPlan) : Error → Prop
  | invalid (h : e.valid = false) : Refuses e plan (.endpointNotValid e.id)
  | window (hvalid : e.valid = true) (h : e.window ≤ e.inFlight.length) :
      Refuses e plan (.resourceExhausted "URB window")
  | tooLong (hvalid : e.valid = true) (hwindow : e.inFlight.length < e.window)
      (h : e.ring.capacity - 1 < plan.trbs.length) :
      Refuses e plan (.invalidArgument "urb" "transfer does not fit in the transfer ring")
  | ringFull (hvalid : e.valid = true) (hwindow : e.inFlight.length < e.window)
      (hfits : plan.trbs.length ≤ e.ring.capacity - 1)
      (h : e.ring.freeSlots < plan.trbs.length) : Refuses e plan (.ringFull .transfer)

theorem refusal?_cases (e : Endpoint ρ) (plan : TdPlan) :
    (e.refusal? plan = none ∧ e.Admits plan) ∨
      ∃ error, e.refusal? plan = some error ∧ e.Refuses plan error := by
  unfold refusal?
  split
  · rename_i hvalid
    exact .inr ⟨_, rfl, .invalid (by simpa using hvalid)⟩
  · rename_i hvalid
    have hvalid : e.valid = true := by simpa using hvalid
    split
    · rename_i hwindow
      exact .inr ⟨_, rfl, .window hvalid hwindow⟩
    · rename_i hwindow
      have hwindow := Nat.lt_of_not_le hwindow
      split
      · rename_i hlong
        exact .inr ⟨_, rfl, .tooLong hvalid hwindow hlong⟩
      · rename_i hlong
        split
        · rename_i hfull
          exact .inr ⟨_, rfl, .ringFull hvalid hwindow (Nat.le_of_not_lt hlong) hfull⟩
        · rename_i hfree
          exact .inl ⟨rfl, hvalid, hwindow, Nat.le_of_not_lt hfree⟩

theorem Refuses.not_admits (h : e.Refuses plan error) : ¬ e.Admits plan := by
  rintro ⟨hvalid, hwindow, hroom⟩
  cases h with
  | invalid h => simp [h] at hvalid
  | window _ h => omega
  | tooLong _ _ h =>
    rw [ProducerRing.freeSlots] at hroom
    omega
  | ringFull _ _ _ h => omega

/-! ### What comes of a request -/

/-- The endpoint has taken a planned request: its TRBs are on the ring behind the others, and it has
one more record. -/
structure Adds (e : Endpoint ρ) (plan : TdPlan) (request : Request ρ) (notify : Notify)
    (deadline : Option UInt64) (e' : Endpoint ρ) : Prop where
  eq : e' = { e with
    nextRequest := e.nextRequest + 1
    ring := e'.ring
    inFlight := e'.inFlight }
  pending_eq : e'.ring.pending = e.ring.pending ++ plan.trbs.map (·.withCycle false)
  dequeueIndex_eq : e'.ring.dequeueIndex = e.ring.dequeueIndex
  inFlight_eq : ∃ r, e'.inFlight = e.inFlight ++ [r] ∧ r.id = ⟨e.nextRequest⟩ ∧
    r.cargo = .live request notify ∧ r.firstIndex = e.ring.enqueueIndex ∧
    r.trbCount = plan.trbs.length ∧ r.deadline = deadline

/-- What comes of a request, and of the endpoint, when this is its plan. -/
inductive Judges (e : Endpoint ρ) (request : Request ρ) (notify : Notify)
    (deadline : Option UInt64) :
    Except Error TdPlan → Except Error RequestId → Endpoint ρ → Prop
  | unplanned (error : Error) :
      Judges e request notify deadline (.error error) (.error error) e
  | refused (plan : TdPlan) (error : Error) (h : e.Refuses plan error) :
      Judges e request notify deadline (.ok plan) (.error error)
        { e with nextRequest := e.nextRequest + 1 }
  | accepted (plan : TdPlan) (e' : Endpoint ρ) (h : e.Admits plan)
      (hadds : e.Adds plan request notify deadline e') :
      Judges e request notify deadline (.ok plan) (.ok ⟨e.nextRequest⟩) e'

section Judges

variable {request : Request ρ} {data : UInt64} {notify : Notify} {deadline : Option UInt64}
  {planned : Except Error TdPlan} {result : Except Error RequestId}

theorem Sound.adds (h : e.Sound) (hroom : e.refusal? plan = none) (request : Request ρ)
    (notify : Notify) (deadline : Option UInt64) :
    ∃ e', e.submit plan request notify deadline = .ok (.ok ⟨e.nextRequest⟩, e') ∧
      e.Adds plan request notify deadline e' := by
  have hr := (h.aligned (valid_of_refusal? hroom)).wellFormed
  have hfits := (room_of_refusal? hr hroom).2
  have hroom' : { e with nextRequest := e.nextRequest + 1 }.refusal? plan = none := hroom
  simp only [submit, hroom', enqueueAll_eq hr hfits]
  refine ⟨_, rfl, rfl, ?_, ProducerRing.dequeueIndex_acceptAll _, _, rfl, rfl, rfl, rfl, rfl, rfl⟩
  exact ProducerRing.pending_acceptAll hr hfits

theorem Sound.judges (h : e.Sound)
    (hplan : (TdPlan.ofRequest e.kind request data).run = .ok planned)
    (notify : Notify) (deadline : Option UInt64) :
    ∃ result e', e.submitRequest request data notify deadline = .ok (result, e') ∧
      e.Judges request notify deadline planned result e' := by
  rw [submitRequest, hplan]
  cases planned with
  | error error => exact ⟨_, _, rfl, .unplanned error⟩
  | ok plan =>
    change ∃ result e', e.submit plan request notify deadline = .ok (result, e') ∧ _
    rcases e.refusal?_cases plan with ⟨hroom, hadmits⟩ | ⟨error, hrefusal, hrefuses⟩
    · obtain ⟨e', hsubmit, hadds⟩ := h.adds hroom request notify deadline
      exact ⟨_, e', hsubmit, .accepted plan e' hadmits hadds⟩
    · have hrefusal' : { e with nextRequest := e.nextRequest + 1 }.refusal? plan = some error :=
        hrefusal
      refine ⟨_, _, ?_, .refused plan error hrefuses⟩
      simp only [submit, hrefusal']
      rfl

theorem Judges.accepted_iff (h : e.Judges request notify deadline planned result e') :
    (∃ id, result = .ok id) ↔ ∃ plan, planned = .ok plan ∧ e.Admits plan := by
  cases h with
  | unplanned error => simp
  | refused plan error h => simp [h.not_admits]
  | accepted plan e' h => simp [h]

end Judges

/-! ### Once nothing is in flight -/

/-- No step changes how much an endpoint can hold. -/
structure SameRoom (e e' : Endpoint ρ) : Prop where
  window_eq : e'.window = e.window
  kind_eq : e'.kind = e.kind
  capacity_eq : e'.ring.capacity = e.ring.capacity

theorem Sound.sameRoom (h : e.Sound) {op : Op ρ} {reply : Reply} {ds : List (Delivery ρ)}
    (ht : Transition e op reply ds e') : e.SameRoom e' := by
  cases ht with
  | accepted plan lastTrb ring hplan hroom henqueue =>
    have hr := (h.aligned (valid_of_refusal? hroom)).wellFormed
    rw [enqueueAll_eq hr (room_of_refusal? hr hroom).2, Except.ok.injEq, Prod.mk.injEq] at henqueue
    obtain ⟨-, rfl⟩ := henqueue
    exact ⟨rfl, rfl, ProducerRing.capacity_acceptAll plan.trbs⟩
  | finished event record record' rest position released outcome ring _ hlist _ _ hrelease =>
    have haligned := h.aligned (h.valid_of_inFlight hlist)
    obtain rfl := haligned.eq_drop_of_release hlist hrelease
    exact ⟨rfl, rfl, rfl⟩
  | _ => exact ⟨rfl, rfl, rfl⟩

theorem Continues.sound_sameRoom {ds : List (Delivery ρ)} (h : Continues e ds e') (hs : e.Sound) :
    e'.Sound ∧ e.SameRoom e' := by
  induction h with
  | refl => exact ⟨hs, rfl, rfl, rfl⟩
  | step _ hstep _ ih =>
    obtain ⟨hsound, hwindow, hkind, hcapacity⟩ := ih
    have ht := transition_of_step hstep
    obtain ⟨hwindow', hkind', hcapacity'⟩ := hsound.sameRoom ht
    exact ⟨hsound.transition ht, hwindow'.trans hwindow, hkind'.trans hkind,
      hcapacity'.trans hcapacity⟩
  | packetSize _ size ih =>
    obtain ⟨hsound, hsame⟩ := ih
    exact ⟨hsound.setPacketSize size, hsame.window_eq, hsame.kind_eq, hsame.capacity_eq⟩

/-- What fits on the ring at all is admitted once nothing is in flight. -/
theorem Continues.admits {ds : List (Delivery ρ)} (h : Continues e ds e') (hs : e.Sound)
    (hvalid : e.valid = true) (hwindow : 0 < e.window)
    (hfits : plan.trbs.length ≤ e.ring.capacity - 1) (hnil : e'.inFlight = []) :
    e'.Admits plan := by
  obtain ⟨hsound, hsame⟩ := h.sound_sameRoom hs
  have hvalid' : e'.valid = true := h.valid_eq.trans hvalid
  have hspan := (hsound.aligned hvalid').span_eq
  rw [tds, hnil] at hspan
  have hnone : e'.ring.outstanding = 0 := hspan.symm
  refine ⟨hvalid', ?_, ?_⟩
  · rw [hnil, hsame.window_eq]
    exact hwindow
  · rw [ProducerRing.freeSlots, hnone, hsame.capacity_eq]
    exact hfits

/-- The report that a TD has come to an end at its last TRB. -/
def stalledAt (address : UInt64) : TransferEvent := ⟨⟨6⟩, 0, 0, 0, address⟩

theorem isSome_advance_stalledAt (r : InFlight ρ) (kind : TransferKind) {position : Nat}
    (hlast : position + 1 = r.trbCount) (address : UInt64) :
    (r.advance kind position (stalledAt address)).2.isSome = true := by
  have hcode : (stalledAt address).code.isTransferOk = false := rfl
  cases kind with
  | control => simp [InFlight.advance, InFlight.advanceControl, hcode]
  | bulk | interrupt => simp [InFlight.advance, InFlight.bulkOutcome, hcode]
  | isochronous => simp [InFlight.advance, InFlight.isochronousOutcome, hlast]

/-- Such a report takes the oldest TD away. -/
theorem Sound.step_stalledAt (h : e.Sound) {record : InFlight ρ} {rest : List (InFlight ρ)}
    (hlist : e.inFlight = record :: rest) :
    ∃ reply ds e', e.step (.event (stalledAt record.lastTrb)) = .ok ((reply, ds), e') ∧
      e'.inFlight = rest := by
  have haligned := h.aligned (h.valid_of_inFlight hlist)
  have hr := haligned.wellFormed
  have hspan := haligned.head_span hlist
  have hout := ProducerRing.outstanding_lt hr
  obtain ⟨hfirst, hcount, hlastTrb⟩ := haligned.head_at hlist
  change record.firstIndex = _ at hfirst
  change 1 ≤ record.trbCount at hcount
  change record.lastTrb = e.ring.addressAt ((_ + record.trbCount - 1) % _) at hlastTrb
  have hposition : record.position? e.ring record.lastTrb = some (record.trbCount - 1) := by
    refine (InFlight.position?_eq_some hr (hfirst ▸ hr.dequeue_lt) (by omega)).2 ⟨by omega, ?_⟩
    rw [hlastTrb, hfirst, Nat.add_sub_assoc hcount]
  have hends := isSome_advance_stalledAt record e.kind (by omega : record.trbCount - 1 + 1 = _)
    record.lastTrb
  obtain ⟨outcome, houtcome⟩ := Option.isSome_iff_exists.1 hends
  generalize happlied : e.applied record rest (record.trbCount - 1) (stalledAt record.lastTrb) =
    result
  have hevent : e.transferEvent (stalledAt record.lastTrb) = .ok result := by
    rw [transferEvent_applied haligned hlist rfl hposition, happlied]
  refine ⟨.handled, result.1.toList, result.2, ?_, ?_⟩
  · rw [step, hevent]
    rfl
  · rw [← happlied, applied]
    split
    · rename_i hadvance
      rw [hadvance] at houtcome
      cases houtcome
    · rfl

/-- Events can take away all that is in flight. -/
theorem Sound.exists_drained (h : e.Sound) :
    ∃ ds e', Continues e ds e' ∧ e'.inFlight = [] := by
  generalize hlist : e.inFlight = records
  induction records generalizing e with
  | nil => exact ⟨[], e, .refl e, hlist⟩
  | cons record rest ih =>
    obtain ⟨reply, ds, e₁, hstep, hrest⟩ := h.step_stalledAt hlist
    obtain ⟨ds', e', hcontinues, hnil⟩ := ih (h.transition (transition_of_step hstep)) hrest
    have hfirst : Continues e ([] ++ ds) e₁ := .step (.refl e) hstep nofun
    exact ⟨_, e', hfirst.trans hcontinues, hnil⟩

/-! ### The verdict -/

/-- The request has been judged as it should be. -/
structure Verdict (e : Endpoint ρ) (request : Request ρ) (data : UInt64) (notify : Notify)
    (deadline : Option UInt64) (planned : Except Error TdPlan) (result : Except Error RequestId)
    (e' : Endpoint ρ) : Prop where
  judges : e.Judges request notify deadline planned result e'
  accepted_iff : (∃ id, result = .ok id) ↔ ∃ plan, planned = .ok plan ∧ e.Admits plan
  /-- A full ring is blamed only if the request has its place on an idle one. -/
  ringFull : result = .error (.ringFull .transfer) →
    (∃ ds e'', Continues e' ds e'' ∧ e''.inFlight = []) ∧
    ∀ ds e'', Continues e' ds e'' → e''.inFlight = [] →
      ∃ id e₃, e''.submitRequest request data notify deadline = .ok (.ok id, e₃)

theorem Sound.verdict (h : e.Sound) {request : Request ρ} {data : UInt64}
    {planned : Except Error TdPlan}
    (hplan : (TdPlan.ofRequest e.kind request data).run = .ok planned)
    (notify : Notify) (deadline : Option UInt64) :
    ∃ result e', e.submitRequest request data notify deadline = .ok (result, e') ∧
      e.Verdict request data notify deadline planned result e' := by
  obtain ⟨result, e', hsubmit, hjudges⟩ := h.judges hplan notify deadline
  have hsound := h.transition (transition_submit hsubmit)
  refine ⟨result, e', hsubmit, hjudges, hjudges.accepted_iff, ?_⟩
  rintro rfl
  cases hjudges with
  | unplanned =>
    obtain ⟨reason, hreason⟩ := TdPlan.blames_ofRequest _ _ _ _ hplan
    cases hreason
  | refused plan _ hrefuses =>
    refine ⟨hsound.exists_drained, fun ds e'' hcontinues hnil => ?_⟩
    have hadmits : e''.Admits plan := by
      cases hrefuses with
      | ringFull hvalid hwindow hfits =>
        exact hcontinues.admits hsound hvalid (Nat.zero_lt_of_lt hwindow) hfits hnil
    obtain ⟨hsound'', hsame⟩ := hcontinues.sound_sameRoom hsound
    have hkind : e''.kind = e.kind := hsame.kind_eq
    rw [← hkind] at hplan
    obtain ⟨result, e₃, hsubmit, hjudges⟩ := hsound''.judges hplan notify deadline
    obtain ⟨id, rfl⟩ := hjudges.accepted_iff.2 ⟨plan, rfl, hadmits⟩
    exact ⟨id, e₃, hsubmit⟩

end Endpoint

end UsbHost
