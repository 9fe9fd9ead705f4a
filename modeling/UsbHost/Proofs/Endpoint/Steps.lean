import Mathlib.Data.List.Forall2
import UsbHost.Endpoint.Basic
import UsbHost.Proofs.Attempt
import UsbHost.Proofs.Ring.Positions

/-!
Steps of an endpoint. Requests are submitted, events come in, requests are given back early, and
the endpoint may be shut down, all in any order; each of these is one step. What a step can do is
said once, by a relation with one case for each way that it can go, so that a property of all
reachable endpoints is proved by going through these cases.
-/

namespace UsbHost

/-- A transfer descriptor on a ring, under the ID of its request. -/
structure Td where
  id : RequestId
  firstIndex : Nat
  trbCount : Nat
  lastTrb : UInt64
  hasData : Bool

/-- What a record keeps as long as it is in flight. -/
def InFlight.td {ρ : Type} (r : InFlight ρ) : Td :=
  ⟨r.id, r.firstIndex, r.trbCount, r.lastTrb, r.hasData⟩

variable {ρ : Type}

namespace InFlight

section Cargo

variable {r : InFlight ρ} {request : Request ρ} {notify : Notify} {retained : Option Dma.Buffer}

theorem isTombstone_live (h : r.cargo = .live request notify) : r.isTombstone = false := by
  rw [isTombstone, h, Cargo.isTombstone]

@[simp] theorem isTombstone_tombstone (h : r.cargo = .tombstone retained) :
    r.isTombstone = true := by
  rw [isTombstone, h, Cargo.isTombstone]

theorem bury_live (h : r.cargo = .live request notify) (failure : TransferFailure) :
    r.bury failure = (some ⟨notify, request.takeBuffer.2.finish (.failed failure) 0⟩,
      { r with cargo := .tombstone request.buffer }) := by
  rw [bury, h]
  rfl

@[simp] theorem bury_tombstone (h : r.cargo = .tombstone retained) (failure : TransferFailure) :
    r.bury failure = (none, r) := by
  rw [bury, h, Cargo.bury, ← h]

end Cargo

/-- An event changes neither the TD of a record nor what the record holds of its request. -/
theorem advance_frame (r : InFlight ρ) (kind : TransferKind) (position : Nat)
    (event : TransferEvent) :
    (r.advance kind position event).1.td = r.td ∧
      (r.advance kind position event).1.cargo = r.cargo := by
  cases kind with
  | control =>
    simp only [advance, advanceControl]
    split
    · exact ⟨rfl, rfl⟩
    · split <;> exact ⟨rfl, rfl⟩
  | bulk => exact ⟨rfl, rfl⟩
  | interrupt => exact ⟨rfl, rfl⟩
  | isochronous => exact ⟨rfl, rfl⟩

theorem advance_frame_of_eq {r r' : InFlight ρ} {kind : TransferKind} {position : Nat}
    {event : TransferEvent} {outcome : Option Outcome}
    (h : r.advance kind position event = (r', outcome)) : r'.td = r.td ∧ r'.cargo = r.cargo := by
  have hframe := r.advance_frame kind position event
  rwa [h] at hframe

/-- The event that ends a TD decides its status. -/
theorem status_of_advance {r r' : InFlight ρ} {kind : TransferKind} {position : Nat}
    {event : TransferEvent} {outcome : Outcome}
    (h : r.advance kind position event = (r', some outcome)) :
    outcome.status =
      if event.code.isTransferOk then .success else .failed event.code.failure := by
  cases kind with
  | control =>
    simp only [advance, advanceControl] at h
    cases hok : event.code.isTransferOk with
    | false =>
      simp only [hok, Bool.not_false, if_true, Prod.mk.injEq, Option.some.injEq] at h
      rw [← h.2, Outcome.ofCode, hok]
    | true =>
      simp only [hok, Bool.not_true, Bool.false_eq_true, if_false] at h
      split at h
      · cases h
      · cases h
      · cases h
        rfl
  | bulk =>
    simp only [advance, bulkOutcome, Prod.mk.injEq] at h
    obtain ⟨-, h⟩ := h
    split at h
    · cases h
      rfl
    · cases h
  | interrupt =>
    simp only [advance, bulkOutcome, Prod.mk.injEq] at h
    obtain ⟨-, h⟩ := h
    split at h
    · cases h
      rfl
    · cases h
  | isochronous =>
    simp only [advance, isochronousOutcome, Prod.mk.injEq] at h
    obtain ⟨-, h⟩ := h
    split at h
    · cases h
    · cases h
      rfl

end InFlight

namespace Endpoint

inductive Op (ρ : Type)
  /-- Submit a request whose data is at the bus address `data`. -/
  | submit (request : Request ρ) (data : UInt64) (notify : Notify) (deadline : Option UInt64)
  | event (event : TransferEvent)
  /-- Give a request back early: it is cancelled, or the task that waits for it has run out of
  time. -/
  | giveBack (id : RequestId) (failure : TransferFailure)
  | expire (now : UInt64)
  | invalidate

/-- The data of a submitted request lies at the address that the operation names. -/
def Op.Addressed (address? : Dma.BufferId → Option UInt64) : Op ρ → Prop
  | .submit request data _ _ => ∀ b ∈ request.buffer, address? b.id = some data
  | _ => True

/-- What the caller of a step is told. -/
inductive Reply
  | submitted (result : Except Error RequestId)
  | handled
  | givenBack (found : Bool)
  | count (n : Nat)

/-- Plan a request and submit the plan. -/
def submitRequest (e : Endpoint ρ) (request : Request ρ) (data : UInt64) (notify : Notify)
    (deadline : Option UInt64) : Except Fault (Except Error RequestId × Endpoint ρ) := do
  match ← (TdPlan.ofRequest e.kind request data).run with
  | .error error => return (.error error, e)
  | .ok plan => e.submit plan request notify deadline

/-- One step: the reply to the caller, and what is to be handed on. -/
def step (e : Endpoint ρ) : Op ρ → Except Fault ((Reply × List (Delivery ρ)) × Endpoint ρ)
  | .submit request data notify deadline => do
    let (result, e) ← e.submitRequest request data notify deadline
    return ((.submitted result, []), e)
  | .event event => do
    let (delivery, e) ← e.transferEvent event
    return ((.handled, delivery.toList), e)
  | .giveBack id failure =>
    let (delivery, e) := e.giveBack id failure
    .ok ((.givenBack delivery.isSome, delivery.toList), e)
  | .expire now =>
    let (deliveries, e) := e.expire now
    .ok ((.count deliveries.length, deliveries), e)
  | .invalidate =>
    let ((count, woken), e) := e.invalidate
    .ok ((.count count, woken), e)

/-- A new endpoint, on any ring that can be allocated. -/
inductive Fresh : Endpoint ρ → Prop
  | create (owner : Owner) (traits : EndpointTraits) (config : Config) (base : UInt64)
      {layout : Dma.Layout} (hlayout : (Ring.layout config.transferRingSize).run = .ok (.ok layout))
      (hfits : Ring.Fits base config.transferRingSize) :
      Fresh (.create owner traits config (.create .transfer config.transferRingSize base))

/-- The endpoints that steps lead to from a new one. -/
inductive Reachable : Endpoint ρ → Prop
  | fresh {e : Endpoint ρ} (h : Fresh e) : Reachable e
  | step {e e' : Endpoint ρ} {op : Op ρ} {answer : Reply × List (Delivery ρ)} (h : Reachable e)
      (hstep : e.step op = .ok (answer, e')) : Reachable e'

/-- A bulk endpoint on the smallest ring. -/
def smallBulk : Endpoint Unit :=
  .create default { (default : EndpointTraits) with kind := .bulk }
    { transferRingSize := Config.minRingSize } (.create .transfer Config.minRingSize 0x1000)

theorem fresh_smallBulk : Fresh smallBulk :=
  .create _ _ _ _ Ring.layout_minRingSize (by decide)

/-! ### What a step can do -/

/-- The record of an accepted request. -/
def record (e : Endpoint ρ) (plan : TdPlan) (request : Request ρ) (notify : Notify)
    (deadline : Option UInt64) (lastTrb : UInt64) : InFlight ρ where
  id := ⟨e.nextRequest⟩
  cargo := .live request notify
  firstIndex := e.ring.enqueueIndex
  trbCount := plan.trbs.length
  lastTrb := lastTrb
  stage := if e.kind = .control then .setup else .idle
  hasData := plan.hasData
  dataLength := plan.dataLength
  deadline := deadline

/-- What a finished TD delivers. -/
def deliveries (record : InFlight ρ) (outcome : Outcome) : List (Delivery ρ) :=
  match record.cargo with
  | .live request notify => [⟨notify, request.finish outcome.status outcome.length⟩]
  | .tombstone _ => []

theorem deliveries_live {record : InFlight ρ} {request : Request ρ} {notify : Notify}
    (h : record.cargo = .live request notify) (outcome : Outcome) :
    deliveries record outcome = [⟨notify, request.finish outcome.status outcome.length⟩] := by
  rw [deliveries, h]

@[simp] theorem deliveries_tombstone {record : InFlight ρ} {retained : Option Dma.Buffer}
    (h : record.cargo = .tombstone retained) (outcome : Outcome) :
    deliveries record outcome = [] := by
  rw [deliveries, h]

/-- Some live requests of a list of records, all of them `due`, are given back with `failure`, in
their order. Their records become tombstones, which keep the buffers; nothing else changes but
deadlines. -/
inductive Withdraws (failure : TransferFailure) (due : InFlight ρ → Prop) :
    List (InFlight ρ) → List (Delivery ρ) → List (InFlight ρ) → Prop
  | nil : Withdraws failure due [] [] []
  | keep {r r' : InFlight ρ} {rs rs' : List (InFlight ρ)} {ds : List (Delivery ρ)}
      (htd : r'.td = r.td) (hcargo : r'.cargo = r.cargo) (rest : Withdraws failure due rs ds rs') :
      Withdraws failure due (r :: rs) ds (r' :: rs')
  | bury {r r' : InFlight ρ} {rs rs' : List (InFlight ρ)} {ds : List (Delivery ρ)}
      {request : Request ρ} {notify : Notify} (hdue : due r)
      (hlive : r.cargo = .live request notify) (htd : r'.td = r.td)
      (hcargo : r'.cargo = .tombstone request.buffer) (rest : Withdraws failure due rs ds rs') :
      Withdraws failure due (r :: rs)
        (⟨notify, request.takeBuffer.2.finish (.failed failure) 0⟩ :: ds) (r' :: rs')

section Withdraws

variable {failure : TransferFailure} {due : InFlight ρ → Prop} {rs rs' : List (InFlight ρ)}
  {ds : List (Delivery ρ)}

theorem Withdraws.refl : ∀ rs : List (InFlight ρ), Withdraws failure due rs [] rs
  | [] => .nil
  | _ :: rs => .keep rfl rfl (refl rs)

/-- Burying the first record, after its deadline may have been cleared. -/
theorem Withdraws.cons_bury {r r₀ : InFlight ρ} (hdue : due r) (htd : r₀.td = r.td)
    (hcargo : r₀.cargo = r.cargo) (rest : Withdraws failure due rs ds rs') :
    Withdraws failure due (r :: rs) ((r₀.bury failure).1.toList ++ ds)
      ((r₀.bury failure).2 :: rs') := by
  cases hr : r.cargo with
  | live request notify =>
    rw [InFlight.bury_live (hcargo.trans hr)]
    exact .bury hdue hr htd rfl rest
  | tombstone retained =>
    rw [InFlight.bury_tombstone (hcargo.trans hr)]
    exact .keep htd hcargo rest

/-- Giving requests back early does not touch TDs. -/
theorem Withdraws.map_td (h : Withdraws failure due rs ds rs') :
    rs'.map InFlight.td = rs.map InFlight.td := by
  induction h with
  | nil => rfl
  | keep htd _ _ ih => rw [List.map_cons, List.map_cons, htd, ih]
  | bury _ _ htd _ _ ih => rw [List.map_cons, List.map_cons, htd, ih]

end Withdraws

/-- Some records of a list, all of them `due`, are buried with `failure`, perhaps after their
deadline has been cleared. -/
inductive Buries (failure : TransferFailure) (due : InFlight ρ → Prop) :
    List (InFlight ρ) → List (Delivery ρ) → List (InFlight ρ) → Prop
  | nil : Buries failure due [] [] []
  | keep (r : InFlight ρ) {rs rs' : List (InFlight ρ)} {ds : List (Delivery ρ)}
      (rest : Buries failure due rs ds rs') : Buries failure due (r :: rs) ds (r :: rs')
  | bury {r : InFlight ρ} (deadline : Option UInt64) {rs rs' : List (InFlight ρ)}
      {ds : List (Delivery ρ)} (hdue : due r) (rest : Buries failure due rs ds rs') :
      Buries failure due (r :: rs)
        ((InFlight.bury { r with deadline := deadline } failure).1.toList ++ ds)
        ((InFlight.bury { r with deadline := deadline } failure).2 :: rs')

section Buries

variable {failure : TransferFailure} {due : InFlight ρ → Prop} {rs rs' : List (InFlight ρ)}
  {ds : List (Delivery ρ)}

theorem Buries.refl : ∀ rs : List (InFlight ρ), Buries failure due rs [] rs
  | [] => .nil
  | r :: rs => .keep r (refl rs)

theorem buries_buryFirst (id : RequestId) (failure : TransferFailure) (rs : List (InFlight ρ)) :
    Buries failure (fun r => r.id = id) rs (buryFirst id failure rs).1.toList
      (buryFirst id failure rs).2 := by
  induction rs with
  | nil => exact .nil
  | cons r rs ih =>
    by_cases hid : r.id = id
    · simp only [buryFirst, hid, if_true]
      simpa using Buries.bury r.deadline hid (.refl rs)
    · simp only [buryFirst, hid, if_false]
      exact .keep r ih

theorem buries_buryExpired (now : UInt64) (rs : List (InFlight ρ)) :
    Buries .timeout (fun r => r.deadline.any (· ≤ now)) rs (buryExpired now rs).1
      (buryExpired now rs).2 := by
  induction rs with
  | nil => exact .nil
  | cons r rs ih =>
    by_cases hdue : r.deadline.any (· ≤ now) = true
    · simp only [buryExpired, hdue, if_true]
      exact .bury none hdue ih
    · simp only [buryExpired, hdue]
      exact .keep r ih

/-- What each record is to itself and to what burying makes of it, it is to what becomes of it. -/
theorem Buries.forall₂ {R : InFlight ρ → InFlight ρ → Prop} (hrefl : ∀ r, R r r)
    (hbury : ∀ (r : InFlight ρ) deadline,
      R r (InFlight.bury { r with deadline := deadline } failure).2)
    (h : Buries failure due rs ds rs') : List.Forall₂ R rs rs' := by
  induction h with
  | nil => exact .nil
  | keep r _ ih => exact .cons (hrefl r) ih
  | bury deadline _ _ ih => exact .cons (hbury _ deadline) ih

theorem Buries.map_eq {β : Type} {f : InFlight ρ → β}
    (hbury : ∀ (r : InFlight ρ) deadline,
      f (InFlight.bury { r with deadline := deadline } failure).2 = f r)
    (h : Buries failure due rs ds rs') : rs'.map f = rs.map f := by
  induction h with
  | nil => rfl
  | keep r _ ih => rw [List.map_cons, List.map_cons, ih]
  | bury deadline _ _ ih => rw [List.map_cons, List.map_cons, hbury, ih]

theorem Buries.withdraws (h : Buries failure due rs ds rs') : Withdraws failure due rs ds rs' := by
  induction h with
  | nil => exact .nil
  | keep r _ ih => exact .keep rfl rfl ih
  | bury deadline hdue _ ih => exact .cons_bury hdue rfl rfl ih

theorem withdraws_giveBack (e : Endpoint ρ) (id : RequestId) (failure : TransferFailure) :
    Withdraws failure (fun r => r.id = id) e.inFlight (e.giveBack id failure).1.toList
      (e.giveBack id failure).2.inFlight :=
  (buries_buryFirst id failure e.inFlight).withdraws

theorem withdraws_expire (e : Endpoint ρ) (now : UInt64) :
    Withdraws .timeout (fun r => r.deadline.any (· ≤ now)) e.inFlight (e.expire now).1
      (e.expire now).2.inFlight :=
  (buries_buryExpired now e.inFlight).withdraws

end Buries

/-- The ways a step can go. -/
inductive Transition (e : Endpoint ρ) : Op ρ → Reply → List (Delivery ρ) → Endpoint ρ → Prop
  /-- The request cannot be expressed. -/
  | unplanned {request data notify deadline} (error : Error) :
      Transition e (.submit request data notify deadline) (.submitted (.error error)) [] e
  | refused {request data notify deadline} (error : Error) :
      Transition e (.submit request data notify deadline) (.submitted (.error error)) []
        { e with nextRequest := e.nextRequest + 1 }
  | accepted {request data notify deadline} (plan : TdPlan) (lastTrb : UInt64)
      (ring : ProducerRing)
      (hplan : (TdPlan.ofRequest e.kind request data).run = .ok (.ok plan))
      (hroom : e.refusal? plan = none)
      (henqueue : enqueueAll e.ring 0 plan.trbs = .ok (lastTrb, ring)) :
      Transition e (.submit request data notify deadline) (.submitted (.ok ⟨e.nextRequest⟩)) []
        { e with
          nextRequest := e.nextRequest + 1
          ring := ring
          inFlight := e.inFlight ++ [e.record plan request notify deadline lastTrb] }
  /-- The event concerns no request in flight. -/
  | stale (event : TransferEvent)
      (hstale : event.code.isRingReport = true ∨ ∀ record ∈ e.inFlight.head?,
        record.position? e.ring event.address = none) :
      Transition e (.event event) .handled [] e
  /-- The oldest TD goes on. -/
  | advanced (event : TransferEvent) (record record' : InFlight ρ) (rest : List (InFlight ρ))
      (position : Nat) (hreport : event.code.isRingReport = false)
      (hlist : e.inFlight = record :: rest)
      (hposition : record.position? e.ring event.address = some position)
      (hadvance : record.advance e.kind position event = (record', none)) :
      Transition e (.event event) .handled [] { e with inFlight := record' :: rest }
  /-- The oldest TD is finished. -/
  | finished (event : TransferEvent) (record record' : InFlight ρ) (rest : List (InFlight ρ))
      (position released : Nat) (outcome : Outcome) (ring : ProducerRing)
      (hreport : event.code.isRingReport = false) (hlist : e.inFlight = record :: rest)
      (hposition : record.position? e.ring event.address = some position)
      (hadvance : record.advance e.kind position event = (record', some outcome))
      (hrelease : e.ring.releaseThrough record.lastTrb = .ok (released, ring)) :
      Transition e (.event event) .handled (deliveries record outcome)
        { e with ring := ring, inFlight := rest }
  | givenBack (id : RequestId) (failure : TransferFailure) :
      Transition e (.giveBack id failure) (.givenBack (e.giveBack id failure).1.isSome)
        (e.giveBack id failure).1.toList (e.giveBack id failure).2
  | expired (now : UInt64) :
      Transition e (.expire now) (.count (e.expire now).1.length) (e.expire now).1
        (e.expire now).2
  | invalidated :
      Transition e .invalidate (.count e.inFlight.length) e.invalidate.1.2 e.invalidate.2

theorem transition_submit {e e' : Endpoint ρ} {request : Request ρ} {data : UInt64}
    {notify : Notify} {deadline : Option UInt64} {result : Except Error RequestId}
    (h : e.submitRequest request data notify deadline = .ok (result, e')) :
    Transition e (.submit request data notify deadline) (.submitted result) [] e' := by
  obtain ⟨planned, hplan, h⟩ := Fault.bind_eq_ok.1 h
  cases planned with
  | error error =>
    cases h
    exact .unplanned error
  | ok plan =>
    simp only [submit] at h
    split at h
    · cases h
      exact .refused _
    · rename_i hroom
      obtain ⟨⟨lastTrb, ring⟩, henqueue, h⟩ := Fault.bind_eq_ok.1 h
      cases h
      exact .accepted plan lastTrb ring hplan hroom henqueue

theorem transition_event {e e' : Endpoint ρ} {event : TransferEvent}
    {delivery : Option (Delivery ρ)} (h : e.transferEvent event = .ok (delivery, e')) :
    Transition e (.event event) .handled delivery.toList e' := by
  unfold transferEvent at h
  split at h
  · rename_i hreport
    cases h
    exact .stale event (.inl hreport)
  · rename_i hreport
    rw [Bool.not_eq_true] at hreport
    split at h
    · rename_i hlist
      cases h
      exact .stale event (.inr (by simp [hlist]))
    · rename_i record rest hlist
      split at h
      · rename_i hposition
        cases h
        exact .stale event (.inr (by simp [hlist, hposition]))
      · rename_i position hposition
        split at h
        · rename_i record' hadvance
          cases h
          exact .advanced event record record' rest position hreport hlist hposition hadvance
        · rename_i record' outcome hadvance
          obtain ⟨htd, hcargo⟩ := InFlight.advance_frame_of_eq hadvance
          have hlast : record'.lastTrb = record.lastTrb := congrArg Td.lastTrb htd
          obtain ⟨⟨released, ring⟩, hrelease, h⟩ := Fault.bind_eq_ok.1 h
          rw [hlast] at hrelease
          have hfinished := Transition.finished event record record' rest position released outcome
            ring hreport hlist hposition hadvance hrelease
          rw [deliveries, ← hcargo] at hfinished
          cases hheld : record'.cargo with
          | live request notify =>
            simp only [hheld] at h hfinished
            cases h
            exact hfinished
          | tombstone retained =>
            simp only [hheld] at h hfinished
            cases h
            exact hfinished

theorem transition_of_step {e e' : Endpoint ρ} {op : Op ρ} {reply : Reply}
    {ds : List (Delivery ρ)} (h : e.step op = .ok ((reply, ds), e')) :
    Transition e op reply ds e' := by
  cases op with
  | submit request data notify deadline =>
    obtain ⟨⟨result, e₁⟩, hsubmit, h⟩ := Fault.bind_eq_ok.1 h
    cases h
    exact transition_submit hsubmit
  | event event =>
    obtain ⟨⟨delivery, e₁⟩, hevent, h⟩ := Fault.bind_eq_ok.1 h
    cases h
    exact transition_event hevent
  | giveBack id failure =>
    cases h
    exact .givenBack id failure
  | expire now =>
    cases h
    exact .expired now
  | invalidate =>
    cases h
    exact .invalidated

end Endpoint

end UsbHost
