import UsbHost.Proofs.Endpoint.Deadlines

/-!
Requests that a task waits for. The record of such a request has no deadline, and nobody but the
task knows its ID. So only two things take it out of the endpoint against the will of the task: the
event that ends its TD, and the end of the endpoint; either tells the task, and tells it once. A
task that asks for its request back leaves a tombstone with the data buffer, and is not told
anything any more.
-/

namespace UsbHost

variable {ρ : Type}

/-- The request, if the delivery is for the task `k`. -/
def Delivery.requestFor? (k : WaiterId) (d : Delivery ρ) : Option (Request ρ) :=
  if d.notify = .waiter k then some d.request else none

/-- The task `k` waits for the request of the record. -/
def InFlight.IsFor (k : WaiterId) (r : InFlight ρ) : Prop :=
  ∃ request, r.cargo = .live request (.waiter k)

namespace Endpoint

variable {k : WaiterId} {id : RequestId} {request : Request ρ} {rs rs' : List (InFlight ρ)}
  {ds : List (Delivery ρ)}

/-- The requests among the deliveries that are for the task `k`. -/
def handedTo (k : WaiterId) (ds : List (Delivery ρ)) : List (Request ρ) :=
  ds.filterMap (Delivery.requestFor? k)

/-- Nothing among the records is for the task `k`. -/
def NoneFor (k : WaiterId) (rs : List (InFlight ρ)) : Prop := ∀ r ∈ rs, ¬ r.IsFor k

/-- The task `k` waits for one of the records. No other one is for it, and none before it has the
same ID. -/
inductive Awaited (k : WaiterId) (id : RequestId) (request : Request ρ) :
    List (InFlight ρ) → Prop
  | here {r : InFlight ρ} {rs : List (InFlight ρ)} (hid : r.id = id)
      (hlive : r.cargo = .live request (.waiter k)) (hdeadline : r.deadline = none)
      (hrest : NoneFor k rs) : Awaited k id request (r :: rs)
  | there {r : InFlight ρ} {rs : List (InFlight ρ)} (hid : r.id ≠ id) (hother : ¬ r.IsFor k)
      (h : Awaited k id request rs) : Awaited k id request (r :: rs)

/-- How an operation of somebody else ends a request that a task waits for, and what the task is
given. -/
inductive Ended (request : Request ρ) : Op ρ → Request ρ → Prop
  | event (event : TransferEvent) (length : Nat) : Ended request (.event event)
      (request.finish (if event.code.isTransferOk then .success else .failed event.code.failure)
        length)
  | invalidate : Ended request .invalidate (request.takeBuffer.2.finish (.failed .aborted) 0)

/-- What others do while a task waits. They do not wait for requests of their own, and ask for none
back. -/
def Op.Spares : Op ρ → Prop
  | .submit _ _ notify _ => notify = .routine
  | .giveBack .. => False
  | _ => True

/-! ### Deliveries -/

@[simp] theorem handedTo_nil (k : WaiterId) : handedTo k ([] : List (Delivery ρ)) = [] := rfl

@[simp] theorem handedTo_append (k : WaiterId) (ds ds' : List (Delivery ρ)) :
    handedTo k (ds ++ ds') = handedTo k ds ++ handedTo k ds' := List.filterMap_append

@[simp] theorem handedTo_cons_self (request : Request ρ) (ds : List (Delivery ρ)) :
    handedTo k (⟨.waiter k, request⟩ :: ds) = request :: handedTo k ds := by
  simp [handedTo, Delivery.requestFor?]

@[simp] theorem handedTo_cons_of_ne {d : Delivery ρ} (h : d.notify ≠ .waiter k)
    (ds : List (Delivery ρ)) : handedTo k (d :: ds) = handedTo k ds := by
  simp [handedTo, Delivery.requestFor?, h]

theorem handedTo_of_ne (h : ∀ d ∈ ds, d.notify ≠ .waiter k) : handedTo k ds = [] := by
  induction ds with
  | nil => rfl
  | cons d ds ih =>
    obtain ⟨hd, hds⟩ := List.forall_mem_cons.1 h
    simp [hd, ih hds]

theorem ne_of_handedTo_eq_nil (h : handedTo k ds = []) : ∀ d ∈ ds, d.notify ≠ .waiter k := by
  intro d hd hnotify
  have hnone := List.filterMap_eq_nil_iff.1 h d hd
  rw [Delivery.requestFor?, if_pos hnotify] at hnone
  cases hnone

/-- Leaving out what nobody waits for makes no difference to the task. -/
@[simp] theorem handedTo_filter (k : WaiterId) (ds : List (Delivery ρ)) :
    handedTo k (ds.filter fun d => d.notify ≠ .routine) = handedTo k ds := by
  induction ds with
  | nil => rfl
  | cons d ds ih =>
    rw [List.filter_cons]
    split
    · simp only [handedTo, List.filterMap_cons] at ih ⊢
      rw [ih]
    · rename_i hroutine
      have hd : d.notify ≠ .waiter k := by
        intro hwaiter
        simp [hwaiter] at hroutine
      rw [handedTo_cons_of_ne hd, ih]

theorem isFor_congr {r r' : InFlight ρ} (h : r'.cargo = r.cargo) : r'.IsFor k ↔ r.IsFor k := by
  rw [InFlight.IsFor, InFlight.IsFor, h]

theorem notify_ne_of_not_isFor {r : InFlight ρ} {notify : Notify} (h : ¬ r.IsFor k)
    (hlive : r.cargo = .live request notify) : notify ≠ .waiter k := by
  rintro rfl
  exact h ⟨request, hlive⟩

theorem not_isFor_of_isTombstone {r : InFlight ρ} (h : r.isTombstone = true) : ¬ r.IsFor k := by
  rintro ⟨request, hlive⟩
  rw [InFlight.isTombstone_live hlive] at h
  cases h

theorem handedTo_bury (failure : TransferFailure) {r : InFlight ρ} (h : ¬ r.IsFor k) :
    handedTo k (r.bury failure).1.toList = [] := by
  cases hcargo : r.cargo with
  | live request notify =>
    rw [InFlight.bury_live hcargo, Option.toList_some,
      handedTo_cons_of_ne (notify_ne_of_not_isFor h hcargo)]
    rfl
  | tombstone retained =>
    simp [hcargo]

theorem handedTo_deliveries (outcome : Outcome) {r : InFlight ρ} (h : ¬ r.IsFor k) :
    handedTo k (deliveries r outcome) = [] := by
  cases hcargo : r.cargo with
  | live request notify =>
    rw [deliveries_live hcargo, handedTo_cons_of_ne (notify_ne_of_not_isFor h hcargo)]
    rfl
  | tombstone retained =>
    simp [hcargo]

@[simp] theorem id_bury (r : InFlight ρ) (failure : TransferFailure) :
    (r.bury failure).2.id = r.id := by
  cases hcargo : r.cargo with
  | live request notify => rw [InFlight.bury_live hcargo]
  | tombstone retained => simp [hcargo]

/-! ### Records -/

theorem noneFor_nil : NoneFor k ([] : List (InFlight ρ)) := fun _ hr => (List.not_mem_nil hr).elim

theorem noneFor_cons {r : InFlight ρ} : NoneFor k (r :: rs) ↔ ¬ r.IsFor k ∧ NoneFor k rs :=
  List.forall_mem_cons

theorem noneFor_append : NoneFor k (rs ++ rs') ↔ NoneFor k rs ∧ NoneFor k rs' :=
  List.forall_mem_append

theorem Awaited.append (h : Awaited k id request rs) (h' : NoneFor k rs') :
    Awaited k id request (rs ++ rs') := by
  induction h with
  | here hid hlive hdeadline hrest =>
    exact .here hid hlive hdeadline (noneFor_append.2 ⟨hrest, h'⟩)
  | there hid hother _ ih => exact .there hid hother ih

/-- A request is waited for from its submission on, if its ID is a new one. -/
theorem awaited_concat {r : InFlight ρ} (hrs : ∀ r' ∈ rs, r'.id ≠ id) (hnone : NoneFor k rs)
    (hid : r.id = id) (hlive : r.cargo = .live request (.waiter k))
    (hdeadline : r.deadline = none) : Awaited k id request (rs ++ [r]) := by
  induction rs with
  | nil => exact .here hid hlive hdeadline noneFor_nil
  | cons r' rs ih =>
    obtain ⟨hr', hrs⟩ := List.forall_mem_cons.1 hrs
    obtain ⟨hother, hnone⟩ := noneFor_cons.1 hnone
    exact .there hr' hother (ih hrs hnone)

theorem Awaited.congr {r r' : InFlight ρ} (h : Awaited k id request (r :: rs))
    (hid : r'.id = r.id) (hcargo : r'.cargo = r.cargo) (hdeadline : r'.deadline = r.deadline) :
    Awaited k id request (r' :: rs) := by
  cases h with
  | here hid' hlive hnone hrest =>
    exact .here (hid.trans hid') (hcargo.trans hlive) (hdeadline.trans hnone) hrest
  | there hid' hother h =>
    refine .there (fun heq => hid' (hid.symm.trans heq)) ?_ h
    rwa [isFor_congr hcargo]

/-- Who does not wait is not told. -/
theorem Withdraws.noneFor {failure : TransferFailure} {due : InFlight ρ → Prop}
    (h : Withdraws failure due rs ds rs') (hnone : NoneFor k rs) :
    handedTo k ds = [] ∧ NoneFor k rs' := by
  induction h with
  | nil => exact ⟨rfl, hnone⟩
  | keep _ hcargo _ ih =>
    obtain ⟨hr, hrs⟩ := noneFor_cons.1 hnone
    obtain ⟨hds, hrs'⟩ := ih hrs
    refine ⟨hds, noneFor_cons.2 ⟨?_, hrs'⟩⟩
    rwa [isFor_congr hcargo]
  | bury _ hlive _ hcargo _ ih =>
    obtain ⟨hr, hrs⟩ := noneFor_cons.1 hnone
    obtain ⟨hds, hrs'⟩ := ih hrs
    refine ⟨?_, noneFor_cons.2 ⟨?_, hrs'⟩⟩
    · rw [handedTo_cons_of_ne (notify_ne_of_not_isFor hr hlive), hds]
    · exact not_isFor_of_isTombstone (InFlight.isTombstone_tombstone hcargo)

/-- A request that is waited for does not expire. -/
theorem Awaited.buryExpired (h : Awaited k id request rs) (now : UInt64) :
    handedTo k (buryExpired now rs).1 = [] ∧ Awaited k id request (buryExpired now rs).2 := by
  induction h with
  | @here r rs hid hlive hdeadline hrest =>
    have hnot : r.deadline.any (· ≤ now) = false := by simp [hdeadline]
    obtain ⟨hds, hnone⟩ := (buries_buryExpired now rs).withdraws.noneFor hrest
    rw [buryExpired_cons_of_not_due hnot]
    exact ⟨hds, .here hid hlive hdeadline hnone⟩
  | @there r rs hid hother _ ih =>
    obtain ⟨hds, hrest⟩ := ih
    cases hdue : r.deadline.any (· ≤ now) with
    | false =>
      rw [buryExpired_cons_of_not_due hdue]
      exact ⟨hds, .there hid hother hrest⟩
    | true =>
      have hcleared : ¬ InFlight.IsFor k { r with deadline := none } := hother
      rw [buryExpired_cons_of_due hdue, handedTo_append, handedTo_bury _ hcleared, hds]
      refine ⟨rfl, .there ?_ (not_isFor_of_isTombstone (InFlight.isTombstone_bury _ _)) hrest⟩
      rwa [id_bury]

/-- A record with this ID holds back the buffer, and nobody waits for it. -/
def Lingers (id : RequestId) (retained : Option Dma.Buffer) (rs : List (InFlight ρ)) : Prop :=
  ∃ r ∈ rs, r.id = id ∧ r.cargo = .tombstone retained

/-- The task asks for its request back, and gets it without the buffer, which a tombstone keeps. -/
theorem Awaited.buryFirst (h : Awaited k id request rs) (failure : TransferFailure) :
    (buryFirst id failure rs).1 =
        some ⟨.waiter k, request.takeBuffer.2.finish (.failed failure) 0⟩ ∧
      Lingers id request.buffer (buryFirst id failure rs).2 ∧
      NoneFor k (buryFirst id failure rs).2 := by
  induction h with
  | here hid hlive _ hrest =>
    simp only [Endpoint.buryFirst, if_pos hid, InFlight.bury_live hlive]
    exact ⟨trivial, ⟨_, List.mem_cons_self, hid, rfl⟩,
      noneFor_cons.2 ⟨not_isFor_of_isTombstone rfl, hrest⟩⟩
  | there hid hother _ ih =>
    obtain ⟨hdelivery, ⟨r, hr, htomb⟩, hnone⟩ := ih
    simp only [Endpoint.buryFirst, if_neg hid]
    exact ⟨hdelivery, ⟨r, List.mem_cons_of_mem _ hr, htomb⟩, noneFor_cons.2 ⟨hother, hnone⟩⟩

/-- What is dropped when the endpoint is shut down. -/
def dropped (rs : List (InFlight ρ)) : List (Delivery ρ) :=
  rs.filterMap fun r => (r.bury .aborted).1

@[simp] theorem dropped_cons (r : InFlight ρ) (rs : List (InFlight ρ)) :
    dropped (r :: rs) = (r.bury .aborted).1.toList ++ dropped rs := by
  rw [dropped, List.filterMap_cons]
  cases (r.bury .aborted).1 <;> rfl

@[simp] theorem handedTo_invalidate (k : WaiterId) (e : Endpoint ρ) :
    handedTo k e.invalidate.1.2 = handedTo k (dropped e.inFlight) :=
  handedTo_filter k _

theorem NoneFor.handedTo_dropped (h : NoneFor k rs) : handedTo k (dropped rs) = [] := by
  induction rs with
  | nil => rfl
  | cons r rs ih =>
    obtain ⟨hr, hrs⟩ := noneFor_cons.1 h
    simp [handedTo_bury _ hr, ih hrs]

theorem Awaited.handedTo_dropped (h : Awaited k id request rs) :
    handedTo k (dropped rs) = [request.takeBuffer.2.finish (.failed .aborted) 0] := by
  induction h with
  | here _ hlive _ hrest =>
    simp [hrest.handedTo_dropped, InFlight.bury_live hlive]
  | there _ hother _ ih =>
    simp [handedTo_bury _ hother, ih]

/-! ### Steps -/

variable {e e' : Endpoint ρ} {op : Op ρ} {reply : Reply}

/-- The operation submits a request that the task `k` is going to wait for. -/
def Op.IsFor (k : WaiterId) (op : Op ρ) : Prop :=
  ∃ request data deadline, op = .submit request data (.waiter k) deadline

theorem Op.Spares.not_isFor (h : op.Spares) : ¬ op.IsFor k := by
  rintro ⟨request, data, deadline, rfl⟩
  cases h

theorem noneFor_record {request : Request ρ} {data : UInt64} {notify : Notify}
    {deadline : Option UInt64} (h : ¬ (Op.submit request data notify deadline).IsFor k)
    (plan : TdPlan) (lastTrb : UInt64) :
    NoneFor k [e.record plan request notify deadline lastTrb] := by
  refine noneFor_cons.2 ⟨?_, noneFor_nil⟩
  rintro ⟨_, hlive⟩
  cases hlive
  exact h ⟨request, data, deadline, rfl⟩

/-- A task for which nothing is in flight is not told anything. -/
theorem Transition.noneFor (ht : Transition e op reply ds e') (hop : ¬ op.IsFor k)
    (h : NoneFor k e.inFlight) : handedTo k ds = [] ∧ NoneFor k e'.inFlight := by
  cases ht with
  | unplanned => exact ⟨rfl, h⟩
  | refused => exact ⟨rfl, h⟩
  | accepted plan lastTrb ring =>
    exact ⟨rfl, noneFor_append.2 ⟨h, noneFor_record hop plan lastTrb⟩⟩
  | stale => exact ⟨rfl, h⟩
  | advanced event record record' rest position _ hlist _ hadvance =>
    rw [hlist, noneFor_cons] at h
    refine ⟨rfl, noneFor_cons.2 ⟨?_, h.2⟩⟩
    rw [isFor_congr (InFlight.advance_frame_of_eq hadvance).2]
    exact h.1
  | finished event record record' rest position released outcome ring _ hlist =>
    rw [hlist, noneFor_cons] at h
    exact ⟨handedTo_deliveries outcome h.1, h.2⟩
  | givenBack id failure => exact (withdraws_giveBack e id failure).noneFor h
  | expired now => exact (withdraws_expire e now).noneFor h
  | invalidated =>
    rw [handedTo_invalidate]
    exact ⟨h.handedTo_dropped, noneFor_nil⟩

/-- A step of somebody else leaves a request waiting, or ends it and tells the task. -/
theorem Transition.awaited (ht : Transition e op reply ds e') (hop : op.Spares)
    (h : Awaited k id request e.inFlight) :
    (handedTo k ds = [] ∧ Awaited k id request e'.inFlight) ∨
      ∃ q, handedTo k ds = [q] ∧ Ended request op q ∧ NoneFor k e'.inFlight := by
  cases ht with
  | unplanned => exact .inl ⟨rfl, h⟩
  | refused => exact .inl ⟨rfl, h⟩
  | accepted plan lastTrb ring =>
    exact .inl ⟨rfl, h.append (noneFor_record hop.not_isFor plan lastTrb)⟩
  | stale => exact .inl ⟨rfl, h⟩
  | advanced event record record' rest position _ hlist _ hadvance =>
    obtain ⟨htd, hcargo⟩ := InFlight.advance_frame_of_eq hadvance
    have hdeadline := InFlight.deadline_advance record e.kind position event
    rw [hadvance] at hdeadline
    rw [hlist] at h
    exact .inl ⟨rfl, h.congr (congrArg Td.id htd) hcargo hdeadline⟩
  | finished event record record' rest position released outcome ring _ hlist _ hadvance =>
    rw [hlist] at h
    cases h with
    | here _ hlive _ hrest =>
      refine .inr ⟨_, ?_, .event event outcome.length, hrest⟩
      simp [deliveries_live hlive, InFlight.status_of_advance hadvance]
    | there _ hother h => exact .inl ⟨handedTo_deliveries outcome hother, h⟩
  | givenBack id failure => exact hop.elim
  | expired now => exact .inl (h.buryExpired now)
  | invalidated =>
    refine .inr ⟨_, ?_, .invalidate, noneFor_nil⟩
    simp [h.handedTo_dropped]

/-- Deliveries for tasks that wait do not come together with others, where the task `k` minds. -/
theorem Transition.parted (ht : Transition e op reply ds e') (hop : op.Spares)
    (h : Awaited k id request e.inFlight ∨ NoneFor k e.inFlight) :
    (∀ d ∈ ds, d.notify ≠ .waiter k) ∨ ∀ d ∈ ds, d.notify ≠ .routine := by
  cases ht with
  | unplanned => exact .inl (List.forall_mem_nil _)
  | refused => exact .inl (List.forall_mem_nil _)
  | accepted => exact .inl (List.forall_mem_nil _)
  | stale => exact .inl (List.forall_mem_nil _)
  | advanced => exact .inl (List.forall_mem_nil _)
  | finished event record record' rest position released outcome ring =>
    cases hcargo : record.cargo with
    | live request' notify =>
      rw [deliveries_live hcargo]
      cases notify <;> simp
    | tombstone retained =>
      rw [deliveries_tombstone hcargo]
      exact .inl (List.forall_mem_nil _)
  | givenBack id failure => exact hop.elim
  | expired now =>
    refine .inl (ne_of_handedTo_eq_nil ?_)
    rcases h with hawaited | hnone
    · exact (hawaited.buryExpired now).1
    · exact ((withdraws_expire e now).noneFor hnone).1
  | invalidated => exact .inr fun d hd => by simpa using (List.mem_filter.1 hd).2

/-- A task begins to wait when its request is accepted. -/
theorem awaited_of_submit {data : UInt64}
    (h : e.submitRequest request data (.waiter k) none = .ok (.ok id, e'))
    (hfresh : ∀ r ∈ e.inFlight, r.id ≠ ⟨e.nextRequest⟩) (hnone : NoneFor k e.inFlight) :
    Awaited k id request e'.inFlight := by
  cases transition_submit h with
  | accepted plan lastTrb ring => exact awaited_concat hfresh hnone rfl rfl rfl

/-! ### Runs -/

/-- What has happened to an endpoint: an operation, and what it has delivered. -/
structure Deed (ρ : Type) where
  op : Op ρ
  deliveries : List (Delivery ρ)

/-- Operations of a certain kind lead from one state of an endpoint to another. -/
inductive Lives (allowed : Op ρ → Prop) : Endpoint ρ → List (Deed ρ) → Endpoint ρ → Prop
  | nil (e : Endpoint ρ) : Lives allowed e [] e
  | cons {e e₁ e' : Endpoint ρ} {op : Op ρ} {reply : Reply} {ds : List (Delivery ρ)}
      {deeds : List (Deed ρ)} (hop : allowed op) (hstep : e.step op = .ok ((reply, ds), e₁))
      (h : Lives allowed e₁ deeds e') : Lives allowed e (⟨op, ds⟩ :: deeds) e'

/-- What the task `k` has been told, each time by which operation. -/
def told (k : WaiterId) (deeds : List (Deed ρ)) : List (Op ρ × Request ρ) :=
  deeds.flatMap fun deed => (handedTo k deed.deliveries).map (deed.op, ·)

variable {allowed : Op ρ → Prop} {deeds deeds' : List (Deed ρ)} {e'' : Endpoint ρ}

@[simp] theorem told_cons (deed : Deed ρ) (deeds : List (Deed ρ)) : told k (deed :: deeds) =
    (handedTo k deed.deliveries).map (deed.op, ·) ++ told k deeds := List.flatMap_cons

@[simp] theorem told_append (k : WaiterId) (deeds deeds' : List (Deed ρ)) :
    told k (deeds ++ deeds') = told k deeds ++ told k deeds' := List.flatMap_append

theorem Lives.append (h : Lives allowed e deeds e') (h' : Lives allowed e' deeds' e'') :
    Lives allowed e (deeds ++ deeds') e'' := by
  induction h with
  | nil => exact h'
  | cons hop hstep _ ih => exact .cons hop hstep (ih h')

theorem Lives.noneFor (h : Lives allowed e deeds e') (hallowed : ∀ op, allowed op → ¬ op.IsFor k)
    (hnone : NoneFor k e.inFlight) : told k deeds = [] ∧ NoneFor k e'.inFlight := by
  induction h with
  | nil => exact ⟨rfl, hnone⟩
  | cons hop hstep _ ih =>
    obtain ⟨hds, hnone⟩ := (transition_of_step hstep).noneFor (hallowed _ hop) hnone
    obtain ⟨htold, hnone⟩ := ih hnone
    refine ⟨?_, hnone⟩
    simp [hds, htold]

/-- A task that waits is told at most once, and when it has been told it does not wait any more. -/
theorem Lives.awaited (h : Lives Op.Spares e deeds e')
    (hawaited : Awaited k id request e.inFlight) :
    (told k deeds = [] ∧ Awaited k id request e'.inFlight) ∨
      ∃ op q, told k deeds = [(op, q)] ∧ Ended request op q ∧ NoneFor k e'.inFlight := by
  induction h with
  | nil => exact .inl ⟨rfl, hawaited⟩
  | @cons _ _ _ op _ _ _ hop hstep hlives ih =>
    rw [told_cons]
    rcases (transition_of_step hstep).awaited hop hawaited with
      ⟨hds, hawaited⟩ | ⟨q, hds, hended, hnone⟩
    · rw [hds]
      exact ih hawaited
    · obtain ⟨htold, hnone⟩ := hlives.noneFor (fun _ hop => hop.not_isFor) hnone
      refine .inr ⟨op, q, ?_, hended, hnone⟩
      rw [hds, htold]
      rfl

/-! ### Tombstones -/

/-- The tombstone is taken off by an event that hands nothing on, or with the endpoint. -/
def Deed.Clears (deed : Deed ρ) : Prop :=
  deed.op = .invalidate ∨ ∃ event, deed.op = .event event ∧ deed.deliveries = []

theorem Withdraws.lingers {failure : TransferFailure} {due : InFlight ρ → Prop}
    {retained : Option Dma.Buffer} (h : Withdraws failure due rs ds rs')
    (hlingers : Lingers id retained rs) : Lingers id retained rs' := by
  obtain ⟨r, hr, hid, htomb⟩ := hlingers
  induction h with
  | nil => exact (List.not_mem_nil hr).elim
  | keep htd hcargo _ ih =>
    rcases List.mem_cons.1 hr with rfl | hr
    · exact ⟨_, List.mem_cons_self, (congrArg Td.id htd).trans hid, hcargo.trans htomb⟩
    · obtain ⟨r', hr', hkept⟩ := ih hr
      exact ⟨r', List.mem_cons_of_mem _ hr', hkept⟩
  | bury _ hlive _ _ _ ih =>
    rcases List.mem_cons.1 hr with rfl | hr
    · rw [htomb] at hlive
      cases hlive
    · obtain ⟨r', hr', hkept⟩ := ih hr
      exact ⟨r', List.mem_cons_of_mem _ hr', hkept⟩

theorem Transition.lingers {retained : Option Dma.Buffer} (ht : Transition e op reply ds e')
    (h : Lingers id retained e.inFlight) :
    Lingers id retained e'.inFlight ∨ Deed.Clears ⟨op, ds⟩ := by
  cases ht with
  | unplanned => exact .inl h
  | refused => exact .inl h
  | accepted =>
    obtain ⟨r, hr, htomb⟩ := h
    exact .inl ⟨r, List.mem_append_left _ hr, htomb⟩
  | stale => exact .inl h
  | advanced event record record' rest position _ hlist _ hadvance =>
    obtain ⟨htd, hcargo⟩ := InFlight.advance_frame_of_eq hadvance
    obtain ⟨r, hr, hid, htomb⟩ := h
    rw [hlist] at hr
    rcases List.mem_cons.1 hr with rfl | hr
    · exact .inl ⟨record', List.mem_cons_self, (congrArg Td.id htd).trans hid, hcargo.trans htomb⟩
    · exact .inl ⟨r, List.mem_cons_of_mem _ hr, hid, htomb⟩
  | finished event record record' rest position released outcome ring _ hlist =>
    obtain ⟨r, hr, hid, htomb⟩ := h
    rw [hlist] at hr
    rcases List.mem_cons.1 hr with rfl | hr
    · exact .inr (.inr ⟨event, rfl, deliveries_tombstone htomb outcome⟩)
    · exact .inl ⟨r, hr, hid, htomb⟩
  | givenBack id failure => exact .inl ((withdraws_giveBack e id failure).lingers h)
  | expired now => exact .inl ((withdraws_expire e now).lingers h)
  | invalidated => exact .inr (.inl rfl)

/-- A tombstone stays until an event clears it, or the end of the endpoint. -/
theorem Lives.lingers {retained : Option Dma.Buffer} (h : Lives allowed e deeds e')
    (hlingers : Lingers id retained e.inFlight) :
    Lingers id retained e'.inFlight ∨ ∃ deed ∈ deeds, deed.Clears := by
  induction h with
  | nil => exact .inl hlingers
  | cons _ hstep _ ih =>
    rcases (transition_of_step hstep).lingers hlingers with hlingers | hclears
    · rcases ih hlingers with hlingers | ⟨deed, hdeed, hclears⟩
      · exact .inl hlingers
      · exact .inr ⟨deed, List.mem_cons_of_mem _ hdeed, hclears⟩
    · exact .inr ⟨_, List.mem_cons_self, hclears⟩

/-- An event at a tombstone hands nothing on. -/
theorem silent_of_tombstone {r : InFlight ρ} {retained : Option Dma.Buffer}
    (hlist : e.inFlight = r :: rs) (htomb : r.cargo = .tombstone retained) {event : TransferEvent}
    {delivery : Option (Delivery ρ)} (h : e.transferEvent event = .ok (delivery, e')) :
    delivery = none := by
  have ht := transition_event h
  apply Option.toList_eq_nil_iff.1
  generalize delivery.toList = ds at ht ⊢
  cases ht with
  | stale => rfl
  | advanced => rfl
  | finished event record record' rest position released outcome ring _ hlist' =>
    rw [hlist] at hlist'
    cases hlist'
    exact deliveries_tombstone htomb outcome

/-- What is left of a request that its task has asked back. Whatever happens to the endpoint later,
its buffer is held back until an event clears the tombstone, or the end of the endpoint. The task is
told nothing, and as long as the tombstone is the oldest record, an event hands nothing on to
anybody. -/
structure Abandoned (k : WaiterId) (id : RequestId) (retained : Option Dma.Buffer)
    (e : Endpoint ρ) : Prop where
  lingers : Lingers id retained e.inFlight
  stays : ∀ deeds e', Lives (¬ Op.IsFor k ·) e deeds e' →
    Lingers id retained e'.inFlight ∨ ∃ deed ∈ deeds, deed.Clears
  told_eq_nil : ∀ deeds e', Lives (¬ Op.IsFor k ·) e deeds e' → told k deeds = []
  silent : ∀ deeds e', Lives (¬ Op.IsFor k ·) e deeds e' → ∀ r rs, e'.inFlight = r :: rs →
    r.id = id → r.cargo = .tombstone retained → ∀ event delivery e'',
      e'.transferEvent event = .ok (delivery, e'') → delivery = none

theorem Awaited.giveBack (h : Awaited k id request e.inFlight) (failure : TransferFailure) :
    (e.giveBack id failure).1 =
        some ⟨.waiter k, request.takeBuffer.2.finish (.failed failure) 0⟩ ∧
      Abandoned k id request.buffer (e.giveBack id failure).2 := by
  obtain ⟨hdelivery, hlingers, hnone⟩ := h.buryFirst failure
  refine ⟨hdelivery, hlingers, ?stays, ?told, ?silent⟩
  case stays => exact fun deeds e' hlives => hlives.lingers hlingers
  case told => exact fun deeds e' hlives => (hlives.noneFor (fun _ hop => hop) hnone).1
  case silent =>
    intro deeds e' _ r rs hlist _ htomb event delivery e'' hevent
    exact silent_of_tombstone hlist htomb hevent

end Endpoint

end UsbHost
