import UsbHost.Proofs.Endpoint.Admission
import UsbHost.Proofs.Host.Board

/-!
Submissions on the host. Whether its caller waits or not, a request is judged by the endpoint alone.
One that is taken adds its TRBs and a record, and the doorbell is rung once. One that is refused
leaves the world as it is, but for the counter of request IDs, and its caller has it back as it
was, with its completion routine.
-/

namespace UsbHost

variable {σ ρ : Type}

/-- The world after the doorbell of the endpoint has been rung. -/
def World.rung (w : World σ ρ) (env : Env σ ρ) (e : Endpoint ρ) : World σ ρ :=
  { w with bus := { w.bus with
    platform := env.doorbell e.owner.slot e.id.toUInt32 w.bus.platform } }

namespace Host

variable {env : Env σ ρ} {ref : EndpointRef} {e : Endpoint ρ} {w w₁ : World σ ρ}
  {request : Request ρ} {data : UInt64} {notify : Notify} {deadline : Option UInt64}
  {planned : Except Error TdPlan}

/-- The request has been judged as it should be. The endpoint is put back into the world `w`, and
the doorbell is rung if the request has been taken, and only then. If it has been refused it comes
back as it was. -/
inductive Settled (env : Env σ ρ) (ref : EndpointRef) (e : Endpoint ρ) (w : World σ ρ)
    (request : Request ρ) (data : UInt64) (notify : Notify) (deadline : Option UInt64)
    (planned : Except Error TdPlan) : Except (Rejected ρ) RequestId → World σ ρ → Prop
  | accepted (id : RequestId) (e' : Endpoint ρ)
      (h : e.Verdict request data notify deadline planned (.ok id) e') :
      Settled env ref e w request data notify deadline planned (.ok id) ((w.put ref e').rung env e)
  | rejected (error : Error) (e' : Endpoint ρ)
      (h : e.Verdict request data notify deadline planned (.error error) e') :
      Settled env ref e w request data notify deadline planned (.error ⟨error, request⟩)
        (w.put ref e')

theorem entrust_settled (hsound : e.Sound) (hw : w.endpoints[ref.index]? = some e)
    (hdata : dataAddress env request w = .ok data w₁)
    (hplan : (TdPlan.ofRequest e.kind request data).run = .ok planned) (notify : Notify)
    (deadline : Option UInt64) :
    ∃ result w', entrust env ref request notify deadline w = .ok result w' ∧
      Settled env ref e w₁ request data notify deadline planned result w' := by
  obtain ⟨result, e', hstep, hverdict⟩ := hsound.verdict hplan notify deadline
  have hsubmit := submit_eq hw hdata hstep
  cases result with
  | ok id => exact ⟨_, _, HostM.bind_of_ok hsubmit, .accepted id e' hverdict⟩
  | error error => exact ⟨_, _, HostM.bind_of_ok hsubmit, .rejected error e' hverdict⟩

/-- Neither the routine of the request nor the tasks that wait have a say in this. -/
theorem located_push (env : Env σ ρ) (request : Request ρ) (w : World σ ρ) :
    located env { request with routine := none } { w with waiters := w.waiters.push {} } =
      ((located env request w).1,
        { (located env request w).2 with waiters := w.waiters.push {} }) := by
  unfold located
  cases request.buffer <;> rfl

/-- The deadline that a timeout stands for. -/
def deadlineFor (env : Env σ ρ) (w : World σ ρ) (timeout : UInt64) : Option UInt64 :=
  if timeout = 0 then none else some (env.now w.bus.platform + timeout)

theorem transferAsync_eq {timeout : UInt64}
    (htimeout : timeout = 0 ∨ (env.now w.bus.platform).toNat + timeout.toNat < UInt64.size) :
    transferAsync env ref request timeout w =
      entrust env ref request .routine (deadlineFor env w timeout) w := by
  unfold transferAsync deadlineFor
  split
  · rfl
  · rename_i hzero
    have hafter : deadlineAfter env timeout w = .ok (env.now w.bus.platform + timeout) w := by
      rw [deadlineAfter_eq, if_pos (htimeout.resolve_left hzero)]
    have hdeadline : (some <$> deadlineAfter env timeout : HostM σ ρ _) w =
        .ok (some (env.now w.bus.platform + timeout)) w := by
      rw [map_eq_pure_bind, HostM.bind_of_ok hafter]
      rfl
    rw [HostM.bind_of_ok hdeadline]

/-- Give the completion routine back to the request in a synchronous answer. -/
def restored (routine : Option ρ) :
    Except (TransferError ρ) (Request ρ) → Except (TransferError ρ) (Request ρ)
  | .ok request => .ok { request with routine := routine }
  | .error (.rejected error request) => .error (.rejected error { request with routine := routine })
  | .error (.failed request) => .error (.failed { request with routine := routine })
  | .error (.timeout request) => .error (.timeout { request with routine := routine })

/-- Who waits for a request that has been taken is never told that it was rejected. -/
def Conclusive : Except (TransferError ρ) (Request ρ) → Prop
  | .error (.rejected ..) => False
  | _ => True

theorem conclusive_restored {routine : Option ρ} {answer : Except (TransferError ρ) (Request ρ)}
    (h : Conclusive answer) : Conclusive (restored routine answer) := by
  cases answer with
  | ok request => trivial
  | error failure =>
    cases failure with
    | rejected => exact h.elim
    | failed | timeout => trivial

theorem awaitRequest_conclusive (env : Env σ ρ) (ref : EndpointRef) (id : RequestId)
    (waiter : WaiterId) (timeout : UInt64) (w : World σ ρ) :
    HostM.Ends (awaitRequest env ref id waiter timeout) w (fun _ => True)
      fun answer _ => Conclusive answer := by
  have hpick : ∀ w' : World σ ρ, HostM.Ends (do
      let request ← awaitSome env (pickUp? waiter) env.patience
      return if request.isSuccess then .ok request else .error (.failed request) :
      HostM σ ρ (Except (TransferError ρ) (Request ρ))) w' (fun _ => True)
      fun answer _ => Conclusive answer := by
    intro w'
    refine (HostM.ends_trivial _ w').bind fun request w₁ _ => ?_
    refine HostM.ends_of_ok rfl ?_
    split <;> trivial
  unfold awaitRequest
  refine (HostM.ends_trivial _ w).bind fun signalled w₁ _ => ?_
  cases signalled with
  | true => exact hpick w₁
  | false =>
    refine (HostM.ends_trivial _ w₁).bind fun delivery w₂ _ => ?_
    cases delivery with
    | some delivery => exact HostM.ends_of_ok rfl trivial
    | none => exact (HostM.ends_trivial _ w₂).bind fun _ w₃ _ => hpick w₃

/-- What a synchronous transfer does once its request has been judged. -/
def concluded (env : Env σ ρ) (ref : EndpointRef) (request : Request ρ) (waiter : WaiterId)
    (timeout : UInt64) :
    Except (Rejected ρ) RequestId → HostM σ ρ (Except (TransferError ρ) (Request ρ))
  | .error rejected =>
    return restored request.routine (.error (.rejected rejected.error rejected.request))
  | .ok id => restored request.routine <$> awaitRequest env ref id waiter timeout

theorem transfer_eq (env : Env σ ρ) (hw : w.endpoints[ref.index]? = some e)
    (request : Request ρ) (timeout : UInt64) :
    transfer env ref request timeout w =
      (entrust env ref { request with routine := none } (.waiter ⟨w.waiters.size⟩) none >>=
        concluded env ref request ⟨w.waiters.size⟩
          (if timeout = 0 then e.defaultTimeout else timeout))
        { w with waiters := w.waiters.push {} } := by
  have hwaiter : (modifyGet fun w : World σ ρ =>
      ((⟨w.waiters.size⟩ : WaiterId), { w with waiters := w.waiters.push {} }) :
      HostM σ ρ WaiterId) w = .ok ⟨w.waiters.size⟩ { w with waiters := w.waiters.push {} } := rfl
  unfold transfer
  rw [HostM.bind_of_ok (endpoint_eq hw), HostM.bind_of_ok hwaiter]
  refine congrFun (bind_congr fun result => ?_) _
  cases result with
  | error rejected => rfl
  | ok id =>
    rw [concluded, map_eq_pure_bind]
    refine bind_congr fun answer => ?_
    cases answer with
    | ok request => rfl
    | error failure => cases failure <;> rfl

/-- What a synchronous transfer comes to, when its request has been judged in the world `w'`: a
refused request comes back as it was, and one that is taken is waited for. -/
def Answered (env : Env σ ρ) (ref : EndpointRef) (request : Request ρ) (timeout : UInt64)
    (w : World σ ρ) (e : Endpoint ρ) (w' : World σ ρ) : Except (Rejected ρ) RequestId → Prop
  | .error rejected =>
    transfer env ref request timeout w = .ok (.error (.rejected rejected.error request)) w'
  | .ok id =>
    transfer env ref request timeout w =
      (restored request.routine <$> awaitRequest env ref id ⟨w.waiters.size⟩
        (if timeout = 0 then e.defaultTimeout else timeout)) w' ∧
    HostM.Ends (transfer env ref request timeout) w (fun _ => True)
      fun answer _ => Conclusive answer

/-- A submission that does not overflow is judged by the endpoint. If it is asynchronous, this is
all there is to it. If its caller waits, a refused request comes back with its routine, and one that
is taken goes on to be waited for. -/
theorem submission_is_judged {ps : List (Placement ρ)} (h : Endpoint.Placed ps e)
    (hw : w.endpoints[ref.index]? = some e) (env : Env σ ρ) (request : Request ρ)
    (timeout : UInt64)
    (hplan : (TdPlan.ofRequest e.kind request (located env request w).1).run = .ok planned) :
    (timeout = 0 ∨ (env.now w.bus.platform).toNat + timeout.toNat < UInt64.size →
      ∃ result w', transferAsync env ref request timeout w = .ok result w' ∧
        Settled env ref e (located env request w).2 request (located env request w).1 .routine
          (deadlineFor env w timeout) planned result w') ∧
    ∃ result w',
      Settled env ref e { (located env request w).2 with waiters := w.waiters.push {} }
        { request with routine := none } (located env request w).1 (.waiter ⟨w.waiters.size⟩)
        none planned result w' ∧
      Answered env ref request timeout w e w' result := by
  have hsound := h.tallies.sound
  refine ⟨?async, ?sync⟩
  case async =>
    intro htimeout
    rw [transferAsync_eq htimeout]
    exact entrust_settled hsound hw (dataAddress_located env request w) hplan _ _
  case sync =>
    have hplain : TdPlan.ofRequest e.kind { request with routine := (none : Option ρ) }
        (located env request w).1 = TdPlan.ofRequest e.kind request (located env request w).1 := by
      cases e.kind <;> rfl
    have hdata := dataAddress_located env { request with routine := none }
      { w with waiters := w.waiters.push {} }
    rw [located_push] at hdata
    rw [← hplain] at hplan
    obtain ⟨result, w', hentrust, hsettled⟩ := entrust_settled
      (w := { w with waiters := w.waiters.push {} }) hsound hw hdata hplan
      (.waiter ⟨w.waiters.size⟩) none
    have htransfer := transfer_eq env hw request timeout
    rw [HostM.bind_of_ok hentrust] at htransfer
    refine ⟨result, w', hsettled, ?_⟩
    cases hsettled with
    | rejected error e' h => exact htransfer
    | accepted id e' h =>
      refine ⟨htransfer, ?_⟩
      rw [HostM.Ends, htransfer, concluded, map_eq_pure_bind]
      exact (awaitRequest_conclusive env ref id _ _ _).bind fun answer w'' hanswer =>
        HostM.ends_of_ok rfl (conclusive_restored hanswer)

/-- An isochronous endpoint on the smallest ring. -/
def smallIsochronous : Endpoint Unit :=
  .create default { (default : EndpointTraits) with kind := .isochronous }
    { transferRingSize := Config.minRingSize } (.create .transfer Config.minRingSize 0x1000)

/-- A request for packets of one byte each. -/
def packetsOfOne (count : Nat) (h : count ≤ Request.maxPackets) : Request Unit where
  buffer := some (.zeroed ⟨0⟩ count)
  packets := .replicate count 1
  packets_le := by rwa [List.length_replicate]

/-- It takes a request for all but one TRB of the ring. -/
theorem exists_crowded : ∃ ps, ∃ e : Endpoint Unit, Endpoint.Placed ps e ∧ e.kind = .isochronous ∧
    e.valid = true ∧ e.inFlight.length < e.window ∧ e.ring.capacity = 15 ∧
    e.ring.freeSlots = 1 := by
  obtain ⟨reply, ds, e, hstep, hkind, hvalid, hinFlight, hwindow, hring⟩ : ∃ reply ds e,
      smallIsochronous.step (.submit (packetsOfOne 13 (by decide)) 0x2000 .routine none) =
        .ok ((reply, ds), e) ∧
      e.kind = .isochronous ∧ e.valid = true ∧ e.inFlight.length = 1 ∧ e.window = 2 ∧
      e.ring.capacity = 15 ∧ e.ring.freeSlots = 1 :=
    ⟨_, _, _, rfl, rfl, rfl, rfl, rfl, rfl, rfl⟩
  have hfresh : Endpoint.Fresh smallIsochronous :=
    .create _ _ _ _ Ring.layout_minRingSize (by decide)
  have hplaced := Endpoint.Placed.step (.fresh hfresh) hstep
  refine ⟨_, e, hplaced, hkind, hvalid, ?_, hring⟩
  rw [hinFlight, hwindow]
  decide

/-- A request of two packets finds room for one TRB. It is refused because the ring is full, and the
task that would have waited has it back. -/
theorem submission_is_judged_full_ring : ∃ ps, ∃ w : World Board Unit, ∃ e : Endpoint Unit,
    ∃ request : Request Unit, Endpoint.Placed ps e ∧ w.endpoints[0]? = some e ∧
    (∃ w', transferAsync Board.still ⟨0⟩ request 0 w =
      .ok (.error ⟨.ringFull .transfer, request⟩) w') ∧
    ∃ w', transfer Board.still ⟨0⟩ request 0 w =
      .ok (.error (.rejected (.ringFull .transfer) request)) w' := by
  obtain ⟨ps, e, hplaced, hkind, hvalid, hwindow, hcapacity, hfree⟩ := exists_crowded
  let request := packetsOfOne 2 (by decide)
  let w : World Board Unit := { (default : World Board Unit) with endpoints := #[e] }
  obtain ⟨plan, hplan, hcount⟩ : ∃ plan,
      (TdPlan.ofRequest .isochronous request (located Board.still request w).1).run =
        .ok (.ok plan) ∧ plan.trbs.length = 2 := ⟨_, rfl, rfl⟩
  have hfull : ∀ result e' notify deadline r data,
      e.Verdict r data notify deadline (.ok plan) result e' →
      result = .error (.ringFull .transfer) := by
    rintro result e' notify deadline r data ⟨hjudges, -, -⟩
    cases hjudges with
    | refused _ error hrefuses =>
      cases hrefuses with
      | invalid h => simp [hvalid] at h
      | window _ h => omega
      | tooLong _ _ h => omega
      | ringFull => rfl
    | accepted _ _ hadmits =>
      have hroom := hadmits.room
      omega
  rw [← hkind] at hplan
  have hw : w.endpoints[(⟨0⟩ : EndpointRef).index]? = some e := rfl
  obtain ⟨hasync, result, w', hsettled, hanswered⟩ :=
    submission_is_judged hplaced hw Board.still request 0 hplan
  refine ⟨ps, w, e, request, hplaced, hw, ?async, ?sync⟩
  case async =>
    obtain ⟨result, w', hrun, hsettled⟩ := hasync (.inl rfl)
    cases hsettled with
    | accepted id e' h => cases hfull _ _ _ _ _ _ h
    | rejected error e' h =>
      cases hfull _ _ _ _ _ _ h
      exact ⟨_, hrun⟩
  case sync =>
    cases hsettled with
    | accepted id e' h => cases hfull _ _ _ _ _ _ h
    | rejected error e' h =>
      cases hfull _ _ _ _ _ _ h
      exact ⟨_, hanswered⟩

end Host

end UsbHost
