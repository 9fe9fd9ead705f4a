import UsbHost.Proofs.Host.Conduct
import UsbHost.Proofs.Host.Handover

/-!
Requests under any conduct. An operation on an endpoint looks at it, takes one step of it, and hands
on what the step delivers; a task that waits for its request changes its own place in the table of
tasks, and nothing else. So an operation obeys a conduct that admits the step and what is handed on.
The rules say this once for all conducts, and a conduct has to look at its steps only.
-/

namespace UsbHost

open Endpoint (Op Reply)

variable {σ ρ α β : Type}

/-- The world in which a waiting task is in another state. -/
def World.seat (w : World σ ρ) (k : WaiterId) (waiter : Waiter ρ) : World σ ρ :=
  { w with waiters := w.waiters.setIfInBounds k.index waiter }

/-- The conduct admits that an endpoint takes a step, and that what the step delivers is handed
on. -/
def Conduct.AdmitsStep (c : Conduct σ ρ) (env : Env σ ρ) (r : EndpointRef) (op : Op ρ) : Prop :=
  ∀ (w : World σ ρ) (e e' : Endpoint ρ) (reply : Reply) (ds : List (Delivery ρ)),
    w.endpoints[r.index]? = some e → e.step op = .ok ((reply, ds), e') →
    HostM.Ends (Host.handOn env e.owner ds) (w.put r e') (c.Leads w) fun _ => c.Leads w

/-! ### Steps behind operations -/

namespace Endpoint

variable {e e' : Endpoint ρ}

theorem step_event {event : TransferEvent} {delivery : Option (Delivery ρ)}
    (h : e.transferEvent event = .ok (delivery, e')) :
    e.step (.event event) = .ok ((.handled, delivery.toList), e') := by
  rw [step, h]
  rfl

theorem step_giveBack {id : RequestId} {failure : TransferFailure}
    {delivery : Option (Delivery ρ)}
    (h : (.ok (e.giveBack id failure) : Except Fault _) = .ok (delivery, e')) :
    e.step (.giveBack id failure) =
      .ok ((.givenBack delivery.isSome, delivery.toList), e') := by
  rw [Except.ok.injEq] at h
  rw [step, h]

theorem step_expire {now : UInt64} {deliveries : List (Delivery ρ)}
    (h : (.ok (e.expire now) : Except Fault _) = .ok (deliveries, e')) :
    e.step (.expire now) = .ok ((.count deliveries.length, deliveries), e') := by
  rw [Except.ok.injEq] at h
  rw [step, h]

theorem step_invalidate {result : Nat × List (Delivery ρ)}
    (h : (.ok e.invalidate : Except Fault _) = .ok (result, e')) :
    e.step .invalidate = .ok ((.count result.1, result.2), e') := by
  rw [Except.ok.injEq] at h
  rw [step, h]

/-- A request is planned first, and then submitted. -/
theorem step_submit {request : Request ρ} {data : UInt64} {notify : Notify}
    {deadline : Option UInt64} {plan : TdPlan} {result : Except Error RequestId}
    (hplan : (TdPlan.ofRequest e.kind request data).run = .ok (.ok plan))
    (h : e.submit plan request notify deadline = .ok (result, e')) :
    e.step (.submit request data notify deadline) = .ok ((.submitted result, []), e') := by
  rw [step, submitRequest, hplan]
  change (e.submit plan request notify deadline >>= _) = _
  rw [h]
  rfl

end Endpoint

namespace Host

variable {env : Env σ ρ} {w : World σ ρ} {r : EndpointRef}

theorem endpoint_none (hw : w.endpoints[r.index]? = none) :
    (HostM.endpoint r : HostM σ ρ _) w = .error .outOfBounds w := by
  have hget : (get : HostM σ ρ _) w = .ok w w := rfl
  simp only [HostM.endpoint, bind, EStateM.bind, hget, hw]
  rfl

theorem ends_endpoint {f : Endpoint ρ → HostM σ ρ α} {failed : World σ ρ → Prop}
    {done : α → World σ ρ → Prop} (hfailed : failed w)
    (h : ∀ e, w.endpoints[r.index]? = some e → HostM.Ends (f e) w failed done) :
    HostM.Ends (HostM.endpoint r >>= f) w failed done := by
  cases hw : w.endpoints[r.index]? with
  | none => exact HostM.ends_of_error (HostM.bind_of_error (endpoint_none hw)) hfailed
  | some e => exact HostM.ends_bind_of_ok (endpoint_eq hw) (h e hw)

theorem ends_onEndpoint {step : Endpoint ρ → Except Fault (α × Endpoint ρ)}
    {failed : World σ ρ → Prop} {done : α → World σ ρ → Prop} (hfailed : failed w)
    (h : ∀ e a e', w.endpoints[r.index]? = some e → step e = .ok (a, e') →
      done a (w.put r e')) : HostM.Ends (HostM.onEndpoint r step) w failed done := by
  refine ends_endpoint hfailed fun e hw => ?_
  cases hstep : step e with
  | error fault => exact hfailed
  | ok result => exact h e result.1 result.2 hw hstep

/-! ### Submissions -/

section Submissions

variable {c : Conduct σ ρ} {request : Request ρ} {notify : Notify} {deadline : Option UInt64}

/-- A submission looks up where the data is, and takes a step of the endpoint before it rings the
doorbell. -/
theorem submit_ends
    (hdoorbell : ∀ slot target,
      HostM.Obeys c (HostM.onPlatform (env.doorbell slot target) : HostM σ ρ Unit))
    (hlocated : c.Leads w (located env request w).2)
    (hsubmit : ∀ e e' result, (located env request w).2.endpoints[r.index]? = some e →
      e.step (.submit request (located env request w).1 notify deadline) =
        .ok ((.submitted result, []), e') →
      c.Leads (located env request w).2 ((located env request w).2.put r e')) :
    HostM.Ends (submit env r request notify deadline) w (c.Leads w) fun _ => c.Leads w := by
  refine ends_endpoint (c.refl w) fun e hw => ?_
  refine HostM.ends_bind_of_ok (dataAddress_located env request w) ?_
  cases hplan : (TdPlan.ofRequest e.kind request (located env request w).1).run with
  | error fault => exact hlocated
  | ok planned =>
    cases planned with
    | error error => exact hlocated
    | ok plan =>
      have hok : (HostM.ofExcept (.ok (.ok plan)) : HostM σ ρ (Except Error TdPlan))
          (located env request w).2 = .ok (.ok plan) (located env request w).2 := rfl
      have hw₁ : (located env request w).2.endpoints[r.index]? = some e := by simpa using hw
      have hon : HostM.Ends
          (HostM.onEndpoint r fun endpoint => endpoint.submit plan request notify deadline)
          (located env request w).2 (c.Leads w) fun _ => c.Leads w := by
        refine ends_onEndpoint hlocated fun e₁ result e' hw' h => c.trans hlocated ?_
        obtain rfl : e₁ = e := Option.some.inj (hw'.symm.trans hw₁)
        exact hsubmit e₁ e' result hw₁ (Endpoint.step_submit hplan h)
      refine HostM.ends_bind_of_ok hok (hon.bind fun result w₂ hw₂ => ?_)
      cases result with
      | error error => exact hw₂
      | ok id => exact ((hdoorbell _ _).bind fun _ => .pure _).continued hw₂

theorem entrust_ends
    (h : HostM.Ends (submit env r request notify deadline) w (c.Leads w) fun _ => c.Leads w) :
    HostM.Ends (entrust env r request notify deadline) w (c.Leads w) fun _ => c.Leads w := by
  refine h.bind fun result w₁ hw₁ => ?_
  cases result with
  | error error => exact hw₁
  | ok id => exact hw₁

/-- A task takes its place in the table before its request is in flight. -/
theorem transfer_ends {timeout : UInt64}
    (hentrust : HostM.Ends
      (entrust env r { request with routine := none } (.waiter ⟨w.waiters.size⟩) none)
      { w with waiters := w.waiters.push {} } (c.Leads w) fun _ => c.Leads w)
    (hawait : ∀ id timeout, HostM.Obeys c (awaitRequest env r id ⟨w.waiters.size⟩ timeout)) :
    HostM.Ends (transfer env r request timeout) w (c.Leads w) fun _ => c.Leads w := by
  refine ends_endpoint (c.refl w) fun e _ => ?_
  have hseat : (modifyGet fun w => (⟨w.waiters.size⟩, { w with waiters := w.waiters.push {} }) :
      HostM σ ρ WaiterId) w = .ok ⟨w.waiters.size⟩ { w with waiters := w.waiters.push {} } := rfl
  refine HostM.ends_bind_of_ok hseat (hentrust.bind fun result w₁ hw₁ => ?_)
  cases result with
  | error rejected => exact hw₁
  | ok id =>
    refine HostM.Obeys.continued ?_ hw₁
    refine (hawait id _).bind fun outcome => ?_
    split <;> exact .pure _

end Submissions

end Host

namespace HostM.Obeys

variable {c : Conduct σ ρ} {env : Env σ ρ} {r : EndpointRef}

/-! ### Operations on endpoints -/

/-- An endpoint takes a step, and its deliveries are handed on. -/
theorem stepping {op : Op ρ} (h : c.AdmitsStep env r op)
    {step : Endpoint ρ → Except Fault (β × Endpoint ρ)} {f : Endpoint ρ → β → HostM σ ρ α}
    (hstep : ∀ e x e', step e = .ok (x, e') → ∃ reply ds result,
      e.step op = .ok ((reply, ds), e') ∧
        f e x = (do Host.handOn env e.owner ds; return result)) :
    Obeys c (do
      let e ← HostM.endpoint r
      let x ← HostM.onEndpoint r step
      f e x) := by
  intro w
  refine Host.ends_endpoint (c.refl w) fun e hw => ?_
  have hon : Ends (HostM.onEndpoint r step) w (c.Leads w) fun x w' =>
      ∃ e', step e = .ok (x, e') ∧ w' = w.put r e' := by
    refine Host.ends_onEndpoint (c.refl w) fun e₁ x e' hw' hx => ⟨e', ?_, rfl⟩
    rwa [Option.some.inj (hw'.symm.trans hw)] at hx
  refine hon.bind ?_
  rintro x _ ⟨e', hx, rfl⟩
  obtain ⟨reply, ds, result, hop, hf⟩ := hstep e x e' hx
  rw [hf]
  exact (h w e e' reply ds hw hop).bind fun _ _ hw' => hw'

theorem transferEvent {event : TransferEvent} (h : c.AdmitsStep env r (.event event)) :
    Obeys c (Host.transferEvent env r event) := by
  refine stepping h fun e (delivery : Option (Delivery ρ)) e' hstep =>
    ⟨.handled, delivery.toList, (), Endpoint.step_event hstep, ?_⟩
  cases delivery with
  | none => rfl
  | some delivery =>
    rw [Option.toList_some, Host.handOn_singleton]
    exact (bind_pure_unit).symm

theorem cancel {id : RequestId} (h : c.AdmitsStep env r (.giveBack id .aborted)) :
    Obeys c (Host.cancel env r id) := by
  refine stepping h fun e (delivery : Option (Delivery ρ)) e' hstep =>
    ⟨.givenBack delivery.isSome, delivery.toList, delivery.isSome, Endpoint.step_giveBack hstep, ?_⟩
  cases delivery with
  | none => rfl
  | some delivery => simp

theorem pollEndpoint {now : UInt64} (h : c.AdmitsStep env r (.expire now)) :
    Obeys c (Host.pollEndpoint env now r) :=
  stepping h fun _ (deliveries : List (Delivery ρ)) _ hstep =>
    ⟨.count deliveries.length, deliveries, deliveries.length, Endpoint.step_expire hstep, rfl⟩

theorem invalidate (h : c.AdmitsStep env r .invalidate) : Obeys c (Host.invalidate env r) :=
  stepping h fun _ (result : Nat × List (Delivery ρ)) _ hstep =>
    ⟨.count result.1, result.2, result.1, Endpoint.step_invalidate hstep, rfl⟩

theorem transferAsync {request : Request ρ} {timeout : UInt64}
    (h : ∀ deadline, Obeys c (Host.entrust env r request .routine deadline)) :
    Obeys c (Host.transferAsync env r request timeout) := by
  unfold Host.transferAsync
  split
  · exact h none
  · refine (map some ?_).bind h
    refine (now env).bind fun now => ?_
    split
    · exact pure _
    · exact throw _

/-! ### Deliveries -/

section Deliveries

variable (hcomplete : ∀ routine request, Obeys c (env.complete routine request))
include hcomplete

theorem callRoutine (request : Request ρ) : Obeys c (Host.callRoutine env request) := by
  unfold Host.callRoutine
  split
  · exact hcomplete _ _
  · exact pure _

/-- A finished request is parked, or its routine is called. -/
theorem finishAsync (hpark : ∀ (w : World σ ρ) queue, c.Leads w { w with completions := queue })
    (owner : Owner) (request : Request ρ) : Obeys c (Host.finishAsync env owner request) := by
  unfold Host.finishAsync
  refine look.bind fun w => ?_
  split
  · split
    · exact modify fun w => hpark w _
    · exact callRoutine hcomplete _
  · exact callRoutine hcomplete _

theorem handOn (hpark : ∀ (w : World σ ρ) queue, c.Leads w { w with completions := queue })
    (owner : Owner) {ds : List (Delivery ρ)}
    (hwake : ∀ d ∈ ds, ∀ k, d.notify = .waiter k →
      Obeys c (Host.wake k d.request : HostM σ ρ Unit)) :
    Obeys c (Host.handOn env owner ds) := by
  induction ds with
  | nil => exact pure _
  | cons d ds ih =>
    obtain ⟨hd, hds⟩ := List.forall_mem_cons.1 hwake
    refine bind ?_ fun _ => ih hds
    unfold Host.deliver
    split
    · rename_i k hnotify
      exact hd k hnotify
    · exact finishAsync hcomplete hpark owner _

end Deliveries

/-! ### Tasks that wait -/

section Tasks

variable {k : WaiterId} (hseat : ∀ (w : World σ ρ) waiter, c.Leads w (w.seat k waiter))
include hseat

theorem takeDone : Obeys c (Host.takeDone k : HostM σ ρ Bool) := by
  refine look.bind fun w => ?_
  split
  · exact pure _
  · exact (modify fun w => hseat w _).bind fun _ => pure _

theorem pickUp? : Obeys c (Host.pickUp? k : HostM σ ρ (Option (Request ρ))) := by
  refine look.bind fun w => ?_
  split
  · exact pure _
  · exact (modify fun w => hseat w _).bind fun _ => pure _

theorem awaitRequest (hyield : Obeys c env.yieldNow) {id : RequestId}
    (hgiveBack : ∀ (w : World σ ρ) e e' reply ds, w.endpoints[r.index]? = some e →
      e.step (.giveBack id .timeout) = .ok ((reply, ds), e') → c.Leads w (w.put r e'))
    (timeout : UInt64) : Obeys c (Host.awaitRequest env r id k timeout) := by
  have hpickUp := (awaitSome hyield (pickUp? hseat) env.patience).bind
    fun request => pure (if request.isSuccess then .ok request else
      .error (.failed request) : Except (TransferError ρ) (Request ρ))
  have hon : Obeys c (HostM.onEndpoint r fun e => .ok (e.giveBack id .timeout) :
      HostM σ ρ (Option (Delivery ρ))) := by
    intro w
    exact Host.ends_onEndpoint (c.refl w) fun e delivery e' hw hstep =>
      hgiveBack w e e' _ _ hw (Endpoint.step_giveBack hstep)
  refine (awaitSignal hyield (takeDone hseat) timeout).bind fun signaled => ?_
  split
  · refine hon.bind fun delivery => ?_
    cases delivery with
    | some delivery => exact pure _
    | none =>
      refine (awaitSome hyield ?_ _).bind fun _ => hpickUp
      exact (look.bind fun w => pure _).bind fun done => pure _
  · exact hpickUp

end Tasks

end HostM.Obeys

end UsbHost
