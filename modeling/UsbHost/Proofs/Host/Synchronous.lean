import UsbHost.Proofs.Endpoint.Settlement
import UsbHost.Proofs.Host.Seats
import UsbHost.Proofs.Host.Timeouts

/-!
Synchronous transfers. A task submits a request, without its completion routine, and waits. Others
go on meanwhile; an event may finish the request, and the endpoint may be shut down. If neither has
happened when the time is up, the task takes the request back and leaves a tombstone. So as long as
the clock gets that far, the task has its request again in the end, with the routine, and what it is
told about the request is what has happened to it.
-/

namespace UsbHost

open Endpoint (Op Lives Awaited NoneFor Ended Abandoned told smallBulk fresh_smallBulk)

variable {σ ρ : Type}

/-- A task yields again and again, and all goes well. -/
inductive Yields (env : Env σ ρ) : World σ ρ → Nat → World σ ρ → Prop
  | zero (w : World σ ρ) : Yields env w 0 w
  | succ {w w₁ w' : World σ ρ} {n : Nat} (hyield : env.yieldNow w = .ok () w₁)
      (h : Yields env w₁ n w') : Yields env w (n + 1) w'

/-- The time that a task is willing to wait; 0 stands for the default of the endpoint. -/
def Endpoint.waitingTime (e : Endpoint ρ) (timeout : UInt64) : UInt64 :=
  if timeout = 0 then e.defaultTimeout else timeout

namespace Host

variable {env : Env σ ρ} {r : EndpointRef} {k : WaiterId} {id : RequestId} {e : Endpoint ρ}
  {request : Request ρ} {w w₁ w₂ : World σ ρ} {waiter : Waiter ρ}

/-! ### Looking at the signal -/

theorem takeDone_eq (hk : w.waiters[k.index]? = some waiter) :
    takeDone k w = .ok waiter.done.raised (w.seat k { waiter with done := ⟨false⟩ }) := by
  have hget : (get : HostM σ ρ _) w = .ok w w := rfl
  rw [takeDone, HostM.bind_of_ok hget]
  simp only [hk]
  rfl

/-- Who looks for a signal that has not been raised changes nothing. -/
theorem takeDone_of_not_raised (hk : w.waiters[k.index]? = some waiter)
    (hraised : waiter.done.raised = false) : takeDone k w = .ok false w := by
  have hsame : w.seat k { waiter with done := ⟨false⟩ } = w := by
    have hdone : { waiter with done := ⟨false⟩ } = waiter := by
      rw [← hraised]
    obtain ⟨hlt, hat⟩ := Array.getElem?_eq_some_iff.1 hk
    rw [hdone, World.seat, Array.setIfInBounds_def, dif_pos hlt, ← hat, Array.set_getElem_self]
  rw [takeDone_eq hk, hraised, hsame]

theorem pickUp?_eq (hk : w.waiters[k.index]? = some waiter) :
    pickUp? k w = .ok waiter.request (w.seat k { waiter with request := none }) := by
  have hget : (get : HostM σ ρ _) w = .ok w w := rfl
  rw [pickUp?, HostM.bind_of_ok hget]
  simp only [hk]
  rfl

section Wait

variable {start timeout : UInt64} {patience : Nat}

/-- How a wait has ended in the world `w'`: the signal has been found, or the time is up. -/
inductive WaitEnds (env : Env σ ρ) (k : WaiterId) (start timeout : UInt64) (w' : World σ ρ)
    (waiter : Waiter ρ) : Bool → World σ ρ → Prop
  | signalled (hraised : waiter.done.raised = true) :
      WaitEnds env k start timeout w' waiter true (w'.seat k { waiter with done := ⟨false⟩ })
  | late (hraised : waiter.done.raised = false)
      (hlate : timeout.toNat ≤ (env.now w'.bus.platform).toNat - start.toNat) :
      WaitEnds env k start timeout w' waiter false w'

/-- A task that finds the signal raised, or its time up, does not yield any more. -/
theorem awaitSignalSince_at_once (hk : w.waiters[k.index]? = some waiter)
    (hends : waiter.done.raised = true ∨
      timeout.toNat ≤ (env.now w.bus.platform).toNat - start.toNat) :
    ∃ signalled w', awaitSignalSince env (takeDone k) start timeout (patience + 1) w =
      .ok signalled w' ∧ WaitEnds env k start timeout w waiter signalled w' := by
  have htake := takeDone_eq hk
  cases hraised : waiter.done.raised with
  | true =>
    rw [hraised] at htake
    refine ⟨true, _, ?_, .signalled hraised⟩
    rw [awaitSignalSince, HostM.bind_of_ok htake]
    rfl
  | false =>
    have hlate := hends.resolve_left (by simp [hraised])
    have hnothing := takeDone_of_not_raised hk hraised
    have hnow : HostM.now env w = .ok (env.now w.bus.platform) w := rfl
    refine ⟨false, w, ?_, .late hraised hlate⟩
    rw [awaitSignalSince, HostM.bind_of_ok hnothing]
    simp only [Bool.false_eq_true, if_false]
    rw [HostM.bind_of_ok hnow, if_pos hlate, hnothing]

theorem awaitSignalSince_of_early (hk : w.waiters[k.index]? = some waiter)
    (hraised : waiter.done.raised = false)
    (hearly : ¬ timeout.toNat ≤ (env.now w.bus.platform).toNat - start.toNat)
    (hyield : env.yieldNow w = .ok () w₁) :
    awaitSignalSince env (takeDone k) start timeout (patience + 1) w =
      awaitSignalSince env (takeDone k) start timeout patience w₁ := by
  have htake := takeDone_of_not_raised hk hraised
  have hnow : HostM.now env w = .ok (env.now w.bus.platform) w := rfl
  rw [awaitSignalSince, HostM.bind_of_ok htake]
  simp only [Bool.false_eq_true, if_false]
  rw [HostM.bind_of_ok hnow, if_neg hearly, HostM.bind_of_ok hyield]

/-- If the clock gets to the deadline while the task yields, the wait comes to an end at that time
or before. -/
theorem awaitSignalSince_yields {I : World σ ρ → Prop}
    (hseat : ∀ w, I w → ∃ waiter, w.waiters[k.index]? = some waiter)
    (hkeep : ∀ w w', I w → env.yieldNow w = .ok () w' → I w') {n : Nat}
    (hyields : Yields env w n w₂)
    (htime : timeout.toNat ≤ (env.now w₂.bus.platform).toNat - start.toNat)
    (hpatience : n < patience) (hw : I w) :
    ∃ m w' waiter signalled w'', Yields env w m w' ∧ I w' ∧
      w'.waiters[k.index]? = some waiter ∧
      awaitSignalSince env (takeDone k) start timeout patience w = .ok signalled w'' ∧
      WaitEnds env k start timeout w' waiter signalled w'' := by
  induction hyields generalizing patience with
  | zero w =>
    obtain ⟨waiter, hk⟩ := hseat w hw
    obtain ⟨p, rfl⟩ : ∃ p, patience = p + 1 := ⟨patience - 1, by omega⟩
    obtain ⟨signalled, w'', hrun, hends⟩ := awaitSignalSince_at_once hk (.inr htime)
    exact ⟨0, w, waiter, signalled, w'', .zero w, hw, hk, hrun, hends⟩
  | @succ w w₁ _ n hyield _ ih =>
    obtain ⟨waiter, hk⟩ := hseat w hw
    obtain ⟨p, rfl⟩ : ∃ p, patience = p + 1 := ⟨patience - 1, by omega⟩
    by_cases hends : waiter.done.raised = true ∨
        timeout.toNat ≤ (env.now w.bus.platform).toNat - start.toNat
    · obtain ⟨signalled, w'', hrun, hends⟩ := awaitSignalSince_at_once hk hends
      exact ⟨0, w, waiter, signalled, w'', .zero w, hw, hk, hrun, hends⟩
    · rw [not_or, Bool.not_eq_true] at hends
      have hrest : n < p := by omega
      obtain ⟨m, w', waiter', signalled, w'', hyields, hw', hk', hrun, hends'⟩ :=
        ih htime hrest (hkeep w w₁ hw hyield)
      refine ⟨m + 1, w', waiter', signalled, w'', .succ hyield hyields, hw', hk', ?_, hends'⟩
      rw [awaitSignalSince_of_early hk hends.1 hends.2 hyield, hrun]

end Wait

/-! ### Having the request again -/

/-- The answer to a task whose request has been finished. -/
def settledAnswer (request : Request ρ) : Except (TransferError ρ) (Request ρ) :=
  if request.isSuccess then .ok request else .error (.failed request)

theorem awaitRequest_of_signalled {timeout : UInt64}
    (hwait : awaitSignal env (takeDone k) timeout w = .ok true w₁)
    (hk : w₁.waiters[k.index]? = some waiter) (hrequest : waiter.request = some request)
    (hpatience : 0 < env.patience) :
    awaitRequest env r id k timeout w =
      .ok (settledAnswer request) (w₁.seat k { waiter with request := none }) := by
  have hpick := pickUp?_eq hk
  rw [hrequest] at hpick
  obtain ⟨p, hsucc⟩ : ∃ p, env.patience = p + 1 := ⟨env.patience - 1, by omega⟩
  have hsome : awaitSome env (pickUp? k) env.patience w₁ =
      .ok request (w₁.seat k { waiter with request := none }) := by
    rw [hsucc, awaitSome, HostM.bind_of_ok hpick]
    rfl
  rw [awaitRequest, HostM.bind_of_ok hwait]
  exact HostM.bind_of_ok hsome

theorem awaitRequest_of_late {timeout : UInt64} {d : Delivery ρ}
    (hwait : awaitSignal env (takeDone k) timeout w = .ok false w₁)
    (hw : w₁.endpoints[r.index]? = some e) (hgive : (e.giveBack id .timeout).1 = some d) :
    awaitRequest env r id k timeout w =
      .ok (.error (.timeout d.request)) (w₁.put r (e.giveBack id .timeout).2) := by
  have hon : (HostM.onEndpoint r (fun endpoint => .ok (endpoint.giveBack id .timeout)) :
      HostM σ ρ _) w₁ = .ok (e.giveBack id .timeout).1 (w₁.put r (e.giveBack id .timeout).2) :=
    onEndpoint_eq hw rfl
  rw [hgive] at hon
  rw [awaitRequest, HostM.bind_of_ok hwait]
  exact HostM.bind_of_ok hon

/-- How a task comes to have its request again, after it has waited in `w₁` and others have done
`deeds` to the endpoint, which has led to `w₂`. -/
inductive Regains (env : Env σ ρ) (r : EndpointRef) (k : WaiterId) (id : RequestId)
    (request : Request ρ) (timeout : UInt64) (w₁ : World σ ρ) (deeds : List (Endpoint.Deed ρ))
    (w₂ : World σ ρ) (e₂ : Endpoint ρ) :
    Except (TransferError ρ) (Request ρ) → World σ ρ → Prop
  | ended {op : Endpoint.Op ρ} {q : Request ρ} (htold : told k deeds = [(op, q)])
      (hended : Ended request op q) {w' : World σ ρ} (hsame : w'.endpoints = w₂.endpoints) :
      Regains env r k id request timeout w₁ deeds w₂ e₂ (settledAnswer q) w'
  | late (htold : told k deeds = [])
      (hlate : timeout.toNat ≤
        (env.now w₂.bus.platform).toNat - (env.now w₁.bus.platform).toNat)
      (habandoned : Abandoned k id request.buffer (e₂.giveBack id .timeout).2) :
      Regains env r k id request timeout w₁ deeds w₂ e₂
        (.error (.timeout (request.takeBuffer.2.finish (.failed .timeout) 0)))
        (w₂.put r (e₂.giveBack id .timeout).2)

theorem waiter_seat (hk : w.waiters[k.index]? = some waiter) (waiter' : Waiter ρ) :
    (w.seat k waiter').waiters[k.index]? = some waiter' := by
  obtain ⟨hlt, -⟩ := Array.getElem?_eq_some_iff.1 hk
  rw [World.seat, Array.getElem?_setIfInBounds_self_of_lt hlt]

/-- If the clock gets to the deadline, a task that waits for its request has it again. -/
theorem awaitRequest_regains {timeout : UInt64} {e₁ : Endpoint ρ}
    (hyield : Bystander env.yieldNow) (hminds : w₁.Minds r k id request)
    (hw₁ : w₁.endpoints[r.index]? = some e₁) (hawaited : Awaited k id request e₁.inFlight)
    (hk : w₁.waiters[k.index]? = some {}) {n : Nat} (hyields : Yields env w₁ n w₂)
    (hpatience : n < env.patience)
    (htime : timeout.toNat ≤
      (env.now w₂.bus.platform).toNat - (env.now w₁.bus.platform).toNat) :
    ∃ m w' deeds e₂ answer w'', Yields env w₁ m w' ∧ w₁.Passed r k deeds w' ∧
      w'.endpoints[r.index]? = some e₂ ∧ awaitRequest env r id k timeout w₁ = .ok answer w'' ∧
      Regains env r k id request timeout w₁ deeds w' e₂ answer w'' := by
  -- What is known of every world that the task sees.
  let I : World σ ρ → Prop := fun w => w.Minds r k id request ∧ ∃ deeds, w₁.Passed r k deeds w
  have hseat : ∀ w, I w → ∃ waiter, w.waiters[k.index]? = some waiter := by
    rintro w ⟨-, deeds, hpassed⟩
    exact ⟨_, hpassed.told_eq _ hk⟩
  have hkeep : ∀ w w', I w → env.yieldNow w = .ok () w' → I w' := by
    rintro w w' ⟨hw, deeds, hpassed⟩ hrun
    obtain ⟨hw', deeds', hpassed'⟩ :=
      (hyield.obeys (World.tolerates_minding r k id request) w).of_ok hrun hw
    exact ⟨hw', deeds ++ deeds', hpassed.trans hpassed'⟩
  obtain ⟨m, w', waiter, signalled, w'', hyields', ⟨-, deeds, hpassed⟩, hk', hrun, hends⟩ :=
    awaitSignalSince_yields hseat hkeep hyields htime hpatience ⟨hminds, [], .refl r k w₁⟩
  have hwait : awaitSignal env (takeDone k) timeout w₁ = .ok signalled w'' := by
    have hnow : HostM.now env w₁ = .ok (env.now w₁.bus.platform) w₁ := rfl
    rw [awaitSignal, HostM.bind_of_ok hnow, hrun]
  obtain ⟨e₂, hw', hlives⟩ := hpassed.lives e₁ hw₁
  have hwaiter := hpassed.told_eq _ hk
  rw [hk', Option.some.injEq] at hwaiter
  rcases hlives.awaited hawaited with ⟨htold, hstill⟩ | ⟨op, q, htold, hended, -⟩
  · -- Nothing has been told, so the signal is not raised.
    rw [htold] at hwaiter
    subst hwaiter
    cases hends with
    | signalled hraised => cases hraised
    | late _ hlate =>
      obtain ⟨hgive, habandoned⟩ := hstill.giveBack .timeout
      exact ⟨m, w', deeds, e₂, _, _, hyields', hpassed, hw', awaitRequest_of_late hwait hw' hgive,
        .late htold hlate habandoned⟩
  · rw [htold] at hwaiter
    subst hwaiter
    cases hends with
    | late hraised => cases hraised
    | signalled =>
      exact ⟨m, w', deeds, e₂, _, _, hyields', hpassed, hw',
        awaitRequest_of_signalled hwait (waiter_seat hk' _) rfl (Nat.zero_lt_of_lt hpatience),
        .ended htold hended rfl⟩

/-! ### The whole transfer -/

/-- The submission of a request that its task is going to wait for. -/
def entrustWaiting (env : Env σ ρ) (r : EndpointRef) (request : Request ρ) (w : World σ ρ) :
    EStateM.Result Fault (World σ ρ) (Except (Rejected ρ) RequestId) :=
  entrust env r { request with routine := none } (.waiter ⟨w.waiters.size⟩) none
    { w with waiters := w.waiters.push {} }

/-- In the world `w` a task has submitted its request, which has gone without its routine; and
while it has waited, from `w₁` to `w₂`, others have done `deeds` to the endpoint. What these have
delivered for the task has been put down in its place, and nothing else. -/
structure Waited (env : Env σ ρ) (r : EndpointRef) (request : Request ρ) (w : World σ ρ)
    (id : RequestId) (w₁ : World σ ρ) (deeds : List (Endpoint.Deed ρ)) (w₂ : World σ ρ)
    (e₂ : Endpoint ρ) : Prop where
  entrusted : entrustWaiting env r request w = .ok (.ok id) w₁
  yields : ∃ n, Yields env w₁ n w₂
  lives : ∃ e₁, w₁.endpoints[r.index]? = some e₁ ∧
    Awaited ⟨w.waiters.size⟩ id { request with routine := none } e₁.inFlight ∧
    Lives Op.Spares e₁ deeds e₂
  endpoint_eq : w₂.endpoints[r.index]? = some e₂
  waiter_eq : w₂.waiters[w.waiters.size]? =
    some (({} : Waiter ρ).told ((told ⟨w.waiters.size⟩ deeds).map Prod.snd))

/-- What a synchronous transfer comes to. -/
inductive Returned (env : Env σ ρ) (r : EndpointRef) (e : Endpoint ρ) (request : Request ρ)
    (timeout : UInt64) (w : World σ ρ) :
    Except (TransferError ρ) (Request ρ) → World σ ρ → Prop
  /-- The endpoint has refused the request. -/
  | rejected (error : Error) (w' : World σ ρ)
      (h : entrustWaiting env r request w =
        .ok (.error ⟨error, { request with routine := none }⟩) w') :
      Returned env r e request timeout w (.error (.rejected error request)) w'
  /-- An event has finished the request. -/
  | succeeded {id : RequestId} {w₁ w₂ : World σ ρ} {deeds : List (Endpoint.Deed ρ)}
      {e₂ : Endpoint ρ} (hwaited : Waited env r request w id w₁ deeds w₂ e₂)
      (event : TransferEvent) (length : Nat) (hok : event.code.isTransferOk = true)
      (htold : told ⟨w.waiters.size⟩ deeds =
        [(.event event, { request with routine := none }.finish .success length)])
      (w' : World σ ρ) (hsame : w'.endpoints = w₂.endpoints) :
      Returned env r e request timeout w (.ok (request.finish .success length)) w'
  | failed {id : RequestId} {w₁ w₂ : World σ ρ} {deeds : List (Endpoint.Deed ρ)}
      {e₂ : Endpoint ρ} (hwaited : Waited env r request w id w₁ deeds w₂ e₂)
      (event : TransferEvent) (length : Nat) (hok : event.code.isTransferOk = false)
      (htold : told ⟨w.waiters.size⟩ deeds = [(.event event,
        { request with routine := none }.finish (.failed event.code.failure) length)])
      (w' : World σ ρ) (hsame : w'.endpoints = w₂.endpoints) :
      Returned env r e request timeout w
        (.error (.failed (request.finish (.failed event.code.failure) length))) w'
  /-- The endpoint has been shut down. -/
  | aborted {id : RequestId} {w₁ w₂ : World σ ρ} {deeds : List (Endpoint.Deed ρ)}
      {e₂ : Endpoint ρ} (hwaited : Waited env r request w id w₁ deeds w₂ e₂)
      (htold : told ⟨w.waiters.size⟩ deeds = [(.invalidate,
        { request with routine := none, buffer := none }.finish (.failed .aborted) 0)])
      (w' : World σ ρ) (hsame : w'.endpoints = w₂.endpoints) :
      Returned env r e request timeout w
        (.error (.failed ({ request with buffer := none }.finish (.failed .aborted) 0))) w'
  /-- Neither has happened, and the time is up. The buffer is left to the endpoint. -/
  | timedOut {id : RequestId} {w₁ w₂ : World σ ρ} {deeds : List (Endpoint.Deed ρ)}
      {e₂ : Endpoint ρ} (hwaited : Waited env r request w id w₁ deeds w₂ e₂)
      (htold : told ⟨w.waiters.size⟩ deeds = [])
      (hlate : (e.waitingTime timeout).toNat ≤
        (env.now w₂.bus.platform).toNat - (env.now w₁.bus.platform).toNat)
      (habandoned : Abandoned ⟨w.waiters.size⟩ id request.buffer (e₂.giveBack id .timeout).2) :
      Returned env r e request timeout w
        (.error (.timeout ({ request with buffer := none }.finish (.failed .timeout) 0)))
        (w₂.put r (e₂.giveBack id .timeout).2)

/-! ### Completion routines -/

section Routines

variable (complete : ρ → Request ρ → HostM σ ρ Unit)

theorem awaitSome_complete {α : Type} (poll : HostM σ ρ (Option α)) (patience : Nat) :
    awaitSome { env with complete := complete } poll patience = awaitSome env poll patience := by
  induction patience with
  | zero => rfl
  | succ patience ih =>
    rw [awaitSome, awaitSome]
    refine bind_congr fun found => ?_
    cases found with
    | some a => rfl
    | none => exact bind_congr fun _ => ih

theorem awaitSignalSince_complete (take : HostM σ ρ Bool) (start timeout : UInt64)
    (patience : Nat) :
    awaitSignalSince { env with complete := complete } take start timeout patience =
      awaitSignalSince env take start timeout patience := by
  induction patience with
  | zero => rfl
  | succ patience ih =>
    rw [awaitSignalSince, awaitSignalSince]
    simp only [ih]
    rfl

theorem awaitRequest_complete (timeout : UInt64) :
    awaitRequest { env with complete := complete } r id k timeout =
      awaitRequest env r id k timeout := by
  unfold awaitRequest awaitSignal
  simp only [awaitSome_complete, awaitSignalSince_complete]
  rfl

/-- A synchronous transfer has no use for completion routines. -/
theorem transfer_complete (timeout : UInt64) :
    transfer { env with complete := complete } r request timeout =
      transfer env r request timeout := by
  unfold transfer
  simp only [awaitRequest_complete]
  rfl

end Routines

/-- A transfer whose request has been taken returns what its wait comes to. -/
theorem returned_of_regains {timeout : UInt64} {deeds : List (Endpoint.Deed ρ)} {e₂ : Endpoint ρ}
    {answer : Except (TransferError ρ) (Request ρ)} {w' : World σ ρ}
    (hwaited : Waited env r request w id w₁ deeds w₂ e₂)
    (h : Regains env r ⟨w.waiters.size⟩ id { request with routine := none } (e.waitingTime timeout)
      w₁ deeds w₂ e₂ answer w') :
    Returned env r e request timeout w (restored request.routine answer) w' := by
  cases h with
  | late htold hlate habandoned => exact .timedOut hwaited htold hlate habandoned
  | ended htold hended hsame =>
    cases hended with
    | event event length =>
      cases hok : event.code.isTransferOk with
      | true =>
        simp only [hok, if_true] at htold
        exact .succeeded hwaited event length hok htold _ hsame
      | false =>
        simp only [hok, Bool.false_eq_true, if_false] at htold
        exact .failed hwaited event length hok htold _ hsame
    | invalidate => exact .aborted hwaited htold _ hsame

/-- A task whose request has just been taken is the only one that waits in its place. -/
theorem minds_of_entrusted (hw : w.endpoints[r.index]? = some e) (hseated : w.Seated)
    {e₁ : Endpoint ρ} (hends : w₁.endpoints = (w.put r e₁).endpoints)
    (hawaited : Awaited ⟨w.waiters.size⟩ id request e₁.inFlight) :
    w₁.Minds r ⟨w.waiters.size⟩ id request where
  here e' hw' := by
    obtain rfl : e₁ = e' := by simpa [hends, hw] using hw'
    exact .inl hawaited
  elsewhere i e' hi hw' := by
    exact hseated _ (Nat.le_refl _) i e' (by simpa [hends, hi] using hw')

/-- A task whose request has been taken has it again in the end, if the clock gets to its
deadline. -/
theorem returned_of_accepted (hw : w.endpoints[r.index]? = some e) (hseated : w.Seated)
    (hyield : Bystander env.yieldNow) {timeout : UInt64} {e₁ : Endpoint ρ}
    (hentrust : entrustWaiting env r request w = .ok (.ok id) w₁)
    (hends : w₁.endpoints = (w.put r e₁).endpoints)
    (hk : w₁.waiters[w.waiters.size]? = some {})
    (hawaited : Awaited ⟨w.waiters.size⟩ id { request with routine := none } e₁.inFlight)
    (hclock : ∃ n w₂, n < env.patience ∧ Yields env w₁ n w₂ ∧ (e.waitingTime timeout).toNat ≤
      (env.now w₂.bus.platform).toNat - (env.now w₁.bus.platform).toNat) :
    ∃ answer w', awaitRequest env r id ⟨w.waiters.size⟩ (e.waitingTime timeout) w₁ =
        .ok answer w' ∧
      Returned env r e request timeout w (restored request.routine answer) w' := by
  obtain ⟨n, w₂, hpatience, hyields, htime⟩ := hclock
  have hw₁ : w₁.endpoints[r.index]? = some e₁ := by simp [hends, hw]
  obtain ⟨m, w', deeds, e₂, answer, w'', hyields', hpassed, hw', hrun, hregains⟩ :=
    awaitRequest_regains hyield (minds_of_entrusted hw hseated hends hawaited) hw₁ hawaited hk
      hyields hpatience htime
  have hlives : Lives Op.Spares e₁ deeds e₂ := by
    obtain ⟨e', he, hlives⟩ := hpassed.lives e₁ hw₁
    rw [hw'] at he
    cases he
    exact hlives
  have hwaited : Waited env r request w id w₁ deeds w' e₂ :=
    ⟨hentrust, ⟨m, hyields'⟩, ⟨e₁, hw₁, hawaited, hlives⟩, hw', hpassed.told_eq _ hk⟩
  exact ⟨answer, w'', hrun, returned_of_regains hwaited hregains⟩

/-- A synchronous transfer returns its request, with the routine, in every case. Requests in flight
are waited for by tasks that exist, as in every reachable world (`World.Reachable.seated`). The IDs
of requests begin again after 2⁶⁴ submissions; the next one must not belong to a request in flight,
or the task would ask for that one back. -/
theorem transfer_returns_request {ps : List (Placement ρ)} (h : Endpoint.Placed ps e)
    (hw : w.endpoints[r.index]? = some e) (hseated : w.Seated)
    (hids : ∀ record ∈ e.inFlight, record.id ≠ ⟨e.nextRequest⟩)
    (hfits : (located env request w).1.toNat + request.bufferLength < UInt64.size)
    (hyield : Bystander env.yieldNow) (timeout : UInt64)
    (hclock : ∀ id w₁, entrustWaiting env r request w = .ok (.ok id) w₁ →
      ∃ n w₂, n < env.patience ∧ Yields env w₁ n w₂ ∧ (e.waitingTime timeout).toNat ≤
        (env.now w₂.bus.platform).toNat - (env.now w₁.bus.platform).toNat) :
    (∃ answer w', transfer env r request timeout w = .ok answer w' ∧ w'.Seated ∧
      Returned env r e request timeout w answer w') ∧
    ∀ complete, transfer { env with complete := complete } r request timeout w =
      transfer env r request timeout w := by
  refine ⟨?_, fun complete => congrFun (transfer_complete complete timeout) w⟩
  obtain ⟨answer, w', hrun, hreturned⟩ : ∃ answer w',
      transfer env r request timeout w = .ok answer w' ∧
        Returned env r e request timeout w answer w' := by
    have hdata := dataAddress_located env { request with routine := none }
      { w with waiters := w.waiters.push {} }
    rw [located_push] at hdata
    obtain ⟨result, e₁, w₁, hstep, hentrust, hends, hwaiters⟩ := entrust_steps
      (w := { w with waiters := w.waiters.push {} }) h.tallies.sound hw hdata hfits
      (.waiter ⟨w.waiters.size⟩) none
    rw [transfer_eq env hw, HostM.bind_of_ok hentrust]
    cases result with
    | error error => exact ⟨_, w₁, rfl, .rejected error w₁ hentrust⟩
    | ok id =>
      have hawaited := Endpoint.awaited_of_submit hstep hids
        (hseated _ (Nat.le_refl _) r.index e hw)
      have hk : w₁.waiters[w.waiters.size]? = some {} := by
        rw [hwaiters]
        exact Array.getElem?_push_size
      obtain ⟨answer, w', hrun, hreturned⟩ := returned_of_accepted hw hseated hyield hentrust hends
        hk hawaited (hclock id w₁ hentrust)
      have hanswer := HostM.bind_of_ok
        (f := fun answer => pure (restored request.routine answer)) hrun
      rw [← map_eq_pure_bind] at hanswer
      exact ⟨restored request.routine answer, w', hanswer, hreturned⟩
  exact ⟨answer, w', hrun,
    (seated_transfer (hyield.obeys World.tolerates_seated) r request timeout w).of_ok hrun hseated,
    hreturned⟩

/-- Surroundings in which each yield takes a millisecond, and the controller reports that the
request at the start of the smallest ring has succeeded. -/
def answering : Env Board Unit :=
  { Board.still with
    yieldNow := do
      HostM.onPlatform fun b => { b with clock := b.clock + 1 }
      transferEvent Board.still ⟨0⟩ ⟨.success, 0, 1, 3, 0x1000⟩ }

theorem bystander_answering : Bystander answering.yieldNow :=
  .bind (.platform _) fun _ => .transferEvent _ (fun _ _ => .pure ()) _ _

/-- A task that waits for eight bytes for a millisecond has them after one yield. -/
theorem transfer_returns_request_answered : ∃ w',
    transfer answering ⟨0⟩ eightBytes 1 (clockedHost 1 smallBulk) =
      .ok (.ok (eightBytes.finish .success 8)) w' ∧
    Returned answering ⟨0⟩ smallBulk eightBytes 1 (clockedHost 1 smallBulk)
      (.ok (eightBytes.finish .success 8)) w' := by
  have hseated : (clockedHost 1 smallBulk).Seated := by
    intro k _ i e hw record hrecord
    obtain rfl : e = smallBulk := by
      obtain ⟨hi, rfl⟩ := Array.getElem?_eq_some_iff.1 hw
      obtain rfl : i = 0 := Nat.lt_one_iff.1 hi
      rfl
    exact (List.not_mem_nil hrecord).elim
  have hclock : ∀ id w₁,
      entrustWaiting answering ⟨0⟩ eightBytes (clockedHost 1 smallBulk) = .ok (.ok id) w₁ →
      ∃ n w₂, n < answering.patience ∧ Yields answering w₁ n w₂ ∧
        (smallBulk.waitingTime 1).toNat ≤
          (answering.now w₂.bus.platform).toNat - (answering.now w₁.bus.platform).toNat := by
    obtain ⟨id₁, w₁, hentrusted, hyields, htime⟩ : ∃ id₁ w₁,
        entrustWaiting answering ⟨0⟩ eightBytes (clockedHost 1 smallBulk) = .ok (.ok id₁) w₁ ∧
        (answering.yieldNow.run' w₁).isSome = true ∧ (smallBulk.waitingTime 1).toNat ≤
          (answering.now (w₁.after answering.yieldNow).bus.platform).toNat -
            (answering.now w₁.bus.platform).toNat :=
      ⟨_, _, rfl, by decide +kernel, by decide +kernel⟩
    obtain ⟨_, hyield⟩ := World.run_of_isSome hyields
    intro id w h
    rw [hentrusted] at h
    cases h
    exact ⟨1, _, by decide, .succ hyield (.zero _), htime⟩
  have hw : (clockedHost 1 smallBulk).endpoints[(⟨0⟩ : EndpointRef).index]? = some smallBulk := rfl
  have hids : ∀ record ∈ smallBulk.inFlight, record.id ≠ ⟨smallBulk.nextRequest⟩ :=
    fun _ hr => Ledger.Reachable.id_ne_next (.fresh fresh_smallBulk) (by decide) hr
  have hfits : (located answering eightBytes (clockedHost 1 smallBulk)).1.toNat +
      eightBytes.bufferLength < UInt64.size := by decide +kernel
  obtain ⟨⟨answer, w', hrun, -, hreturned⟩, -⟩ := transfer_returns_request (.fresh fresh_smallBulk)
    hw hseated hids hfits bystander_answering 1 hclock
  have hlength : (((transfer answering ⟨0⟩ eightBytes 1).run' (clockedHost 1 smallBulk)).bind
      Except.toOption).map Request.resultLength = some 8 := by decide +kernel
  delta EStateM.run' EStateM.run at hlength
  rw [hrun] at hlength
  cases answer with
  | error error => cases hlength
  | ok request =>
    obtain rfl : request = eightBytes.finish .success 8 := by
      have height : request.resultLength = 8 := Option.some.inj hlength
      cases hreturned with
      | succeeded _ _ length => exact congrArg (eightBytes.finish .success) height
    exact ⟨w', hrun, hreturned⟩

end Host

end UsbHost
