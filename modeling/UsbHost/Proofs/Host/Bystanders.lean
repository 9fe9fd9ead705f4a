import UsbHost.Proofs.Endpoint.Awaited
import UsbHost.Proofs.Host.Requests

/-!
Bystanders of a task that waits. While a task waits for its request, others go on: time passes,
events arrive, requests are submitted and time out, an endpoint is shut down; and completion
routines, which run in the middle of all this, do the like. Whatever they do, the endpoint takes
one step after another, and the task is told exactly what these steps deliver for it.
-/

namespace UsbHost

open Endpoint (Op Reply Deed Lives Awaited NoneFor Transition handedTo told)

variable {σ ρ α : Type}

attribute [ext] WaiterId

/-- A computation of somebody who goes on while a task waits. He does not wait himself. -/
inductive Bystander : {α : Type} → HostM σ ρ α → Prop
  | pure {α : Type} (a : α) : Bystander (pure a : HostM σ ρ α)
  | throw {α : Type} (fault : Fault) : Bystander (throw fault : HostM σ ρ α)
  | look : Bystander (get : HostM σ ρ (World σ ρ))
  | bind {α β : Type} {p : HostM σ ρ α} {f : α → HostM σ ρ β} (hp : Bystander p)
      (hf : ∀ a, Bystander (f a)) : Bystander (p >>= f)
  | platform (f : σ → σ) : Bystander (.onPlatform f : HostM σ ρ Unit)
  | transferEvent (env : Env σ ρ)
      (hcomplete : ∀ routine request, Bystander (env.complete routine request)) (r : EndpointRef)
      (event : TransferEvent) : Bystander (Host.transferEvent env r event)
  | transferAsync (env : Env σ ρ) (r : EndpointRef) (request : Request ρ) (timeout : UInt64) :
      Bystander (Host.transferAsync env r request timeout)
  | pollEndpoint (env : Env σ ρ)
      (hcomplete : ∀ routine request, Bystander (env.complete routine request)) (now : UInt64)
      (r : EndpointRef) : Bystander (Host.pollEndpoint env now r)
  | invalidate (env : Env σ ρ)
      (hcomplete : ∀ routine request, Bystander (env.complete routine request))
      (r : EndpointRef) : Bystander (Host.invalidate env r)

/-- What a conduct has to admit so that bystanders obey it, if completion routines do. -/
structure Conduct.Tolerates (c : Conduct σ ρ) : Prop where
  aside : ∀ {w w' : World σ ρ}, w'.endpoints = w.endpoints → w'.waiters = w.waiters → c.Leads w w'
  /-- An endpoint takes a step of somebody who does not wait. -/
  step : ∀ {env : Env σ ρ} {r : EndpointRef} {op : Op ρ},
    (∀ routine request, (env.complete routine request).Obeys c) → op.Spares → c.AdmitsStep env r op

section Tolerates

variable {c : Conduct σ ρ} (h : c.Tolerates)
include h

theorem Host.tolerates_onPlatform (f : σ → σ) : (HostM.onPlatform f : HostM σ ρ Unit).Obeys c :=
  fun _ => h.aside rfl rfl

/-- Others submit requests that nobody waits for. -/
theorem Host.tolerates_submit (env : Env σ ρ) (r : EndpointRef) (request : Request ρ)
    (deadline : Option UInt64) : (submit env r request .routine deadline).Obeys c := by
  intro w
  -- A submission delivers nothing, so it does not matter what completion routines do.
  have hquiet : ∀ routine request',
      (({ env with complete := fun _ _ => pure () } : Env σ ρ).complete routine request').Obeys c :=
    fun _ _ => .pure ()
  refine submit_ends (fun _ _ => tolerates_onPlatform h _)
    (h.aside (located_endpoints env request w) (located_waiters env request w)) ?_
  intro e e' result hw hstep
  have hop : (Op.submit request (located env request w).1 .routine deadline).Spares := rfl
  exact h.step hquiet hop _ e e' _ [] hw hstep

theorem Bystander.obeys {p : HostM σ ρ α} (hp : Bystander p) : p.Obeys c := by
  induction hp with
  | pure a => exact .pure a
  | throw fault => exact .throw fault
  | look => exact .look
  | bind _ _ ihp ihf => exact ihp.bind ihf
  | platform f => exact Host.tolerates_onPlatform h f
  | transferEvent env _ r event hcomplete => exact .transferEvent (h.step hcomplete trivial)
  | transferAsync env r request timeout =>
    exact .transferAsync fun deadline w =>
      Host.entrust_ends (Host.tolerates_submit h env r request deadline w)
  | pollEndpoint env _ now r hcomplete => exact .pollEndpoint (h.step hcomplete trivial)
  | invalidate env _ r hcomplete => exact .invalidate (h.step hcomplete trivial)

end Tolerates

/-! ### What a task notices -/

/-- The task has been told of these requests, one after the other. -/
def Waiter.told (waiter : Waiter ρ) (requests : List (Request ρ)) : Waiter ρ :=
  requests.foldl (fun waiter request => ⟨waiter.done.raise, some request⟩) waiter

@[simp] theorem Waiter.told_append (waiter : Waiter ρ) (requests requests' : List (Request ρ)) :
    waiter.told (requests ++ requests') = (waiter.told requests).told requests' :=
  List.foldl_append

namespace World

variable {r r' : EndpointRef} {k : WaiterId} {id : RequestId} {request : Request ρ}
  {w w' w'' : World σ ρ} {e e' : Endpoint ρ} {op : Op ρ} {reply : Reply} {ds : List (Delivery ρ)}
  {deeds deeds' : List (Deed ρ)}

/-- The task `k` waits for the request `id` on the endpoint `r`, or for nothing any more. -/
structure Minds (r : EndpointRef) (k : WaiterId) (id : RequestId) (request : Request ρ)
    (w : World σ ρ) : Prop where
  here : ∀ e, w.endpoints[r.index]? = some e →
    Awaited k id request e.inFlight ∨ NoneFor k e.inFlight
  elsewhere : ∀ i e, i ≠ r.index → w.endpoints[i]? = some e → NoneFor k e.inFlight

/-- Steps of others have led the endpoint from one state to another, and the task has been told
what they have delivered for it. -/
structure Passed (r : EndpointRef) (k : WaiterId) (w : World σ ρ) (deeds : List (Deed ρ))
    (w' : World σ ρ) : Prop where
  lives : ∀ e, w.endpoints[r.index]? = some e →
    ∃ e', w'.endpoints[r.index]? = some e' ∧ Lives Op.Spares e deeds e'
  told_eq : ∀ waiter, w.waiters[k.index]? = some waiter →
    w'.waiters[k.index]? = some (waiter.told ((told k deeds).map Prod.snd))

theorem Passed.refl (r : EndpointRef) (k : WaiterId) (w : World σ ρ) : w.Passed r k [] w where
  lives e hw := ⟨e, hw, .nil e⟩
  told_eq _ hk := hk

theorem Passed.trans (h : w.Passed r k deeds w') (h' : w'.Passed r k deeds' w'') :
    w.Passed r k (deeds ++ deeds') w'' where
  lives e hw := by
    obtain ⟨e', hw', hlives⟩ := h.lives e hw
    obtain ⟨e'', hw'', hlives'⟩ := h'.lives e' hw'
    exact ⟨e'', hw'', hlives.append hlives'⟩
  told_eq waiter hk := by
    simpa using h'.told_eq _ (h.told_eq waiter hk)

/-- A task that waits notices only what happens to its request. -/
def minding (r : EndpointRef) (k : WaiterId) (id : RequestId) (request : Request ρ) :
    Conduct σ ρ where
  Leads w w' := w.Minds r k id request → w'.Minds r k id request ∧ ∃ deeds, w.Passed r k deeds w'
  refl w h := ⟨h, [], .refl r k w⟩
  trans h h' hw := by
    obtain ⟨hw₁, deeds, hpassed⟩ := h hw
    obtain ⟨hw₂, deeds', hpassed'⟩ := h' hw₁
    exact ⟨hw₂, deeds ++ deeds', hpassed.trans hpassed'⟩

/-- What touches neither endpoints nor the task passes unnoticed. -/
theorem leads_aside (hendpoints : w'.endpoints = w.endpoints)
    (hwaiters : w'.waiters[k.index]? = w.waiters[k.index]?) :
    (minding r k id request).Leads w w' := by
  intro h
  refine ⟨⟨?_, ?_⟩, [], ⟨?_, ?_⟩⟩
  · rw [hendpoints]
    exact h.here
  · rw [hendpoints]
    exact h.elsewhere
  · rw [hendpoints]
    exact fun e hw => ⟨e, hw, .nil e⟩
  · rw [hwaiters]
    exact fun _ hk => hk

theorem minding_aside (hendpoints : w'.endpoints = w.endpoints)
    (hwaiters : w'.waiters = w.waiters) : (minding r k id request).Leads w w' :=
  leads_aside hendpoints (by rw [hwaiters])

/-- Only who starts where the task waits is bound. -/
theorem ends_of_minds {p : HostM σ ρ α} (h : w.Minds r k id request →
    HostM.Ends p w' ((minding r k id request).Leads w) fun _ => (minding r k id request).Leads w) :
    HostM.Ends p w' ((minding r k id request).Leads w) fun _ =>
      (minding r k id request).Leads w := by
  by_cases hminds : w.Minds r k id request
  · exact h hminds
  · exact (HostM.ends_trivial p w').mono (fun _ _ hw => (hminds hw).elim)
      fun _ _ _ hw => (hminds hw).elim

theorem Minds.put (h : w.Minds r k id request) (hw : w.endpoints[r'.index]? = some e)
    (ht : Transition e op reply ds e') (hop : op.Spares) : (w.put r' e').Minds r k id request where
  here e₁ hw₁ := by
    rcases endpoint_put_cases hw₁ with ⟨hr, rfl⟩ | ⟨-, hw₁⟩
    · rw [← hr] at hw
      rcases h.here e hw with hawaited | hnone
      · rcases ht.awaited hop hawaited with ⟨-, hawaited⟩ | ⟨q, -, -, hnone⟩
        · exact .inl hawaited
        · exact .inr hnone
      · exact .inr (ht.noneFor hop.not_isFor hnone).2
    · exact h.here e₁ hw₁
  elsewhere i e₁ hi hw₁ := by
    rcases endpoint_put_cases hw₁ with ⟨rfl, rfl⟩ | ⟨-, hw₁⟩
    · exact (ht.noneFor hop.not_isFor (h.elsewhere _ e hi hw)).2
    · exact h.elsewhere i e₁ hi hw₁

theorem Minds.at_endpoint (h : w.Minds r k id request) (hw : w.endpoints[r'.index]? = some e) :
    Awaited k id request e.inFlight ∨ NoneFor k e.inFlight := by
  by_cases hr : r'.index = r.index
  · rw [hr] at hw
    exact h.here e hw
  · exact .inr (h.elsewhere _ e hr hw)

/-- A step of any endpoint, when the tasks have been told what it delivers. -/
theorem leads_put (hw : w.endpoints[r'.index]? = some e) (hstep : e.step op = .ok ((reply, ds), e'))
    (hop : op.Spares) {waiters : Array (Waiter ρ)}
    (htold : ∀ waiter, w.waiters[k.index]? = some waiter →
      waiters[k.index]? = some (waiter.told (handedTo k ds))) :
    (minding r k id request).Leads w { w.put r' e' with waiters := waiters } := by
  intro h
  have ht := Endpoint.transition_of_step hstep
  obtain ⟨hhere, helsewhere⟩ := h.put hw ht hop
  refine ⟨⟨hhere, helsewhere⟩, ?_⟩
  by_cases hr : r.index = r'.index
  · refine ⟨[⟨op, ds⟩], fun e₁ hw₁ => ⟨e', ?_, ?_⟩, fun waiter hk => ?_⟩
    · simp [hr, hw]
    · rw [hr, hw] at hw₁
      cases hw₁
      exact .cons hop hstep (.nil e')
    · rw [htold waiter hk, Endpoint.told_cons]
      simp [Function.comp_def, told]
  · have hnothing := (ht.noneFor hop.not_isFor (h.elsewhere _ e (Ne.symm hr) hw)).1
    refine ⟨[], fun e₁ hw₁ => ⟨e₁, ?_, .nil e₁⟩, fun waiter hk => ?_⟩
    · simpa [hr] using hw₁
    · rw [htold waiter hk, hnothing]
      rfl

end World

namespace Host

open World (minding)

variable {env : Env σ ρ} {r : EndpointRef} {k : WaiterId} {id : RequestId} {request : Request ρ}
  {ds : List (Delivery ρ)}

theorem getElem?_woken {d : Delivery ρ} {waiters : Array (Waiter ρ)} {waiter : Waiter ρ}
    (h : waiters[k.index]? = some waiter) :
    (woken waiters d)[k.index]? = some (waiter.told (handedTo k [d])) := by
  obtain ⟨notify, request⟩ := d
  cases notify with
  | routine => exact h
  | waiter k' =>
    by_cases heq : k' = k
    · subst heq
      rw [Endpoint.handedTo_cons_self]
      simp [woken, Array.getElem?_modify, h, Waiter.told]
    · have hnotify : (Delivery.mk (.waiter k') request).notify ≠ .waiter k := by
        rintro ⟨⟩
        exact heq rfl
      have hindex : k'.index ≠ k.index := fun hindex => heq (WaiterId.ext hindex)
      rw [Endpoint.handedTo_cons_of_ne hnotify]
      simp [woken, Array.getElem?_modify, hindex, h, Waiter.told]

/-- A task finds the requests that were for it, in their order. -/
theorem getElem?_foldl_woken (ds : List (Delivery ρ)) {waiters : Array (Waiter ρ)}
    {waiter : Waiter ρ} (h : waiters[k.index]? = some waiter) :
    (ds.foldl woken waiters)[k.index]? = some (waiter.told (handedTo k ds)) := by
  induction ds generalizing waiters waiter with
  | nil => exact h
  | cons d ds ih =>
    rw [← List.singleton_append, Endpoint.handedTo_append, Waiter.told_append]
    exact ih (getElem?_woken h)

theorem minding_wake {k' : WaiterId} (h : k' ≠ k) (request' : Request ρ) :
    (wake k' request' : HostM σ ρ Unit).Obeys (minding r k id request) := by
  refine .modify fun w => World.leads_aside rfl ?_
  have hindex : k'.index ≠ k.index := fun hindex => h (WaiterId.ext hindex)
  simp [Array.getElem?_modify, hindex]

/-- What a step delivers comes to the task, or to others without the task noticing. -/
theorem minding_step (hcomplete : ∀ routine request', (env.complete routine request').Obeys
      (minding r k id request))
    {w : World σ ρ} {r' : EndpointRef} {e e' : Endpoint ρ} {op : Op ρ}
    {reply : Reply} (hw : w.endpoints[r'.index]? = some e)
    (hstep : e.step op = .ok ((reply, ds), e')) (hop : op.Spares) :
    HostM.Ends (handOn env e.owner ds) (w.put r' e') ((minding r k id request).Leads w)
      fun _ => (minding r k id request).Leads w := by
  refine World.ends_of_minds fun hminds => ?_
  rcases (Endpoint.transition_of_step hstep).parted hop (hminds.at_endpoint hw) with
    hothers | hwaiters
  · have hnothing := Endpoint.handedTo_of_ne hothers
    have hleads : (minding r k id request).Leads w (w.put r' e') := by
      refine World.leads_put hw hstep hop fun waiter hk => ?_
      rw [hnothing]
      exact hk
    refine (HostM.Obeys.handOn hcomplete (fun _ _ => World.minding_aside rfl rfl) e.owner
      fun d hd k' hnotify => minding_wake (fun heq => hothers d hd ?_) _).continued hleads
    rw [hnotify, heq]
  · refine HostM.ends_of_ok (handOn_of_waiters env e.owner hwaiters (w.put r' e')) ?_
    exact World.leads_put hw hstep hop fun _ hk => getElem?_foldl_woken ds hk

end Host

/-- Whatever a bystander does, a task that waits notices only what happens to its request. -/
theorem World.tolerates_minding (r : EndpointRef) (k : WaiterId) (id : RequestId)
    (request : Request ρ) : (minding (σ := σ) r k id request).Tolerates where
  aside := minding_aside
  step hcomplete hop _ _ _ _ _ hw hstep := Host.minding_step hcomplete hw hstep hop

end UsbHost
