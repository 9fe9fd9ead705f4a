import UsbHost.Proofs.Host.Bystanders
import UsbHost.Proofs.Host.Tables

/-!
Tasks that exist. A record names the task that waits for its request by its place in the table of
tasks, and no place of this table is given to two tasks. As long as requests in flight are waited
for by tasks that exist, a task that begins to wait is not mistaken for another one. Submissions,
events, timeouts and waiting tasks keep it so, and so does whatever else a host can do: it holds of
every reachable world.
-/

namespace UsbHost

open Endpoint (Op Reply NoneFor Transition)

variable {σ ρ : Type}

/-- Requests in flight are waited for by tasks that exist. -/
def World.Seated (w : World σ ρ) : Prop :=
  ∀ k : WaiterId, w.waiters.size ≤ k.index → ∀ (i : Nat) (e : Endpoint ρ),
    w.endpoints[i]? = some e → NoneFor k e.inFlight

namespace World

variable {w w' : World σ ρ} {r : EndpointRef} {e e' : Endpoint ρ} {op : Op ρ} {reply : Reply}
  {ds : List (Delivery ρ)}

theorem Unused.seated (h : w.Unused) : w.Seated := by
  intro k _ i e hw
  simp [h.endpoints_eq] at hw

theorem Seated.of_eq (h : w.Seated) (hendpoints : w'.endpoints = w.endpoints)
    (hsize : w.waiters.size ≤ w'.waiters.size) : w'.Seated := by
  intro k hk i e hw
  rw [hendpoints] at hw
  exact h k (Nat.le_trans hsize hk) i e hw

theorem Seated.put (h : w.Seated) (hw : w.endpoints[r.index]? = some e)
    (ht : Transition e op reply ds e') (hop : ∀ k, op.IsFor k → k.index < w.waiters.size) :
    (w.put r e').Seated := by
  intro k hk i e₁ hw₁
  rcases endpoint_put_cases hw₁ with ⟨rfl, rfl⟩ | ⟨-, hw₁⟩
  · refine (ht.noneFor (fun hfor => ?_) (h k hk _ e hw)).2
    exact Nat.not_lt.2 hk (hop k hfor)
  · exact h k hk i e₁ hw₁

theorem seated_aside (hendpoints : w'.endpoints = w.endpoints) (hwaiters : w'.waiters = w.waiters) :
    (Conduct.keeping World.Seated).Leads w w' :=
  fun h => h.of_eq hendpoints (Nat.le_of_eq (congrArg Array.size hwaiters).symm)

theorem seated_handOn {env : Env σ ρ}
    (hcomplete : ∀ routine request, (env.complete routine request).Obeys (.keeping World.Seated))
    (owner : Owner) (ds : List (Delivery ρ)) :
    (Host.handOn env owner ds).Obeys (.keeping World.Seated) :=
  .handOn hcomplete (fun _ _ => seated_aside rfl rfl) owner fun _ _ _ _ =>
    .modify fun _ h => h.of_eq rfl (by simp)

theorem tolerates_seated : (Conduct.keeping World.Seated : Conduct σ ρ).Tolerates where
  aside := seated_aside
  step hcomplete hop w e e' _ _ hw hstep := by
    have hput : (Conduct.keeping World.Seated).Leads w (w.put _ e') := fun h =>
      h.put hw (Endpoint.transition_of_step hstep) fun _ hfor => (hop.not_isFor hfor).elim
    exact (seated_handOn hcomplete e.owner _).continued hput

end World

namespace Host

variable {env : Env σ ρ}

theorem seated_entrust {w : World σ ρ} (r : EndpointRef) (request : Request ρ) {k : WaiterId}
    (deadline : Option UInt64) (hk : k.index < w.waiters.size) :
    HostM.Ends (entrust env r request (.waiter k) deadline) w
      ((Conduct.keeping World.Seated).Leads w) fun _ => (Conduct.keeping World.Seated).Leads w := by
  refine entrust_ends (submit_ends (fun _ _ w => World.seated_aside rfl rfl)
    (World.seated_aside (located_endpoints env request w) (located_waiters env request w)) ?_)
  refine fun e e' result hw hstep h => h.put hw (Endpoint.transition_of_step hstep) ?_
  rintro k' ⟨_, _, _, hop⟩
  cases hop
  rwa [located_waiters]

/-- A task takes its seat before its request is in flight. -/
theorem seated_transfer (hyield : env.yieldNow.Obeys (.keeping World.Seated)) (r : EndpointRef)
    (request : Request ρ) (timeout : UInt64) :
    (transfer env r request timeout).Obeys (.keeping World.Seated) := by
  intro w
  have hpushed : (Conduct.keeping World.Seated).Leads w
      { w with waiters := w.waiters.push {} } := fun h => h.of_eq rfl (by simp)
  have hseat : ∀ (w : World σ ρ) k waiter,
      (Conduct.keeping World.Seated).Leads w (w.seat k waiter) :=
    fun w k waiter h => h.of_eq rfl (by simp [World.seat])
  refine transfer_ends ?_ fun id timeout => .awaitRequest (fun w => hseat w _) hyield ?_ timeout
  · refine (seated_entrust r _ none ?_).mono (fun _ h => h ∘ hpushed) fun _ _ h => h ∘ hpushed
    simp
  · refine fun w e e' reply ds hw hstep h => h.put hw (Endpoint.transition_of_step hstep) ?_
    rintro k ⟨_, _, _, hop⟩
    cases hop

/-! ### Whatever else happens -/

/-- A new endpoint has no requests in flight. -/
theorem seated_push {w w' : World σ ρ} {owner : Owner} {traits : EndpointTraits} {config : Config}
    {ring : ProducerRing}
    (hendpoints : w'.endpoints = w.endpoints.push (.create owner traits config ring))
    (hsize : w.waiters.size ≤ w'.waiters.size) : (Conduct.keeping World.Seated).Leads w w' := by
  intro h k hk i e hw
  rw [hendpoints, Array.getElem?_push] at hw
  split at hw
  · cases hw
    exact fun record hrecord => (List.not_mem_nil hrecord).elim
  · exact h k (Nat.le_trans hsize hk) i e hw

theorem seated_admits (henv : env.Obeys (.keeping World.Seated)) :
    (Conduct.keeping World.Seated).Admits noneRun (fun _ _ => True) env where
  mute := env.mute_noneRun
  yieldNow := henv.yieldNow
  portChanged := henv.portChanged
  elsewhere h hseated := hseated.of_eq h.endpoints_eq h.waiters_le
  step {w r e e' op reply ds} hw hstep _ hseat := by
    have hput : (Conduct.keeping World.Seated).Leads w (w.put r e') := fun h =>
      h.put hw (Endpoint.transition_of_step hstep) hseat
    exact ⟨hput, (World.seated_handOn henv.complete e.owner ds).continued hput⟩
  packetSize {w r e} size hw h k hk i e₁ hw₁ := by
    rcases World.endpoint_put_cases hw₁ with ⟨rfl, rfl⟩ | ⟨-, hw₁⟩
    · exact h k hk _ e hw
    · exact h k hk i e₁ hw₁
  newEndpoint w owner traits config ring := seated_push rfl (Nat.le_refl _)
  register _ hleads _ _ _ h := hleads (seated_push rfl (Nat.le_refl _) h)
  newDevice h := by
    obtain ⟨traits, config, ring, rfl⟩ := h.created
    exact seated_push h.endpoints_eq h.waiters_le
  settle h _ := by
    obtain ⟨traits, config, ring, rfl⟩ := h.created
    exact seated_push h.endpoints_eq h.waiters_le
  free _ := World.seated_aside rfl rfl
  release _ _ _ := World.seated_aside rfl rfl
  flush _ _ := World.seated_aside rfl rfl
  dequeue _ _ := (HostM.Obeys.callRoutine henv.complete _).continued (World.seated_aside rfl rfl)

theorem seated_admitsPrograms {m : AddressMap σ} {managing : Bool} :
    (Conduct.keeping World.Seated : Conduct σ ρ).AdmitsPrograms m managing where
  platform _ _ _ := World.seated_aside rfl rfl
  events _ _ := World.seated_aside rfl rfl
  context _ _ _ := World.seated_aside rfl rfl
  call _ henv call _ := call.obeys (seated_admits henv) (call.fits_of_forall fun _ _ => trivial)

end Host

/-- Whatever programs have run, requests in flight are waited for by tasks that exist. -/
theorem World.Reachable.seated {m : AddressMap σ} {w : World σ ρ} (h : w.Reachable m) :
    w.Seated := by
  induction h with
  | create henv config h => exact ((unused_of_create henv h).onBus _).seated
  | run _ hp ih => exact (hp.obeys Host.seated_admitsPrograms).after _ ih

end UsbHost
