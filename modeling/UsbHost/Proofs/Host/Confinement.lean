import UsbHost.Proofs.Endpoint.Closing
import UsbHost.Proofs.Host.Journal
import UsbHost.Proofs.Host.Tables
import UsbHost.Proofs.Queue.Completion

/-!
Completion routines that belong to certain endpoints. As long as such a routine has not been run, it
is in flight on one of these endpoints, or its request is parked for the device of one. Endpoints
that are closed do not take new requests. So if all of them are closed, and nothing is parked for
their devices, none of these routines runs any more.
-/

namespace UsbHost

variable {σ ρ α : Type} {m : AddressMap σ}

namespace World

variable (tagged : ρ → Prop) (homes active : EndpointRef → Prop)

/-- Tagged routines are with active endpoints: in flight there, or parked for the device of one. The
other endpoints that take requests with tagged routines are closed. -/
structure Confines (w : World σ ρ) : Prop where
  inFlight : ∀ (r : EndpointRef) e, w.endpoints[r.index]? = some e → ∀ routine ∈ e.routines,
    tagged routine → active r
  wellFormed : ∀ queue, w.completions = some queue → queue.WellFormed
  parked : ∀ queue, w.completions = some queue → ∀ entry ∈ queue.toList,
    ∀ routine ∈ entry.item.routine, tagged routine → ∃ (r : EndpointRef) (e : Endpoint ρ),
      active r ∧ w.endpoints[r.index]? = some e ∧ e.owner.device = entry.owner
  closed : ∀ r, homes r → active r ∨
    ∃ e, w.endpoints[r.index]? = some e ∧ e.Closed

/-- Tagged routines stay with active endpoints, and have been run only if there are any. -/
structure StaysConfined (j : RoutineJournal m ρ) (w w' : World σ ρ) : Prop where
  confines : w'.Confines tagged homes active
  owner : ∀ (r : EndpointRef) e, w.endpoints[r.index]? = some e →
    ∃ e', w'.endpoints[r.index]? = some e' ∧ e'.owner = e.owner
  ran : ∃ l, j.ran w'.bus.platform = j.ran w.bus.platform ++ l ∧
    ∀ routine ∈ l, tagged routine → ∃ r, active r

variable {tagged homes active} {j : RoutineJournal m ρ} {w w' w'' : World σ ρ}

theorem StaysConfined.trans (h : w.StaysConfined tagged homes active j w')
    (h' : w'.StaysConfined tagged homes active j w'') :
    w.StaysConfined tagged homes active j w'' where
  confines := h'.confines
  owner r e he := by
    obtain ⟨e₁, he₁, howner₁⟩ := h.owner r e he
    obtain ⟨e₂, he₂, howner₂⟩ := h'.owner r e₁ he₁
    exact ⟨e₂, he₂, howner₂.trans howner₁⟩
  ran := by
    obtain ⟨l, hran, hl⟩ := h.ran
    obtain ⟨l', hran', hl'⟩ := h'.ran
    refine ⟨l ++ l', by rw [hran', hran, List.append_assoc], fun routine hroutine => ?_⟩
    exact (List.mem_append.1 hroutine).elim (hl routine) (hl' routine)

/-- Endpoints go on, nothing is parked, and no routine runs. -/
theorem Confines.stays (h : w.Confines tagged homes active)
    (hold : ∀ (r : EndpointRef) e, w.endpoints[r.index]? = some e →
      ∃ e', w'.endpoints[r.index]? = some e' ∧ e.Follows e')
    (hinFlight : ∀ (r : EndpointRef) e', w'.endpoints[r.index]? = some e' →
      ∀ routine ∈ e'.routines, tagged routine → active r)
    (hparked : ∀ queue', w'.completions = some queue' → queue'.WellFormed ∧
      ∀ entry ∈ queue'.toList, ∃ queue, w.completions = some queue ∧ entry ∈ queue.toList)
    (hran : j.ran w'.bus.platform = j.ran w.bus.platform) :
    w.StaysConfined tagged homes active j w' := by
  refine ⟨⟨hinFlight, fun queue' hqueue' => (hparked queue' hqueue').1, ?_, ?_⟩, ?_, [], ?_, nofun⟩
  · intro queue' hqueue' entry hentry routine hroutine htagged
    obtain ⟨queue, hqueue, hbefore⟩ := (hparked queue' hqueue').2 entry hentry
    obtain ⟨r, e, hactive, he, howner⟩ :=
      h.parked queue hqueue entry hbefore routine hroutine htagged
    obtain ⟨e', he', hfollows⟩ := hold r e he
    exact ⟨r, e', hactive, he', by rw [hfollows.owner_eq, howner]⟩
  · intro r hr
    refine (h.closed r hr).imp_right ?_
    rintro ⟨e, he, hclosed⟩
    obtain ⟨e', he', hfollows⟩ := hold r e he
    exact ⟨e', he', hfollows.closed hclosed⟩
  · intro r e he
    obtain ⟨e', he', hfollows⟩ := hold r e he
    exact ⟨e', he', hfollows.owner_eq⟩
  · rw [hran, List.append_nil]

/-- The queue of parked requests is the same. -/
theorem Confines.parked_of_eq (h : w.Confines tagged homes active)
    (hcompletions : w'.completions = w.completions) :
    ∀ queue', w'.completions = some queue' → queue'.WellFormed ∧
      ∀ entry ∈ queue'.toList, ∃ queue, w.completions = some queue ∧ entry ∈ queue.toList := by
  intro queue' hqueue'
  rw [hcompletions] at hqueue'
  exact ⟨h.wellFormed queue' hqueue', fun entry hentry => ⟨queue', hqueue', hentry⟩⟩

/-- Neither endpoints nor parked requests are different. -/
theorem Confines.stays_of_eq (h : w.Confines tagged homes active)
    (hendpoints : w'.endpoints = w.endpoints) (hcompletions : w'.completions = w.completions)
    (hran : j.ran w'.bus.platform = j.ran w.bus.platform) :
    w.StaysConfined tagged homes active j w' := by
  refine h.stays (fun r e he => ⟨e, ?_, .refl e⟩) (fun r e he => ?_)
    (h.parked_of_eq hcompletions) hran
  · rwa [hendpoints]
  · rw [hendpoints] at he
    exact h.inFlight r e he

theorem Confines.stays_refl (h : w.Confines tagged homes active) :
    w.StaysConfined tagged homes active j w :=
  h.stays_of_eq rfl rfl rfl

/-- A new endpoint has come into being. -/
theorem Confines.stays_of_push (h : w.Confines tagged homes active) {e : Endpoint ρ}
    (hnew : e.routines = []) (hendpoints : w'.endpoints = w.endpoints.push e)
    (hcompletions : w'.completions = w.completions)
    (hran : j.ran w'.bus.platform = j.ran w.bus.platform) :
    w.StaysConfined tagged homes active j w' := by
  refine h.stays (fun r e₁ he₁ => ?_) (fun r e₁ he₁ => ?_) (h.parked_of_eq hcompletions) hran
  · rw [hendpoints]
    exact w.endpoints_addEndpoint e r e₁ he₁
  · rw [hendpoints, Array.getElem?_push] at he₁
    split at he₁
    · cases he₁
      rw [hnew]
      exact nofun
    · exact h.inFlight r e₁ he₁

/-- An endpoint has changed. -/
theorem Confines.stays_put (h : w.Confines tagged homes active) {r : EndpointRef}
    {e e' : Endpoint ρ} (he : w.endpoints[r.index]? = some e) (hfollows : e.Follows e')
    (hroutines : ∀ routine ∈ e'.routines, tagged routine → active r) :
    w.StaysConfined tagged homes active j (w.put r e') := by
  refine h.stays (endpoints_put he hfollows) (fun r' e₁ he₁ => ?_) (h.parked_of_eq rfl) rfl
  rcases endpoint_put_cases he₁ with ⟨heq, rfl⟩ | ⟨-, he₁⟩
  · rwa [EndpointRef.ext heq]
  · exact h.inFlight r' e₁ he₁

/-- An endpoint has taken a step. The request that it may have been given brings a tagged routine
along only if the endpoint is meant to have such ones. -/
theorem Confines.stays_step (h : w.Confines tagged homes active) {r : EndpointRef}
    {e e' : Endpoint ρ} {op : Endpoint.Op ρ} {reply : Endpoint.Reply} {ds : List (Delivery ρ)}
    (he : w.endpoints[r.index]? = some e) (hstep : e.step op = .ok ((reply, ds), e'))
    (hfits : ∀ routine ∈ op.routines, tagged routine → homes r) :
    w.StaysConfined tagged homes active j (w.put r e') := by
  have ht := Endpoint.transition_of_step hstep
  refine h.stays_put he (Endpoint.follows_of_step hstep) fun routine hroutine htagged => ?_
  rcases List.mem_append.1 (ht.routines.1 hroutine) with hbefore | hnew
  · exact h.inFlight r e he routine hbefore htagged
  · -- The endpoint is active then, or it has been closed and refuses the request.
    refine (h.closed r (hfits routine hnew htagged)).resolve_right ?_
    rintro ⟨e₁, he₁, hclosed⟩
    rw [Option.some.inj (he₁.symm.trans he)] at hclosed
    rw [Endpoint.routines, (hclosed.of_transition ht).1.inFlight_eq] at hroutine
    cases hroutine

/-- A finished request has been parked for the device of an active endpoint. -/
theorem Confines.stays_park (h : w.Confines tagged homes active)
    {queue queue' : CompletionQueue (Request ρ)} {owner : DeviceId} {request : Request ρ}
    (hqueue : w.completions = some queue) (henqueue : queue.enqueue request owner = .ok queue')
    (hactive : ∀ routine ∈ request.routine, tagged routine →
      ∃ (r : EndpointRef) (e : Endpoint ρ), active r ∧ w.endpoints[r.index]? = some e ∧
        e.owner.device = owner) :
    w.StaysConfined tagged homes active j { w with completions := some queue' } := by
  obtain ⟨hwellFormed, hlist⟩ := (h.wellFormed queue hqueue).enqueue henqueue
  refine ⟨⟨h.inFlight, ?wellFormed, ?parked, h.closed⟩, fun r e he => ⟨e, he, rfl⟩,
    [], (List.append_nil _).symm, nofun⟩
  case wellFormed =>
    rintro _ ⟨rfl⟩
    exact hwellFormed
  case parked =>
    rintro _ ⟨rfl⟩ entry hentry routine hroutine htagged
    rw [hlist, List.mem_append, List.mem_singleton] at hentry
    rcases hentry with hentry | rfl
    · exact h.parked queue hqueue entry hentry routine hroutine htagged
    · exact hactive routine hroutine htagged

end World

/-! ### Conduct -/

/-- Tagged routines stay with active endpoints. -/
def Conduct.confining (j : RoutineJournal m ρ) (tagged : ρ → Prop)
    (homes active : EndpointRef → Prop) : Conduct σ ρ where
  Leads w w' := w.Confines tagged homes active → w.StaysConfined tagged homes active j w'
  refl _ h := h.stays_refl
  trans h h' hw := (h hw).trans (h' (h hw).confines)

/-- Surroundings that note the routines and keep the tagged ones with active endpoints. -/
structure Env.Confines (j : RoutineJournal m ρ) (tagged : ρ → Prop)
    (homes active : EndpointRef → Prop) (env : Env σ ρ) : Prop where
  mute : env.toPlatform.Mute j.ran
  yieldNow : env.yieldNow.Obeys (.confining j tagged homes active)
  complete : ∃ body : ρ → Request ρ → HostM σ ρ Unit, (∀ routine request,
    env.complete routine request =
      (do HostM.onPlatform (j.note routine); body routine request)) ∧
    ∀ routine request, (body routine request).Obeys (.confining j tagged homes active)
  portChanged : ∀ port, (env.portChanged port).Obeys (.confining j tagged homes active)

/-- What is known at the end if something holds at the start. -/
theorem HostM.ends_of_imp {P : Prop} {p : HostM σ ρ α} {w : World σ ρ}
    {failed : World σ ρ → Prop} {done : α → World σ ρ → Prop} (h : P → Ends p w failed done) :
    Ends p w (fun w' => P → failed w') fun a w' => P → done a w' := by
  by_cases hP : P
  · exact (h hP).mono (fun _ h _ => h) fun _ _ h _ => h
  · exact (ends_trivial p w).mono (fun _ _ h => absurd h hP) fun _ _ _ h => absurd h hP

namespace Host

variable {j : RoutineJournal m ρ} {tagged : ρ → Prop} {homes active : EndpointRef → Prop}
  {env : Env σ ρ} {w w₁ : World σ ρ}

section

variable (henv : env.Confines j tagged homes active)
include henv

theorem callRoutine_confined (hw : w.StaysConfined tagged homes active j w₁) (request : Request ρ)
    (hactive : ∀ routine ∈ request.routine, tagged routine → ∃ r, active r) :
    HostM.Ends (callRoutine env request) w₁ (w.StaysConfined tagged homes active j)
      fun _ => w.StaysConfined tagged homes active j := by
  cases hroutine : request.routine with
  | none =>
    simp only [callRoutine, hroutine]
    exact hw
  | some routine =>
    obtain ⟨body, hcomplete, hbody⟩ := henv.complete
    simp only [callRoutine, hroutine, hcomplete]
    let w₂ : World σ ρ := { w₁ with bus.platform := j.note routine w₁.bus.platform }
    have hnote : (HostM.onPlatform (j.note routine) : HostM σ ρ Unit) w₁ = .ok () w₂ := rfl
    have hw₂ : w₁.StaysConfined tagged homes active j w₂ := by
      have hconfines := hw.confines
      refine ⟨⟨hconfines.inFlight, hconfines.wellFormed, hconfines.parked, hconfines.closed⟩,
        fun r e he => ⟨e, he, rfl⟩, [routine], j.ran_note routine _, fun x hx => ?_⟩
      rw [List.mem_singleton.1 hx]
      exact hactive routine hroutine
    refine HostM.ends_bind_of_ok hnote ((hbody routine _ w₂).mono (fun w' h => ?_)
      fun _ w' h => ?_)
    · exact (hw.trans hw₂).trans (h hw₂.confines)
    · exact (hw.trans hw₂).trans (h hw₂.confines)

theorem finishAsync_confined (hw : w.StaysConfined tagged homes active j w₁) {owner : Owner}
    {request : Request ρ} (hactive : ∀ routine ∈ request.routine, tagged routine →
      ∃ (r : EndpointRef) (e : Endpoint ρ), active r ∧ w₁.endpoints[r.index]? = some e ∧
        e.owner.device = owner.device) :
    HostM.Ends (finishAsync env owner request) w₁ (w.StaysConfined tagged homes active j)
      fun _ => w.StaysConfined tagged homes active j := by
  have hrun := callRoutine_confined henv hw request fun routine hroutine htagged =>
    let ⟨r, _, hr, _⟩ := hactive routine hroutine htagged
    ⟨r, hr⟩
  have hget : (get : HostM σ ρ (World σ ρ)) w₁ = .ok w₁ w₁ := rfl
  refine HostM.ends_bind_of_ok hget ?_
  cases howner : owner.sink with
  | immediate => exact hrun
  | deferred =>
    cases hqueue : w₁.completions with
    | none => exact hrun
    | some queue =>
      dsimp only
      cases henqueue : queue.enqueue request owner.device with
      | error request' =>
        rw [CompletionQueue.eq_of_enqueue_error henqueue]
        exact hrun
      | ok queue' => exact hw.trans (hw.confines.stays_park hqueue henqueue hactive)

/-- What an active endpoint hands on is parked for its device, or its routine is run. -/
theorem handOn_confined (hw : w.StaysConfined tagged homes active j w₁) {r : EndpointRef}
    {e : Endpoint ρ} (he : w₁.endpoints[r.index]? = some e) (ds : List (Delivery ρ))
    (hactive : ∀ routine ∈ ds.filterMap Delivery.routine?, tagged routine → active r) :
    HostM.Ends (handOn env e.owner ds) w₁ (w.StaysConfined tagged homes active j)
      fun _ => w.StaysConfined tagged homes active j := by
  induction ds generalizing w₁ e with
  | nil => exact hw
  | cons delivery ds ih =>
    have hfirst : HostM.Ends (deliver env e.owner delivery) w₁
        (w₁.StaysConfined tagged homes active j)
        fun _ => w₁.StaysConfined tagged homes active j := by
      unfold deliver
      split
      · exact hw.confines.stays_of_eq rfl rfl rfl
      · rename_i hnotify
        refine finishAsync_confined henv hw.confines.stays_refl fun routine hroutine htagged =>
          ⟨r, e, hactive routine (List.mem_filterMap.2 ⟨delivery, List.mem_cons_self, ?_⟩) htagged,
            he, rfl⟩
        rw [Delivery.routine?, hnotify]
        exact hroutine
    have hlater : ∀ w', w₁.StaysConfined tagged homes active j w' →
        HostM.Ends (handOn env e.owner ds) w' (w.StaysConfined tagged homes active j)
          fun _ => w.StaysConfined tagged homes active j := by
      intro w' hw'
      obtain ⟨e', he', howner⟩ := hw'.owner r e he
      rw [← howner]
      refine ih (hw.trans hw') he' fun routine hroutine => hactive routine ?_
      obtain ⟨d, hd, hdroutine⟩ := List.mem_filterMap.1 hroutine
      exact List.mem_filterMap.2 ⟨d, List.mem_cons_of_mem _ hd, hdroutine⟩
    exact (hfirst.mono (fun _ => hw.trans) fun _ _ h => h).bind fun _ w' hw' => hlater w' hw'

theorem confining_admits : (Conduct.confining j tagged homes active).Admits j.ran
    (fun r routine => tagged routine → homes r) env where
  mute := henv.mute
  yieldNow := henv.yieldNow
  portChanged := henv.portChanged
  elsewhere h hw := hw.stays_of_eq h.endpoints_eq h.completions_eq h.ran_eq
  step {w r e e' op reply ds} he hstep hfits _ := by
    refine ⟨fun hw => hw.stays_step he hstep hfits, HostM.ends_of_imp fun hw => ?_⟩
    have hnow : (w.put r e').endpoints[r.index]? = some e' := by simp [he]
    rw [← (Endpoint.follows_of_step hstep).owner_eq]
    exact handOn_confined henv (hw.stays_step he hstep hfits) hnow ds fun routine hroutine =>
      hw.inFlight r e he routine ((Endpoint.transition_of_step hstep).routines.2 hroutine)
  packetSize {w r e} size he hw :=
    hw.stays_put he (Endpoint.follows_packetSize e size) (hw.inFlight r e he)
  newEndpoint w owner traits config ring hw := hw.stays_of_push rfl rfl rfl rfl
  register {w w₁ d device device₁ device' traits config ring e} _ h _ _ _ hw := by
    have hmade : w.StaysConfined tagged homes active j
        (w.addEndpoint (.create device.owner traits config ring)) :=
      hw.stays_of_push rfl rfl rfl rfl
    have hlater := h hmade.confines
    exact (hmade.trans hlater).trans (hlater.confines.stays_of_eq rfl rfl rfl)
  newDevice h hw := by
    obtain ⟨traits, config, ring, rfl⟩ := h.created
    exact hw.stays_of_push rfl h.endpoints_eq h.completions_eq h.ran_eq
  settle {w w' device e context slots} h _ hw := by
    obtain ⟨traits, config, ring, rfl⟩ := h.created
    have hmade : w.StaysConfined tagged homes active j w' :=
      hw.stays_of_push rfl h.endpoints_eq h.completions_eq h.ran_eq
    exact hmade.trans (hmade.confines.stays_of_eq rfl rfl rfl)
  free _ hw := hw.stays_of_eq rfl rfl rfl
  release _ _ _ hw := hw.stays_of_eq rfl rfl rfl
  flush w device hw := by
    refine hw.stays (fun r e he => ⟨e, he, .refl e⟩) hw.inFlight (fun queue' hqueue' => ?_) rfl
    obtain ⟨queue, hqueue, rfl⟩ := Option.map_eq_some_iff.1 hqueue'
    obtain ⟨hwellFormed, hlist⟩ := (hw.wellFormed queue hqueue).flushOwner device
    refine ⟨hwellFormed, fun entry hentry => ⟨queue, hqueue, ?_⟩⟩
    rw [hlist] at hentry
    exact (List.mem_filter.1 hentry).1
  dequeue {w queue queue' request} hqueue hdequeue := HostM.ends_of_imp fun hw => by
    obtain ⟨hwellFormed, owner, hlist⟩ := (hw.wellFormed queue hqueue).dequeue hdequeue
    have htake : w.StaysConfined tagged homes active j { w with completions := some queue' } := by
      refine hw.stays (fun r e he => ⟨e, he, .refl e⟩) hw.inFlight ?_ rfl
      rintro _ ⟨rfl⟩
      refine ⟨hwellFormed, fun entry hentry => ⟨queue, hqueue, ?_⟩⟩
      rw [hlist]
      exact List.mem_cons_of_mem _ hentry
    refine callRoutine_confined henv htake request fun routine hroutine htagged => ?_
    obtain ⟨r, -, hr, -⟩ := hw.parked queue hqueue ⟨request, owner⟩
      (by rw [hlist]; exact List.mem_cons_self) routine hroutine htagged
    exact ⟨r, hr⟩

end

end Host

variable {j : RoutineJournal m ρ} {tagged : ρ → Prop} {homes active : EndpointRef → Prop}

/-- A program that submits tagged routines only to the endpoints that are meant to have them keeps
them with active endpoints. -/
theorem NotedProgram.confined {p : HostM σ ρ α}
    (h : NotedProgram j (fun r routine => tagged routine → homes r) p) :
    p.Obeys (.confining j tagged homes active) := by
  refine h.holds (HostM.Obeys.compositional _) ?platform ?events ?context ?call
  case platform => exact fun f _ hran w hw => hw.stays_of_eq rfl rfl (hran w.bus.platform)
  case events => exact fun f w hw => hw.stays_of_eq rfl rfl rfl
  case context => exact fun d f w hw => hw.stays_of_eq rfl rfl rfl
  case call =>
    intro α env c body _ hmute hyield hcomplete hbody hport hfits
    exact c.obeys (Host.confining_admits ⟨hmute, hyield, ⟨body, hcomplete, hbody⟩, hport⟩) hfits

/-- Nothing is parked in a new host. -/
theorem World.parked_of_create {env : Env σ ρ} {config : Config} {b b' : Bus σ} {w : World σ ρ}
    (h : (Host.create env config).run b = .ok (.ok w) b') (queue : CompletionQueue (Request ρ))
    (hqueue : w.completions = some queue) : queue.WellFormed ∧ queue.toList = [] := by
  unfold Host.create at h
  obtain ⟨_, _, -, h⟩ := HostAttempt.bind_eq_ok h
  dsimp only at h
  split at h
  · obtain ⟨_, _, hnone, h⟩ := HostAttempt.bind_eq_ok h
    cases hnone
    cases h
    cases hqueue
  · obtain ⟨_, b₁, hsome, h⟩ := HostAttempt.bind_eq_ok h
    cases h
    cases hnew : (CompletionQueue.withCapacity config.completionQueueDepth :
        Except Error (CompletionQueue (Request ρ))) with
    | error error =>
      rw [hnew] at hsome
      cases hsome
    | ok queue' =>
      rw [hnew] at hsome
      cases hsome
      cases hqueue
      exact CompletionQueue.withCapacity_ok hnew

/-- Tagged routines are with the endpoints that they have been submitted to. -/
theorem World.NotedReachable.confines {w : World σ ρ}
    (h : w.NotedReachable j fun r routine => tagged routine → homes r) :
    w.Confines tagged homes homes := by
  induction h with
  | create henv config h =>
    have hendpoints := (World.unused_of_create henv h).endpoints_eq
    refine ⟨fun r e he => ?_, fun queue hqueue => (World.parked_of_create h queue hqueue).1,
      fun queue hqueue entry hentry => ?_, fun r hr => .inl hr⟩
    · rw [hendpoints] at he
      simp at he
    · rw [(World.parked_of_create h queue hqueue).2] at hentry
      cases hentry
  | run _ hp ih => exact (hp.confined.after _ ih).confines

end UsbHost
