import UsbHost.Proofs.Endpoint.Steps
import UsbHost.Proofs.Host.Endings
import UsbHost.Proofs.Queue.Completion

/-!
From endpoint steps to the host. An operation of the host takes the step on the endpoint first, and
then hands on what the step delivers: each delivery once, in order, and nothing else. Completion
routines and waiting tasks find the endpoint as the step has left it. A task that waits is told of
its request. A request with a completion routine is finished at once or parked, as its owner has it;
a queue that is full cannot take it, and then its routine runs at once as well.
-/

namespace UsbHost

variable {σ ρ : Type}

/-- The world with another state of one endpoint. -/
def World.put (w : World σ ρ) (e : EndpointRef) (endpoint : Endpoint ρ) : World σ ρ :=
  { w with endpoints := w.endpoints.setIfInBounds e.index endpoint }

namespace World

/-! ### Reading a world with another endpoint -/

section Reading

variable (w : World σ ρ) (r : EndpointRef) (e : Endpoint ρ)

@[simp] theorem devices_put : (w.put r e).devices = w.devices := rfl

@[simp] theorem waiters_put : (w.put r e).waiters = w.waiters := rfl

@[simp] theorem completions_put : (w.put r e).completions = w.completions := rfl

@[simp] theorem controller_put : (w.put r e).controller = w.controller := rfl

@[simp] theorem bus_put : (w.put r e).bus = w.bus := rfl

@[simp] theorem size_put : (w.put r e).endpoints.size = w.endpoints.size :=
  Array.size_setIfInBounds

@[simp] theorem endpoint_put :
    (w.put r e).endpoints[r.index]? = w.endpoints[r.index]?.map fun _ => e := by
  rw [put, Array.getElem?_setIfInBounds_self]
  split <;> simp [*]

variable {w r e}

@[simp] theorem endpoint_put_of_ne {i : Nat} (h : i ≠ r.index) :
    (w.put r e).endpoints[i]? = w.endpoints[i]? :=
  Array.getElem?_setIfInBounds_ne h.symm

/-- What is found in a table after an entry has been replaced is the new entry, or another one that
was there before. -/
theorem replaced_cases {α : Type} {table : Array α} {i j : Nat} {a b : α}
    (h : (table.setIfInBounds i a)[j]? = some b) :
    j = i ∧ b = a ∨ j ≠ i ∧ table[j]? = some b := by
  by_cases hj : j = i
  · subst hj
    obtain ⟨-, rfl⟩ : j < table.size ∧ a = b := by
      simpa [Array.getElem?_setIfInBounds_self] using h
    exact .inl ⟨rfl, rfl⟩
  · exact .inr ⟨hj, by rwa [Array.getElem?_setIfInBounds_ne (Ne.symm hj)] at h⟩

theorem endpoint_put_cases {i : Nat} {e' : Endpoint ρ}
    (h : (w.put r e).endpoints[i]? = some e') :
    i = r.index ∧ e' = e ∨ i ≠ r.index ∧ w.endpoints[i]? = some e' :=
  replaced_cases h

@[simp] theorem put_self (hw : w.endpoints[r.index]? = some e) : w.put r e = w := by
  have hsame : w.endpoints.setIfInBounds r.index e = w.endpoints := by
    obtain ⟨hlt, rfl⟩ := Array.getElem?_eq_some_iff.1 hw
    rw [Array.setIfInBounds_def, dif_pos hlt, Array.set_getElem_self]
  rw [put, hsame]

end Reading

end World

namespace Host

/-- Hand on what a step delivers. -/
def handOn (env : Env σ ρ) (owner : Owner) (ds : List (Delivery ρ)) : HostM σ ρ Unit :=
  ds.forM (deliver env owner)

/-! ### What becomes of a delivery -/

/-- The tasks, when the one that waits for the request, if any, has been woken. -/
def woken (waiters : Array (Waiter ρ)) (d : Delivery ρ) : Array (Waiter ρ) :=
  match d.notify with
  | .waiter k => waiters.modify k.index fun waiter =>
      { done := waiter.done.raise, request := some d.request }
  | .routine => waiters

section Deliveries

variable {env : Env σ ρ} {owner : Owner} {d : Delivery ρ} {w : World σ ρ}
  {q q' : CompletionQueue (Request ρ)}

theorem deliver_of_waiter (env : Env σ ρ) (owner : Owner) (h : d.notify ≠ .routine)
    (w : World σ ρ) :
    deliver env owner d w = .ok () { w with waiters := woken w.waiters d } := by
  cases hnotify : d.notify with
  | routine => exact absurd hnotify h
  | waiter k =>
    rw [deliver, woken, hnotify]
    rfl

/-- What becomes of a request with a completion routine depends on the sink of its owner, and on
the queue. -/
theorem deliver_of_routine (env : Env σ ρ) (owner : Owner) (h : d.notify = .routine)
    (w : World σ ρ) :
    deliver env owner d w =
      (match owner.sink, w.completions with
        | .deferred, some queue =>
          match queue.enqueue d.request owner.device with
          | .ok queue => modify fun w => { w with completions := some queue }
          | .error request => callRoutine env request
        | _, _ => callRoutine env d.request : HostM σ ρ Unit) w := by
  rw [deliver, h]
  rfl

/-- In immediate mode the completion routine runs at once. -/
theorem deliver_of_immediate (h : d.notify = .routine) (howner : owner.sink = .immediate)
    (w : World σ ρ) : deliver env owner d w = callRoutine env d.request w := by
  rw [deliver_of_routine env owner h, howner]

/-- In deferred mode the request is parked, as long as there is room. -/
theorem deliver_of_room (h : d.notify = .routine) (howner : owner.sink = .deferred)
    (hq : w.completions = some q) (henqueue : q.enqueue d.request owner.device = .ok q') :
    deliver env owner d w = .ok () { w with completions := some q' } := by
  simp only [deliver_of_routine env owner h, howner, hq, henqueue]
  rfl

theorem callRoutine_of_some {request : Request ρ} {routine : ρ}
    (h : request.routine = some routine) :
    callRoutine env request = env.complete routine { request with routine := none } := by
  rw [callRoutine, h]

@[simp] theorem handOn_singleton (env : Env σ ρ) (owner : Owner) (d : Delivery ρ) :
    handOn env owner [d] = deliver env owner d := by
  simp [handOn]

theorem handOn_cons_of_ok {ds : List (Delivery ρ)} {w₁ : World σ ρ}
    (h : deliver env owner d w = .ok () w₁) :
    handOn env owner (d :: ds) w = handOn env owner ds w₁ :=
  HostM.bind_of_ok h

/-- Tasks that wait are told, one after another, and nothing else happens. -/
theorem handOn_of_waiters (env : Env σ ρ) (owner : Owner) {ds : List (Delivery ρ)}
    (h : ∀ d ∈ ds, d.notify ≠ .routine) (w : World σ ρ) :
    handOn env owner ds w = .ok () { w with waiters := ds.foldl woken w.waiters } := by
  induction ds generalizing w with
  | nil => rfl
  | cons d ds ih =>
    obtain ⟨hd, hds⟩ := List.forall_mem_cons.1 h
    rw [handOn_cons_of_ok (deliver_of_waiter env owner hd w), ih hds]
    rfl

/-- In immediate mode the completion routines run, in the order of the requests. -/
theorem handOn_of_immediate {ds : List (Delivery ρ)} (h : ∀ d ∈ ds, d.notify = .routine)
    (howner : owner.sink = .immediate) :
    handOn env owner ds = ds.forM fun d => callRoutine env d.request := by
  induction ds with
  | nil => rfl
  | cons d ds ih =>
    obtain ⟨hd, hds⟩ := List.forall_mem_cons.1 h
    have hfirst : deliver env owner d = callRoutine env d.request :=
      funext (deliver_of_immediate hd howner)
    change (do deliver env owner d; handOn env owner ds) = _
    rw [hfirst, ih hds]
    rfl

/-- In deferred mode the requests go behind those that are parked already, as long as there is room
for them, and no routine runs. -/
theorem handOn_of_room {capacity : Nat} {ds : List (Delivery ρ)}
    (h : ∀ d ∈ ds, d.notify = .routine) (howner : owner.sink = .deferred)
    (hq : w.completions = some q) (hbounded : q.Bounded capacity)
    (hroom : q.toList.length + ds.length ≤ capacity) :
    ∃ q', handOn env owner ds w = .ok () { w with completions := some q' } ∧
      q'.Bounded capacity ∧
      q'.toList = q.toList ++ ds.map fun d => ⟨d.request, owner.device⟩ := by
  induction ds generalizing w q with
  | nil =>
    refine ⟨q, ?_, hbounded, (List.append_nil _).symm⟩
    rw [← hq]
    rfl
  | cons d ds ih =>
    obtain ⟨hd, hds⟩ := List.forall_mem_cons.1 h
    rw [List.length_cons] at hroom
    rcases hbounded.enqueue_cases d.request owner.device with
      ⟨q₁, henqueue, hbounded₁, hlist⟩ | ⟨-, hfull⟩
    · obtain ⟨q', hrest, hbounded', hlist'⟩ := ih hds (w := { w with completions := some q₁ }) rfl
        hbounded₁ (by rw [hlist, List.length_append, List.length_singleton]; omega)
      refine ⟨q', ?_, hbounded', ?_⟩
      · rw [handOn_cons_of_ok (deliver_of_room hd howner hq henqueue), hrest]
      · rw [hlist', hlist, List.append_assoc]
        rfl
    · omega

end Deliveries

/-! ### Steps of an endpoint, carried out -/

/-- A request that has been accepted is made known to the controller. -/
def announce (env : Env σ ρ) (endpoint : Endpoint ρ) : Except Error RequestId → HostM σ ρ Unit
  | .ok _ => HostM.onPlatform (env.doorbell endpoint.owner.slot endpoint.id.toUInt32)
  | .error _ => pure ()

/-- In the world `w` the operation of the host behind the step `op` takes the endpoint `ref` from
`endpoint` to `endpoint'`, and hands on exactly the deliveries `ds`, as described above. -/
structure CarriesOut (env : Env σ ρ) (w : World σ ρ) (ref : EndpointRef) (endpoint : Endpoint ρ)
    (op : Endpoint.Op ρ) (reply : Endpoint.Reply) (ds : List (Delivery ρ))
    (endpoint' : Endpoint ρ) : Prop where
  submit_eq : ∀ request data notify deadline result w₁,
    op = .submit request data notify deadline → reply = .submitted result →
    dataAddress env request w = .ok data w₁ →
    submit env ref request notify deadline w =
      (do announce env endpoint result; return result : HostM σ ρ _) (w₁.put ref endpoint')
  transferEvent_eq : ∀ event, op = .event event →
    transferEvent env ref event w = handOn env endpoint.owner ds (w.put ref endpoint')
  cancel_eq : ∀ id found, op = .giveBack id .aborted → reply = .givenBack found →
    cancel env ref id w =
      (do handOn env endpoint.owner ds; return found : HostM σ ρ Bool) (w.put ref endpoint')
  pollEndpoint_eq : ∀ now count, op = .expire now → reply = .count count →
    pollEndpoint env now ref w =
      (do handOn env endpoint.owner ds; return count : HostM σ ρ Nat) (w.put ref endpoint')
  invalidate_eq : ∀ count, op = .invalidate → reply = .count count →
    invalidate env ref w =
      (do handOn env endpoint.owner ds; return count : HostM σ ρ Nat) (w.put ref endpoint')

variable {env : Env σ ρ} {w : World σ ρ} {ref : EndpointRef} {e e' : Endpoint ρ}

theorem endpoint_eq (hw : w.endpoints[ref.index]? = some e) :
    (HostM.endpoint ref : HostM σ ρ _) w = .ok e w := by
  have hget : (get : HostM σ ρ _) w = .ok w w := rfl
  simp only [HostM.endpoint, bind, EStateM.bind, hget, hw]
  rfl

theorem onEndpoint_eq {α : Type} (hw : w.endpoints[ref.index]? = some e)
    {step : Endpoint ρ → Except Fault (α × Endpoint ρ)} {a : α} (hstep : step e = .ok (a, e')) :
    (HostM.onEndpoint ref step : HostM σ ρ α) w = .ok a (w.put ref e') := by
  unfold HostM.onEndpoint
  simp only [bind, EStateM.bind, endpoint_eq hw, hstep, HostM.ofExcept]
  rfl

/-- The bus address of the data of a request, and the world in which it has been looked up. -/
def located (env : Env σ ρ) (request : Request ρ) (w : World σ ρ) : UInt64 × World σ ρ :=
  match request.buffer with
  | none => (0, w)
  | some buffer =>
    let (address, platform) := env.busAddress buffer.id w.bus.platform
    (address, { w with bus := { w.bus with platform := platform } })

theorem dataAddress_located (env : Env σ ρ) (request : Request ρ) (w : World σ ρ) :
    dataAddress env request w = .ok (located env request w).1 (located env request w).2 := by
  unfold dataAddress located
  cases request.buffer <;> rfl

/-- Looking up where the data is concerns the platform alone. -/
theorem located_platform (env : Env σ ρ) (request : Request ρ) (w : World σ ρ) :
    ∃ platform, (located env request w).2 = { w with bus.platform := platform } := by
  unfold located
  cases request.buffer with
  | none => exact ⟨w.bus.platform, rfl⟩
  | some buffer => exact ⟨(env.busAddress buffer.id w.bus.platform).2, rfl⟩

@[simp] theorem located_endpoints (env : Env σ ρ) (request : Request ρ) (w : World σ ρ) :
    (located env request w).2.endpoints = w.endpoints := by
  obtain ⟨platform, h⟩ := located_platform env request w
  rw [h]

@[simp] theorem located_waiters (env : Env σ ρ) (request : Request ρ) (w : World σ ρ) :
    (located env request w).2.waiters = w.waiters := by
  obtain ⟨platform, h⟩ := located_platform env request w
  rw [h]

theorem eq_located {request : Request ρ} {data : UInt64} {w₁ : World σ ρ}
    (h : dataAddress env request w = .ok data w₁) : (data, w₁) = located env request w := by
  rw [dataAddress_located] at h
  cases h
  rfl

theorem endpoints_of_dataAddress {request : Request ρ} {data : UInt64} {w₁ : World σ ρ}
    (h : dataAddress env request w = .ok data w₁) : w₁.endpoints = w.endpoints := by
  have hw₁ : w₁ = (located env request w).2 := congrArg Prod.snd (eq_located h)
  rw [hw₁, located_endpoints]

theorem waiters_of_dataAddress {request : Request ρ} {data : UInt64} {w₁ : World σ ρ}
    (h : dataAddress env request w = .ok data w₁) : w₁.waiters = w.waiters := by
  have hw₁ : w₁ = (located env request w).2 := congrArg Prod.snd (eq_located h)
  rw [hw₁, located_waiters]

/-- A deadline is a time that the clock can show. -/
theorem deadlineAfter_eq (env : Env σ ρ) (timeout : UInt64) (w : World σ ρ) :
    deadlineAfter env timeout w =
      if (env.now w.bus.platform).toNat + timeout.toNat < UInt64.size then
        .ok (env.now w.bus.platform + timeout) w
      else .error .overflow w := by
  have hnow : HostM.now env w = .ok (env.now w.bus.platform) w := rfl
  rw [deadlineAfter, HostM.bind_of_ok hnow]
  split <;> rfl

theorem submit_eq {request : Request ρ} {data : UInt64} {notify : Notify}
    {deadline : Option UInt64} {result : Except Error RequestId} {w₁ : World σ ρ}
    (hw : w.endpoints[ref.index]? = some e)
    (hdata : dataAddress env request w = .ok data w₁)
    (hstep : e.submitRequest request data notify deadline = .ok (result, e')) :
    submit env ref request notify deadline w =
      (do announce env e result; return result : HostM σ ρ _) (w₁.put ref e') := by
  have hw₁ : w₁.endpoints[ref.index]? = some e := by
    rw [endpoints_of_dataAddress hdata]
    exact hw
  obtain ⟨planned, hplan, hstep⟩ := Fault.bind_eq_ok.1 hstep
  unfold submit
  simp only [bind, EStateM.bind, endpoint_eq hw, hdata, hplan, HostM.ofExcept, pure, EStateM.pure]
  cases planned with
  | error error =>
    -- The endpoint is put back as it was.
    cases hstep
    rw [World.put_self hw₁]
    rfl
  | ok plan =>
    have hon : (HostM.onEndpoint ref
        (fun endpoint => endpoint.submit plan request notify deadline) : HostM σ ρ _) w₁ =
        .ok result (w₁.put ref e') := onEndpoint_eq hw₁ hstep
    simp only [EStateM.bind, hon]
    cases result with
    | error error => rfl
    | ok id => rfl

theorem transferEvent_eq {event : TransferEvent} {delivery : Option (Delivery ρ)}
    (hw : w.endpoints[ref.index]? = some e)
    (hstep : e.transferEvent event = .ok (delivery, e')) :
    transferEvent env ref event w = handOn env e.owner delivery.toList (w.put ref e') := by
  have hon : (HostM.onEndpoint ref (fun endpoint => endpoint.transferEvent event) :
      HostM σ ρ _) w = .ok delivery (w.put ref e') := onEndpoint_eq hw hstep
  unfold transferEvent
  simp only [bind, EStateM.bind, endpoint_eq hw, hon]
  cases delivery with
  | none => rfl
  | some delivery => simp

theorem cancel_eq (id : RequestId) (hw : w.endpoints[ref.index]? = some e) :
    cancel env ref id w =
      (do
        handOn env e.owner (e.giveBack id .aborted).1.toList
        return (e.giveBack id .aborted).1.isSome : HostM σ ρ Bool)
        (w.put ref (e.giveBack id .aborted).2) := by
  have hon : (HostM.onEndpoint ref (fun endpoint => .ok (endpoint.giveBack id .aborted)) :
      HostM σ ρ _) w = .ok (e.giveBack id .aborted).1 (w.put ref (e.giveBack id .aborted).2) :=
    onEndpoint_eq hw rfl
  unfold cancel
  simp only [bind, EStateM.bind, endpoint_eq hw, hon]
  cases (e.giveBack id .aborted).1 with
  | none => rfl
  | some delivery =>
    rw [Option.toList_some, handOn_singleton]
    rfl

theorem pollEndpoint_eq (now : UInt64) (hw : w.endpoints[ref.index]? = some e) :
    pollEndpoint env now ref w =
      (do
        handOn env e.owner (e.expire now).1
        return (e.expire now).1.length : HostM σ ρ Nat) (w.put ref (e.expire now).2) := by
  have hon : (HostM.onEndpoint ref (fun endpoint => .ok (endpoint.expire now)) :
      HostM σ ρ _) w = .ok (e.expire now).1 (w.put ref (e.expire now).2) := onEndpoint_eq hw rfl
  unfold pollEndpoint
  simp only [bind, EStateM.bind, endpoint_eq hw, hon]
  rfl

theorem invalidate_eq (hw : w.endpoints[ref.index]? = some e) :
    invalidate env ref w =
      (do
        handOn env e.owner e.invalidate.1.2
        return e.invalidate.1.1 : HostM σ ρ Nat) (w.put ref e.invalidate.2) := by
  have hon : (HostM.onEndpoint ref (fun endpoint => .ok endpoint.invalidate) :
      HostM σ ρ _) w = .ok e.invalidate.1 (w.put ref e.invalidate.2) := onEndpoint_eq hw rfl
  unfold invalidate
  simp only [bind, EStateM.bind, endpoint_eq hw, hon]
  rfl

/-- The host carries out every step that its endpoint can take. -/
theorem carriesOut (hw : w.endpoints[ref.index]? = some e) {op : Endpoint.Op ρ}
    {reply : Endpoint.Reply} {ds : List (Delivery ρ)}
    (hstep : e.step op = .ok ((reply, ds), e')) :
    CarriesOut env w ref e op reply ds e' where
  submit_eq request data notify deadline result w₁ hop hreply hdata := by
    subst hop hreply
    obtain ⟨⟨result', e₁⟩, hsubmit, h⟩ := Fault.bind_eq_ok.1 hstep
    cases h
    exact Host.submit_eq hw hdata hsubmit
  transferEvent_eq event hop := by
    subst hop
    obtain ⟨⟨delivery, e₁⟩, hevent, h⟩ := Fault.bind_eq_ok.1 hstep
    cases h
    exact Host.transferEvent_eq hw hevent
  cancel_eq id found hop hreply := by
    subst hop hreply
    cases hstep
    exact Host.cancel_eq id hw
  pollEndpoint_eq now count hop hreply := by
    subst hop hreply
    cases hstep
    exact Host.pollEndpoint_eq now hw
  invalidate_eq count hop hreply := by
    subst hop hreply
    cases hstep
    exact Host.invalidate_eq hw

end Host

end UsbHost
