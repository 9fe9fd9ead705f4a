import UsbHost.Proofs.Host.Confinement
import UsbHost.Proofs.Host.Coverage

/-!
Silence after a device has been detached. Its endpoints are closed and its parked requests are
dropped before the only command is issued, so from there on nothing is left that could run a
completion routine of a request to one of these endpoints, and no such request comes in any more.
Its slot stays empty until a device that is made later is put there.

All of this is about what begins after the device has been detached. A task may poll an endpoint
and be interrupted while it hands on what has timed out; the requests that it still has in hand are
neither in flight nor parked.
-/

namespace UsbHost

variable {σ ρ α : Type} {m : AddressMap σ}

/-! ### Requests that are refused -/

/-- The data of the request does not fit below the end of the address space. -/
def Request.Overruns (request : Request ρ) : Prop :=
  ∃ kind data fault, (TdPlan.ofRequest kind request data).run = .error fault

/-- The endpoint takes no request. A submission is refused unless it faults: its deadline is beyond
the end of time, or its data is beyond the end of the address space. -/
structure World.Refuses (w : World σ ρ) (r : EndpointRef) : Prop where
  transferAsync : ∀ (env : Env σ ρ) (request : Request ρ) (timeout : UInt64),
    HostM.Ends (Host.transferAsync env r request timeout) w
      (fun _ => request.Overruns ∨
        UInt64.size ≤ (env.now w.bus.platform).toNat + timeout.toNat)
      fun result _ => ∃ error, result = .error error
  transfer : ∀ (env : Env σ ρ) (request : Request ρ) (timeout : UInt64),
    HostM.Ends (Host.transfer env r request timeout) w (fun _ => request.Overruns)
      fun result _ => ∃ error, result = .error (.rejected error request)

namespace Host

variable {w : World σ ρ} {r : EndpointRef} {e : Endpoint ρ}

theorem submit_refused (he : w.endpoints[r.index]? = some e) (hclosed : e.Closed) (env : Env σ ρ)
    (request : Request ρ) (notify : Notify) (deadline : Option UInt64) :
    HostM.Ends (submit env r request notify deadline) w (fun _ => request.Overruns)
      fun result _ => ∃ error, result = .error error := by
  have hdata := dataAddress_located env request w
  cases hplan : (TdPlan.ofRequest e.kind request (located env request w).1).run with
  | error fault =>
    have hfault : (HostM.ofExcept (TdPlan.ofRequest e.kind request (located env request w).1).run :
        HostM σ ρ (Except Error TdPlan)) (located env request w).2 =
          .error fault (located env request w).2 := by
      rw [hplan]
      rfl
    exact HostM.ends_bind_of_ok (endpoint_eq he) (HostM.ends_bind_of_ok hdata
      (HostM.ends_of_error (HostM.bind_of_error hfault) ⟨e.kind, _, fault, hplan⟩))
  | ok planned =>
    have hstep : ∃ error e', e.submitRequest request (located env request w).1
        notify deadline = .ok (.error error, e') := by
      rw [Endpoint.submitRequest, hplan]
      cases planned with
      | error error => exact ⟨error, e, rfl⟩
      | ok plan => exact ⟨_, _, hclosed.submit_eq plan request notify deadline⟩
    obtain ⟨error, e', hstep⟩ := hstep
    rw [HostM.Ends, submit_eq he hdata hstep]
    exact ⟨error, rfl⟩

theorem entrust_refused (he : w.endpoints[r.index]? = some e) (hclosed : e.Closed) (env : Env σ ρ)
    (request : Request ρ) (notify : Notify) (deadline : Option UInt64) :
    HostM.Ends (entrust env r request notify deadline) w (fun _ => request.Overruns)
      fun result _ => ∃ error, result = .error ⟨error, request⟩ := by
  refine (submit_refused he hclosed env request notify deadline).bind ?_
  rintro _ _ ⟨error, rfl⟩
  exact ⟨error, rfl⟩

theorem refuses_of_closed (he : w.endpoints[r.index]? = some e) (hclosed : e.Closed) :
    w.Refuses r := by
  constructor
  case transferAsync =>
    intro env request timeout
    unfold transferAsync
    split
    · exact (entrust_refused he hclosed env request .routine none).mono (fun _ => .inl)
        fun _ _ ⟨error, h⟩ => ⟨⟨error, request⟩, h⟩
    · have hdeadline : HostM.Ends (some <$> deadlineAfter env timeout : HostM σ ρ _) w
          (fun _ => request.Overruns ∨
            UInt64.size ≤ (env.now w.bus.platform).toNat + timeout.toNat)
          fun _ w' => w' = w := by
        have hafter := deadlineAfter_eq env timeout w
        rw [map_eq_pure_bind]
        split at hafter
        · exact HostM.ends_bind_of_ok hafter rfl
        · rename_i hlate
          exact HostM.ends_of_error (HostM.bind_of_error hafter) (.inr (Nat.le_of_not_lt hlate))
      refine hdeadline.bind ?_
      rintro deadline _ rfl
      exact (entrust_refused he hclosed env request .routine deadline).mono (fun _ => .inl)
        fun _ _ ⟨error, h⟩ => ⟨⟨error, request⟩, h⟩
  case transfer =>
    intro env request timeout
    let plain : Request ρ := { request with routine := none }
    have hplan : ∀ kind data, TdPlan.ofRequest kind plain data =
        TdPlan.ofRequest kind request data := by
      intro kind data
      cases kind <;> rfl
    let w₁ : World σ ρ := { w with waiters := w.waiters.push {} }
    have hwaiter : (modifyGet fun w : World σ ρ =>
        ((⟨w.waiters.size⟩ : WaiterId), { w with waiters := w.waiters.push {} }) :
        HostM σ ρ WaiterId) w = .ok ⟨w.waiters.size⟩ w₁ := rfl
    have he₁ : w₁.endpoints[r.index]? = some e := he
    have hentrust := entrust_refused he₁ hclosed env plain
      (.waiter ⟨w.waiters.size⟩) none
    refine HostM.ends_bind_of_ok (endpoint_eq he) (HostM.ends_bind_of_ok hwaiter
      ((hentrust.mono ?_ fun _ _ h => h).bind ?_))
    · rintro _ ⟨kind, data, fault, hfault⟩
      rw [hplan] at hfault
      exact ⟨kind, data, fault, hfault⟩
    · rintro _ _ ⟨error, rfl⟩
      exact ⟨error, rfl⟩

end Host

/-! ### What detaching a device leaves -/

namespace World

variable {w w' : World σ ρ} {d : DeviceRef} {device : Device}

theorem Removes.housed (h : w.Removes d device w') (hw : w.Housed) (htidy : w.Tidy)
    (hd : w.devices[d.index]? = some device) : w'.Housed := by
  obtain ⟨slots, hfree, hcontroller⟩ := h.freed
  obtain ⟨-, hfreed, hagrees⟩ := SlotTable.free_cases hfree
  have hdevices : ∀ (d' : DeviceRef) device', w'.devices[d'.index]? = some device' →
      d'.index = d.index ∧ device' = device.unregisterAll.2 ∨
        d'.index ≠ d.index ∧ w.devices[d'.index]? = some device' := by
    intro d' device' hd'
    rw [h.devices_eq] at hd'
    exact device_putDevice_cases hd'
  constructor
  case device =>
    intro slot d' hbound
    rw [hcontroller] at hbound
    have hslot : slot ≠ device.owner.slot := by
      rintro rfl
      cases hfreed.symm.trans hbound
    obtain ⟨device', hd', hhome⟩ := hw.device slot d' (by rwa [← hagrees.device?_eq slot hslot])
    have hne : d'.index ≠ d.index := by
      intro heq
      rw [heq, hd, Option.some.injEq] at hd'
      rw [hd'] at hslot
      exact hslot hhome.symm
    refine ⟨device', ?_, hhome⟩
    rw [h.devices_eq, getElem?_putDevice hd', if_neg hne]
  case endpoint =>
    intro d' device' id r hd' hr
    rcases hdevices d' device' hd' with ⟨-, rfl⟩ | ⟨hne, hbefore⟩
    · rw [Device.endpoint?_of_empty rfl] at hr
      cases hr
    · have hnot : r ∉ device.registered := fun hr' => hne (htidy.registered_once _ _ _ _ r hbefore
        hd (Device.mem_registered_iff.2 ⟨id, hr⟩) hr')
      rw [h.endpoints_eq r hnot]
      exact hw.endpoint d' device' id r hbefore hr

/-- Whatever happens to the host afterwards, its slot is empty or has been given to a new device. -/
theorem Removes.vacant_or_new {w'' : World σ ρ} (h : w.Removes d device w')
    (hevolves : w'.Evolves w'') : w''.controller.slots.device? device.owner.slot = none ∨
      ∃ d', w''.controller.slots.device? device.owner.slot = some d' ∧
        w.devices.size ≤ d'.index := by
  obtain ⟨slots, hfree, hcontroller⟩ := h.freed
  cases hslot : w''.controller.slots.device? device.owner.slot with
  | none => exact .inl rfl
  | some d' =>
    refine .inr ⟨d', rfl, ?_⟩
    rcases hevolves.bound _ d' hslot with hbound | hnew
    · rw [hcontroller] at hbound
      cases (SlotTable.free_cases hfree).2.1.symm.trans hbound
    · rwa [h.devices_eq, size_putDevice] at hnew

variable {tagged : ρ → Prop} {homes : EndpointRef → Prop}

/-- Routines that have been submitted only to endpoints of the device are with nobody any more. -/
theorem Removes.confines (h : w.Removes d device w') (hw : w.Housed)
    (hd : w.devices[d.index]? = some device) (hhomes : ∀ r, homes r → r ∈ device.registered)
    (hconfines : w.Confines tagged homes homes) : w'.Confines tagged homes fun _ => False := by
  have hqueue : ∀ queue', w'.completions = some queue' → ∃ queue, w.completions = some queue ∧
      queue'.WellFormed ∧ queue'.toList =
        queue.toList.filter fun entry => !(entry.owner == device.owner.device) := by
    intro queue' hqueue'
    rw [h.completions_eq] at hqueue'
    obtain ⟨queue, hqueue, rfl⟩ := Option.map_eq_some_iff.1 hqueue'
    exact ⟨queue, hqueue, (hconfines.wellFormed queue hqueue).flushOwner device.owner.device⟩
  constructor
  case inFlight =>
    intro r e he routine hroutine htagged
    by_cases hr : r ∈ device.registered
    · obtain ⟨e₁, he₁, hclosed⟩ := h.closed r hr
      rw [Option.some.inj (he.symm.trans he₁), Endpoint.routines, hclosed.inFlight_eq] at hroutine
      cases hroutine
    · rw [h.endpoints_eq r hr] at he
      exact hr (hhomes r (hconfines.inFlight r e he routine hroutine htagged))
  case wellFormed =>
    intro queue' hqueue'
    obtain ⟨_, -, hwellFormed, -⟩ := hqueue queue' hqueue'
    exact hwellFormed
  case parked =>
    intro queue' hqueue' entry hentry routine hroutine htagged
    obtain ⟨queue, hbefore, -, hlist⟩ := hqueue queue' hqueue'
    rw [hlist, List.mem_filter] at hentry
    obtain ⟨r, e, hhome, he, howner⟩ :=
      hconfines.parked queue hbefore entry hentry.1 routine hroutine htagged
    -- The entry is one of the device's, and these have been dropped.
    obtain ⟨id, hid⟩ := Device.mem_registered_iff.1 (hhomes r hhome)
    obtain ⟨e₁, he₁, howner₁, -⟩ := hw.endpoint d device id r hd hid
    rw [Option.some.inj (he.symm.trans he₁), howner₁] at howner
    simp [howner] at hentry
  case closed => exact fun r hr => .inr (h.closed r (hhomes r hr))

end World

variable {j : RoutineJournal m ρ} {tagged : ρ → Prop} {homes : EndpointRef → Prop}

theorem Env.Notes.confines {env : Env σ ρ}
    (h : env.Notes j fun r routine => tagged routine → homes r) (active : EndpointRef → Prop) :
    env.Confines j tagged homes active where
  mute := h.mute
  yieldNow := h.yieldNow.confined
  complete := by
    obtain ⟨body, hcomplete, hbody⟩ := h.complete
    exact ⟨body, hcomplete, fun routine request => (hbody routine request).confined⟩
  portChanged port := (h.portChanged port).confined

/-! ### Silence -/

/-- The device has been detached in `w`, and nothing has been heard of its requests up to `w'`. -/
structure World.Silenced (j : RoutineJournal m ρ) (tagged : ρ → Prop) (device : Device)
    (w w' : World σ ρ) : Prop where
  /-- Routines have been run, but none of the tagged ones. -/
  ran : ∃ l, j.ran w'.bus.platform = j.ran w.bus.platform ++ l ∧ ∀ routine ∈ l, ¬ tagged routine
  refuses : ∀ r ∈ device.registered, w'.Refuses r
  /-- Nobody gets the events for the slot, unless it has been given to a new device. -/
  slot : w'.controller.slots.device? device.owner.slot = none ∧
      (∀ (env : Env σ ρ) (event : TransferEvent), event.slot = device.owner.slot →
        Host.slotEvent env event w' = .ok false w') ∨
    ∃ d, w'.controller.slots.device? device.owner.slot = some d ∧ w.devices.size ≤ d.index

/-- Let the tagged routines be submitted only to certain endpoints, all of which are registered on a
device that is in its slot. Once the device has been detached, whatever Disable Slot comes to, and
whatever happens meanwhile and afterwards, no tagged routine is run, the endpoints of the device
refuse every request, and events for its slot change nothing until a new device is there. -/
theorem World.NotedReachable.silent_after_detach {w : World σ ρ}
    (h : w.NotedReachable j fun r routine => tagged routine → homes r) {d : DeviceRef}
    {device : Device} (hd : w.devices[d.index]? = some device)
    (hbound : w.controller.slots.device? device.owner.slot = some d)
    (hhomes : ∀ r, homes r → r ∈ device.registered) {env : Env σ ρ}
    (henv : env.Notes j fun r routine => tagged routine → homes r) {p : HostM σ ρ α}
    (hp : NotedProgram j (fun r routine => tagged routine → homes r) p) :
    w.Silenced j tagged device ((w.after (Host.detach env d).run).after p) := by
  have hreachable := h.reachable
  have hdetach : Program m true (Host.detach env d).run := henv.acts.call (.detach d) (.inl rfl)
  -- Everything is silent before the slot is disabled.
  obtain ⟨w₀, hrun, hremoves, -⟩ := Host.detach_removes env hreachable.tidy hd hbound
  have hafter : w.after (Host.detach env d).run =
      w₀.after (Host.disableSlot env device.owner.slot).run := by
    rw [World.after, hrun, World.after]
  have hlater := (hreachable.run hdetach).evolves hp.program
  constructor
  case ran =>
    have hw₀ := hremoves.confines hreachable.housed hd hhomes h.confines
    have hobeys := Host.obeys_disableSlot (Host.confining_admits (henv.confines fun _ => False))
      device.owner.slot
    have hdisabled := hobeys.after w₀ hw₀
    rw [← hafter] at hdisabled
    obtain ⟨l, hran, hl⟩ := (hdisabled.trans (hp.confined.after _ hdisabled.confines)).ran
    refine ⟨l, by rw [hran, hremoves.bus_eq], fun routine hroutine htagged => ?_⟩
    obtain ⟨_, hnone⟩ := hl routine hroutine htagged
    exact hnone
  case refuses =>
    intro r hr
    obtain ⟨e, he, hclosed⟩ := hreachable.detach_closes hd hbound hr henv.acts
    obtain ⟨e', he', hfollows⟩ := hlater.endpoint r e he
    exact Host.refuses_of_closed he' (hfollows.closed hclosed)
  case slot =>
    have htables := Host.tables_admits (henv.acts.obeys Conduct.tables_admitsPrograms)
    have hdisabled := (Host.obeys_disableSlot htables device.owner.slot).after w₀
      (hremoves.housed hreachable.housed hreachable.tidy hd)
    rw [← hafter] at hdisabled
    rcases hremoves.vacant_or_new (hdisabled.2.trans hlater) with hnone | hnew
    · exact .inl ⟨hnone, fun env' event hevent => Host.slotEvent_none env' (hevent ▸ hnone)⟩
    · exact .inr hnew

/-! ### A host with a logbook -/

/-- A controller on the bench that reports every command as a success, and a log of the routines
that have been run. -/
structure Logbook where
  /-- The slot that is given out next. -/
  slot : UInt8 := 1
  ran : List Nat := []
  deriving Inhabited

namespace Logbook

def addresses : AddressMap Logbook := ⟨fun _ id => some (Board.place id)⟩

def platform : Platform Logbook where
  now _ := 0
  busAddress id l := (Board.place id, l)
  doorbell _ _ l := l
  setCommandRing _ _ l := l
  setEventRing _ _ _ l := l
  writeEventDequeue _ l := l
  setContextArray _ _ l := l

theorem addresses_extends (l l' : Logbook) : addresses.Extends l l' := fun _ _ h => h

theorem respects : platform.Respects addresses :=
  Board.respects_of_place (fun _ _ => rfl) fun _ _ => rfl

def journal : RoutineJournal addresses Nat where
  ran l := l.ran
  note routine l := { l with ran := l.ran ++ [routine] }
  ran_note _ _ := rfl
  extends_note _ _ := addresses_extends _ _

/-- Routine 1 is for the control endpoint of the first device. -/
def allows (r : EndpointRef) (routine : Nat) : Prop := routine = 1 → r = ⟨0⟩

/-- Surroundings that note the routines, and nothing else. -/
def still : Env Logbook Nat where
  toPlatform := platform
  yieldNow := pure ()
  complete routine _ := do HostM.onPlatform (journal.note routine); pure ()
  portChanged _ := pure ()
  patience := 4

/-- Report the command that is waited for. -/
def react : HostM Logbook Nat Unit := do
  let w ← get
  match w.controller.commands.underway? with
  | none => pure ()
  | some (address, _) => Host.commandCompleted address .success w.bus.platform.slot

def env : Env Logbook Nat := { still with yieldNow := react }

theorem notes_still : still.Notes journal allows where
  platform := respects
  mute := ⟨fun _ _ => rfl, fun _ _ _ => rfl, fun _ _ => rfl⟩
  yieldNow := .pure ()
  complete := ⟨fun _ _ => pure (), fun _ _ => rfl, fun _ _ => .pure ()⟩
  portChanged _ := .pure ()

theorem noted_react : NotedProgram journal allows react := by
  refine .bind .look fun w => ?_
  split
  · exact .pure ()
  · rename_i address _ _
    exact notes_still.call (.commandCompleted address .success w.bus.platform.slot) trivial

theorem notes : env.Notes journal allows where
  platform := respects
  mute := notes_still.mute
  yieldNow := noted_react
  complete := notes_still.complete
  portChanged _ := .pure ()

def config : Config := { Board.config with completionMode := .deferred }

def start : World Logbook Nat :=
  match (Host.create env config).run { platform := default } with
  | .ok (.ok w) bus => { w with bus := bus }
  | _ => default

theorem creates_start : Host.Creates env config default start :=
  .of_success (by decide +kernel) fun _ _ h => by rw [start, h]

theorem reachable_start : start.NotedReachable journal allows := by
  obtain ⟨w, bus, h, hstart⟩ := creates_start
  rw [hstart]
  exact .create respects config h

/-- The world that a call leaves. -/
def made {α : Type} (w : World Logbook Nat) (c : Call Nat α) : World Logbook Nat :=
  w.after (c.run env)

theorem reachable_made {α : Type} {w : World Logbook Nat} (h : w.NotedReachable journal allows)
    (c : Call Nat α) (hfits : c.Fits allows) : (made w c).NotedReachable journal allows :=
  h.run (notes.call c hfits)

/-- A device has been attached in slot 1, and slot 2 is the next one. -/
def attached : World Logbook Nat :=
  (made start (.attach 1 .high none)).after (HostM.onPlatform fun l => { l with slot := 2 })

theorem reachable_attached : attached.NotedReachable journal allows :=
  (reachable_made reachable_start (.attach 1 .high none) trivial).run
    (.platform _ (fun _ => addresses_extends _ _) fun _ => rfl)

/-- Devices have been attached in slots 1 and 2. -/
def paired : World Logbook Nat := made attached (.attach 2 .high none)

theorem reachable_paired : paired.NotedReachable journal allows :=
  reachable_made reachable_attached (.attach 2 .high none) trivial

/-- A request without data. -/
def request (routine : Nat) : Request Nat :=
  { setup := some ⟨0, 9, 1, 0, 0⟩, routine := some routine }

/-- Each device has a request parked, which has been cancelled. The first device has another one in
flight. -/
def busy : World Logbook Nat :=
  made (made (made (made (made paired (.transferAsync ⟨0⟩ (request 1) 0)) (.cancel ⟨0⟩ ⟨1⟩))
    (.transferAsync ⟨1⟩ (request 2) 0)) (.cancel ⟨1⟩ ⟨1⟩)) (.transferAsync ⟨0⟩ (request 1) 0)

theorem reachable_busy : busy.NotedReachable journal allows := by
  have hone : (Call.transferAsync ⟨0⟩ (request 1) 0).Fits allows := fun _ _ _ => rfl
  have htwo : (Call.transferAsync ⟨1⟩ (request 2) 0).Fits allows := by
    rintro _ ⟨rfl⟩
    exact nofun
  have hfirst := reachable_made reachable_paired _ hone
  have hcancelled := reachable_made hfirst (.cancel ⟨0⟩ ⟨1⟩) trivial
  have hboth := reachable_made (reachable_made hcancelled _ htwo) (.cancel ⟨1⟩ ⟨1⟩) trivial
  exact reachable_made hboth _ hone

/-- Requests in flight, and those among them that are tombstones. -/
def flight (w : World Logbook Nat) (r : EndpointRef) : Option (Nat × Nat) :=
  w.endpoints[r.index]?.map fun e => (e.inFlight.length, e.inFlight.countP InFlight.isTombstone)

/-- The first device is detached, and the parked requests are processed. -/
theorem silent_after_detach_busy : ∃ device : Device, busy.devices[0]? = some device ∧
    busy.controller.slots.device? device.owner.slot = some ⟨0⟩ ∧
    (∀ r, r = ⟨0⟩ → r ∈ device.registered) ∧ flight busy ⟨0⟩ = some (2, 1) ∧
    (busy.completions.map CompletionQueue.length) = some 2 ∧ busy.bus.platform.ran = [] ∧
    ((busy.after (Host.detach env ⟨0⟩).run).after (Host.processCompletions env)).bus.platform.ran =
      [2] ∧
    busy.Silenced journal (fun routine => routine = 1) device
      ((busy.after (Host.detach env ⟨0⟩).run).after (Host.processCompletions env)) := by
  have hfacts : (busy.devices[0]?.map fun device : Device =>
      (busy.controller.slots.device? device.owner.slot,
        decide ((⟨0⟩ : EndpointRef) ∈ device.registered))) = some (some ⟨0⟩, true) ∧
      flight busy ⟨0⟩ = some (2, 1) ∧ (busy.completions.map CompletionQueue.length) = some 2 ∧
      busy.bus.platform.ran = [] ∧
      ((busy.after (Host.detach env ⟨0⟩).run).after
        (Host.processCompletions env)).bus.platform.ran = [2] := by decide +kernel
  obtain ⟨hlook, hflight, hparked, hnone, hran⟩ := hfacts
  obtain ⟨device, hd, hfields⟩ := Option.map_eq_some_iff.1 hlook
  obtain ⟨hbound, hmem⟩ := Prod.mk.inj hfields
  have hhomes : ∀ r, r = ⟨0⟩ → r ∈ device.registered := by
    rintro _ rfl
    exact of_decide_eq_true hmem
  have hprocess : NotedProgram journal allows (Host.processCompletions env) :=
    notes.call .processCompletions trivial
  exact ⟨device, hd, hbound, hhomes, hflight, hparked, hnone, hran,
    reachable_busy.silent_after_detach (d := ⟨0⟩) hd hbound hhomes notes hprocess⟩

end Logbook

end UsbHost
