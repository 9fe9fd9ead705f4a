import UsbHost.Proofs.Endpoint.Deadlines
import UsbHost.Proofs.Endpoint.Expressible
import UsbHost.Proofs.Host.Submission

/-!
Timeouts on the host. A request that is submitted and left alone is due at the sum of the present
time and its timeout. If this sum is not a time, the submission faults before it has done anything.
Otherwise the request goes on the list of the endpoint with the exact time at which it is due, and
whoever polls the endpoint hands on the requests that are due, in the order of submission, and
learns how many they are.
-/

namespace UsbHost

open Endpoint (Timed Fresh smallBulk fresh_smallBulk)

variable {σ ρ : Type}

namespace Host

variable {env : Env σ ρ} {ref : EndpointRef} {e : Endpoint ρ} {w w₁ : World σ ρ}
  {request : Request ρ} {data : UInt64}

/-- The answer of an endpoint, as it goes back to who submitted the request. -/
def answered (request : Request ρ) (result : Except Error RequestId) :
    Except (Rejected ρ) RequestId :=
  result.mapError fun error => ⟨error, request⟩

/-- A request whose data lies within the address space gets an answer. -/
theorem entrust_steps (hsound : e.Sound) (hw : w.endpoints[ref.index]? = some e)
    (hdata : dataAddress env request w = .ok data w₁)
    (hfits : data.toNat + request.bufferLength < UInt64.size) (notify : Notify)
    (deadline : Option UInt64) :
    ∃ result e' w', e.submitRequest request data notify deadline = .ok (result, e') ∧
      entrust env ref request notify deadline w = .ok (answered request result) w' ∧
      w'.endpoints = (w.put ref e').endpoints ∧ w'.waiters = w.waiters := by
  obtain ⟨planned, hplan⟩ := TdPlan.ofRequest_total e.kind hfits
  obtain ⟨result, e', hstep, -⟩ := hsound.verdict hplan notify deadline
  have hsubmit := submit_eq hw hdata hstep
  have hsame : (w₁.put ref e').endpoints = (w.put ref e').endpoints := by
    rw [World.put, endpoints_of_dataAddress hdata]
    rfl
  have hwaiters := waiters_of_dataAddress hdata
  cases result with
  | ok id => exact ⟨_, e', _, hstep, HostM.bind_of_ok hsubmit, hsame, hwaiters⟩
  | error error => exact ⟨_, e', _, hstep, HostM.bind_of_ok hsubmit, hsame, hwaiters⟩

/-- A deadline beyond the end of time is a fault, and nothing has been done. -/
theorem transferAsync_overflow {timeout : UInt64} (hzero : timeout ≠ 0)
    (hlate : UInt64.size ≤ (env.now w.bus.platform).toNat + timeout.toNat) :
    transferAsync env ref request timeout w = .error .overflow w := by
  have hafter : deadlineAfter env timeout w = .error .overflow w := by
    rw [deadlineAfter_eq, if_neg (Nat.not_lt.2 hlate)]
  have hdeadline : (some <$> deadlineAfter env timeout : HostM σ ρ _) w = .error .overflow w := by
    rw [map_eq_pure_bind, HostM.bind_of_error hafter]
  unfold transferAsync
  rw [if_neg hzero, HostM.bind_of_error hdeadline]

/-- The host keeps the deadlines of the endpoint `e`, whose accepted requests are `ss`: a submission
at which time does not overflow is answered and goes on the list, and to poll is to hand on what has
timed out. -/
structure KeepsTime (env : Env σ ρ) (ref : EndpointRef) (w : World σ ρ) (ss : List (Term ρ))
    (e : Endpoint ρ) : Prop where
  async_overflow : ∀ request timeout, timeout ≠ 0 →
    UInt64.size ≤ (env.now w.bus.platform).toNat + timeout.toNat →
    transferAsync env ref request timeout w = .error .overflow w
  async_eq : ∀ request timeout,
    timeout = 0 ∨ (env.now w.bus.platform).toNat + timeout.toNat < UInt64.size →
    (located env request w).1.toNat + request.bufferLength < UInt64.size →
    ∃ result e' w', transferAsync env ref request timeout w = .ok (answered request result) w' ∧
      w'.endpoints[ref.index]? = some e' ∧
      Timed (ss ++ Term.entry ⟨request, .routine, env.now w.bus.platform, timeout⟩ result) e'
  /-- A synchronous request goes on the list without a deadline, and is waited for there. -/
  sync_eq : ∀ request timeout,
    (located env request w).1.toNat + request.bufferLength < UInt64.size →
    ∃ result e' w',
      transfer env ref request timeout w =
        concluded env ref request ⟨w.waiters.size⟩
          (if timeout = 0 then e.defaultTimeout else timeout)
          (answered { request with routine := none } result) w' ∧
      w'.endpoints[ref.index]? = some e' ∧
      Timed (ss ++ Term.entry ⟨{ request with routine := none }, .waiter ⟨w.waiters.size⟩,
        env.now w.bus.platform, timeout⟩ result) e'
  poll_eq : ∀ now, ∃ gone present, ss = gone ++ present ∧
    List.Forall₂ Term.Of present e.inFlight ∧ e.Expires now present ∧
    pollEndpoint env now ref w =
      (do
        handOn env e.owner (e.lapsed now present)
        return (e.lapsed now present).length : HostM σ ρ Nat) (w.put ref (e.expire now).2) ∧
    Timed ss (e.expire now).2

/-- Timeouts are exact, except that a deadline beyond the end of time is a fault. -/
theorem timeouts_are_exact {ss : List (Term ρ)} (h : Timed ss e)
    (hw : w.endpoints[ref.index]? = some e) (env : Env σ ρ) : KeepsTime env ref w ss e where
  async_overflow request timeout hzero hlate := transferAsync_overflow hzero hlate
  async_eq request timeout htimeout hfits := by
    let s : Term ρ := ⟨request, .routine, env.now w.bus.platform, timeout⟩
    have hdeadline : s.deadline = deadlineFor env w timeout := by
      by_cases hzero : timeout = 0 <;> simp [s, Term.deadline, deadlineFor, hzero]
    obtain ⟨result, e', w', hstep, hentrust, hsame, -⟩ := entrust_steps h.terms.sound hw
      (dataAddress_located env request w) hfits .routine (deadlineFor env w timeout)
    have hw' : w'.endpoints[ref.index]? = some e' := by simp [hsame, hw]
    rw [← hdeadline] at hstep
    refine ⟨result, e', w', ?_, hw', h.submit s (fun _ => htimeout) hstep⟩
    rw [transferAsync_eq htimeout, hentrust]
  sync_eq request timeout hfits := by
    let s : Term ρ := ⟨{ request with routine := none }, .waiter ⟨w.waiters.size⟩,
      env.now w.bus.platform, timeout⟩
    have hdata := dataAddress_located env { request with routine := none }
      { w with waiters := w.waiters.push {} }
    rw [located_push] at hdata
    obtain ⟨result, e', w', hstep, hentrust, hsame, -⟩ := entrust_steps
      (w := { w with waiters := w.waiters.push {} }) h.terms.sound hw hdata hfits
      (.waiter ⟨w.waiters.size⟩) none
    have hw' : w'.endpoints[ref.index]? = some e' := by simp [hsame, hw]
    refine ⟨result, e', w', ?_, hw', h.submit s (fun hroutine => nomatch hroutine) hstep⟩
    rw [transfer_eq env hw, HostM.bind_of_ok hentrust]
  poll_eq now := by
    obtain ⟨gone, present, hss, hpresent⟩ := h.terms.last_eq
    have hexpires := Endpoint.expires hpresent now
    have hstep : e.step (.expire now) =
        .ok ((.count (e.expire now).1.length, (e.expire now).1), (e.expire now).2) := rfl
    have hop : ∀ (request : Request ρ) data notify deadline,
        Endpoint.Op.expire now ≠ .submit request data notify deadline := by
      intro _ _ _ _ hop
      cases hop
    refine ⟨gone, present, hss, hpresent, hexpires, ?_, h.step hop hstep⟩
    rw [pollEndpoint_eq now hw, hexpires.deliveries_eq]

/-- Room for eight bytes. -/
def eightBytes : Request Unit where
  buffer := some (.zeroed ⟨0⟩ 8)

/-- A host with one endpoint, `clock` milliseconds after its start. -/
def clockedHost (clock : UInt64) (e : Endpoint Unit) : World Board Unit :=
  { (default : World Board Unit) with endpoints := #[e], bus := { platform := { clock } } }

/-- A request for eight bytes with a timeout of five milliseconds is given back at six, if it has
been submitted at one. Meanwhile a timeout that is to last for ever is a fault. -/
theorem timeouts_are_exact_after_one : ∃ (s : Term Unit) (e : Endpoint Unit),
    Timed [s] e ∧ (clockedHost 1 e).endpoints[0]? = some e ∧
    transferAsync Board.still ⟨0⟩ eightBytes 0xffffffffffffffff (clockedHost 1 e) =
      .error .overflow (clockedHost 1 e) ∧
    ∃ w', pollEndpoint Board.still 6 ⟨0⟩ (clockedHost 1 e) = .ok 1 w' := by
  let s : Term Unit := ⟨eightBytes, .routine, 1, 5⟩
  obtain ⟨id, e, record, hstep, hlist, hlive, howner⟩ : ∃ id e record,
      smallBulk.submitRequest eightBytes 0x2000 .routine (some 6) = .ok (.ok id, e) ∧
      e.inFlight = [record] ∧ record.isTombstone = false ∧ e.owner = default :=
    ⟨_, _, _, rfl, rfl, rfl, rfl⟩
  have htimed : Timed [s] e := Endpoint.Timed.submit (.fresh fresh_smallBulk) s
    (fun _ => .inr (by decide)) hstep
  have hw : (clockedHost 1 e).endpoints[(⟨0⟩ : EndpointRef).index]? = some e := rfl
  have htime := timeouts_are_exact htimed hw Board.still
  have hlate : UInt64.size ≤ (1 : UInt64).toNat + (0xffffffffffffffff : UInt64).toNat := by decide
  refine ⟨s, e, htimed, hw, htime.async_overflow _ _ (by decide) hlate, ?_⟩
  obtain ⟨gone, present, hss, hpresent, -, hpoll, -⟩ := htime.poll_eq 6
  obtain rfl : present = [s] := by
    rw [hlist] at hpresent
    obtain _ | @⟨s', _, _, _, _, hrest⟩ := hpresent
    cases hrest
    have hlast : [] ++ [s] = gone ++ [s'] := hss
    exact (List.append_inj' hlast rfl).2.symm
  have hlapsed : e.lapsed 6 [s] = [s.timedOut] := by
    have hdue : Term.lapses 6 (s, record) = true := by
      rw [Term.lapses, hlive]
      have hs : s.isDue 6 = true := by decide
      exact hs
    rw [Endpoint.lapsed, hlist, List.zip_cons_cons, List.zip_nil_right, List.filter_cons,
      if_pos hdue]
    rfl
  rw [hlapsed, howner] at hpoll
  exact ⟨_, hpoll⟩

/-- A timeout of all ones is a fault one millisecond after the start. -/
theorem endless_timeout_faults : Fresh smallBulk ∧
    (clockedHost 1 smallBulk).endpoints[0]? = some smallBulk ∧
    transferAsync Board.still ⟨0⟩ eightBytes 0xffffffffffffffff (clockedHost 1 smallBulk) =
      .error .overflow (clockedHost 1 smallBulk) :=
  ⟨fresh_smallBulk, rfl, rfl⟩

end Host

end UsbHost
