import Mathlib.Tactic.ByContra
import UsbHost.Proofs.Endpoint.Settlement
import UsbHost.Proofs.Endpoint.Matching

/-!
An endpoint and a controller that keeps to the rules. The controller works through the TDs of the
ring in order and reports each of them by events at its TRBs, the last of which is final. Requests
are submitted, cancelled and timed out in between. Both sides count TDs: the record of the TD that
the controller reports next is the oldest one in flight, and so every event finds its record, and
every final event takes away the record of its own TD.
-/

namespace UsbHost

open Endpoint (Op Reply Fresh Transition deliveries)

variable {ρ : Type}

namespace Endpoint.Op

/-- Software submits, cancels or times out; the endpoint is not shut down. -/
def isRequest : Op ρ → Bool
  | .submit .. | .giveBack .. | .expire .. => true
  | .event .. | .invalidate => false

/-- The request of the record is cancelled, or its time is up. -/
def Recalls : Op ρ → InFlight ρ → Prop
  | .giveBack id _, r => r.id = id
  | .expire now, r => r.deadline.any (· ≤ now)
  | _, _ => False

end Endpoint.Op

/-- An endpoint with its ledger, and what the controller has seen and reported. -/
structure Conversation (ρ : Type) where
  ledger : Ledger ρ
  /-- The TDs that were put on the ring, each as the addresses of its TRBs. -/
  tds : List (List UInt64) := []
  /-- The final events, one for each TD that has been reported. -/
  finals : List TransferEvent := []
  /-- Position that the events of the next TD have reached. -/
  reached : Nat := 0
  /-- Numbers of the requests that were cancelled or have timed out. -/
  withdrawn : List Nat := []

namespace Conversation

/-- What a step puts on the ring. -/
def enqueued (e : Endpoint ρ) : Op ρ → Reply → List (List UInt64)
  | .submit request data _ _, .submitted (.ok _) =>
    match (TdPlan.ofRequest e.kind request data).run with
    | .ok (.ok plan) => [e.ring.addressesOf plan.trbs]
    | _ => []
  | _, _ => []

/-- The conversation after a step of software that has led to the ledger `l`. -/
def acted (c : Conversation ρ) (op : Op ρ) (reply : Reply) (l : Ledger ρ) : Conversation ρ :=
  { c with
    ledger := l
    tds := c.tds ++ enqueued c.ledger.endpoint op reply
    withdrawn := c.withdrawn ++ c.ledger.settled l }

/-- A step of software. -/
def act (c : Conversation ρ) (op : Op ρ) :
    Except Fault ((Reply × List (Delivery ρ)) × Conversation ρ) := do
  let ((reply, ds), l) ← c.ledger.step op
  return ((reply, ds), c.acted op reply l)

/-- The event is about TRB `position` of the next TD to be reported, and not behind earlier events
of this TD. -/
structure Conforms (c : Conversation ρ) (event : TransferEvent) (position : Nat) : Prop where
  not_report : event.code.isRingReport = false
  addressed : ∃ td, c.tds[c.finals.length]? = some td ∧ td[position]? = some event.address
  reached_le : c.reached ≤ position

/-- The event is the final one of the next TD. -/
def ends (c : Conversation ρ) (event : TransferEvent) (position : Nat) : Bool :=
  InFlight.isFinal c.ledger.endpoint.kind (c.tds[c.finals.length]?.elim 0 List.length) position
    event.code

/-- The conversation after an event that has led to the ledger `l`. -/
def heard (c : Conversation ρ) (event : TransferEvent) (position : Nat) (l : Ledger ρ) :
    Conversation ρ :=
  if c.ends event position then
    { c with ledger := l, finals := c.finals ++ [event], reached := 0 }
  else
    { c with ledger := l, reached := position }

/-- A step of the controller: the endpoint hears of an event. -/
def hear (c : Conversation ρ) (event : TransferEvent) (position : Nat) :
    Except Fault ((Reply × List (Delivery ρ)) × Conversation ρ) := do
  let ((reply, ds), l) ← c.ledger.step (.event event)
  return ((reply, ds), c.heard event position l)

/-- Software and a conforming controller take steps in any order, from a new endpoint on. -/
inductive Reachable : Conversation ρ → Prop
  | fresh {e : Endpoint ρ} (h : Fresh e) : Reachable { ledger := { endpoint := e } }
  | act {c c' : Conversation ρ} {op : Op ρ} {answer : Reply × List (Delivery ρ)}
      (h : Reachable c) (hop : op.isRequest = true) (hstep : c.act op = .ok (answer, c')) :
      Reachable c'
  | hear {c c' : Conversation ρ} {event : TransferEvent} {position : Nat}
      {answer : Reply × List (Delivery ρ)} (h : Reachable c)
      (hconforms : c.Conforms event position)
      (hstep : c.hear event position = .ok (answer, c')) : Reachable c'

/-- The status that a final event stands for. -/
def statusOf (event : TransferEvent) : Request.Status :=
  if event.code.isTransferOk then .success else .failed event.code.failure

/-- Both sides agree on the TDs: the records in flight are those of the TDs not yet reported. What
was not withdrawn has been answered if its TD is reported, and is live otherwise. -/
structure InOrder (c : Conversation ρ) : Prop where
  reachable : c.ledger.Reachable
  valid : c.ledger.endpoint.valid = true
  length_accepted : c.ledger.accepted.length =
    c.finals.length + c.ledger.endpoint.inFlight.length
  length_tds : c.tds.length = c.ledger.accepted.length
  spans : List.Forall₂ (Td.Spans c.ledger.endpoint.ring c.ledger.endpoint.kind)
    (c.tds.drop c.finals.length) c.ledger.endpoint.tds
  answered : ∀ n event, c.finals[n]? = some event → n ∉ c.withdrawn →
    ∃ d, (n, d) ∈ c.ledger.handed ∧ d.request.status = statusOf event
  waiting : ∀ n, c.finals.length ≤ n → n < c.ledger.accepted.length → n ∉ c.withdrawn →
    n ∈ c.ledger.live

variable {c : Conversation ρ}

theorem InOrder.aligned (h : c.InOrder) : c.ledger.endpoint.Aligned :=
  (Endpoint.sound_of_reachable (Ledger.reachable_endpoint h.reachable)).aligned h.valid

theorem InOrder.oldest_eq (h : c.InOrder) : c.ledger.oldest = c.finals.length := by
  rw [Ledger.oldest, h.length_accepted, Nat.add_sub_cancel]

theorem inOrder_fresh {e : Endpoint ρ} (h : Fresh e) :
    InOrder ({ ledger := { endpoint := e } } : Conversation ρ) := by
  have hreachable := Ledger.Reachable.fresh h
  obtain ⟨owner, traits, config, base, -, -⟩ := h
  constructor
  case reachable => exact hreachable
  case valid => rfl
  case length_accepted => rfl
  case length_tds => rfl
  case spans => exact .nil
  case answered => simp
  case waiting =>
    intro n _ hn
    exact absurd hn (Nat.not_lt_zero n)

/-! ### Steps of software -/

section Act

variable {op : Op ρ} {reply : Reply} {ds : List (Delivery ρ)} {e' : Endpoint ρ}

theorem ne_invalidate (hop : op.isRequest = true) : op ≠ .invalidate := by
  rintro rfl
  cases hop

theorem frame_of_transition {e : Endpoint ρ} (ht : Transition e op reply ds e')
    (hop : op ≠ .invalidate) : e'.valid = e.valid ∧ e'.kind = e.kind := by
  cases ht with
  | invalidated => exact absurd rfl hop
  | _ => exact ⟨rfl, rfl⟩

/-- A step of software leaves TDs and ring alone, or adds one TD. -/
theorem tds_of_transition {e : Endpoint ρ} (haligned : e.Aligned)
    (ht : Transition e op reply ds e') (hop : op.isRequest = true) :
    (Ledger.entry op reply = [] ∧ enqueued e op reply = [] ∧ e'.tds = e.tds ∧ e'.ring = e.ring) ∨
    ∃ s td addresses, Ledger.entry op reply = [s] ∧ enqueued e op reply = [addresses] ∧
      e'.tds = e.tds ++ [td] ∧ Td.Spans e'.ring e'.kind addresses td ∧
      e'.ring.base = e.ring.base ∧ e'.ring.capacity = e.ring.capacity := by
  cases ht with
  | unplanned => exact .inl ⟨rfl, rfl, rfl, rfl⟩
  | refused => exact .inl ⟨rfl, rfl, rfl, rfl⟩
  | givenBack id failure =>
    exact .inl ⟨rfl, rfl, (e.withdraws_giveBack id failure).map_td, rfl⟩
  | expired now => exact .inl ⟨rfl, rfl, (e.withdraws_expire now).map_td, rfl⟩
  | @accepted request data notify deadline plan lastTrb ring hplan hroom henqueue =>
    have hr := haligned.wellFormed
    have hfits := (Endpoint.room_of_refusal? hr hroom).2
    rw [Endpoint.enqueueAll_eq hr hfits, Except.ok.injEq, Prod.mk.injEq] at henqueue
    obtain ⟨rfl, rfl⟩ := henqueue
    have hbase := ProducerRing.base_acceptAll (r := e.ring) plan.trbs
    have hcapacity := ProducerRing.capacity_acceptAll (r := e.ring) plan.trbs
    refine .inr ⟨_, _, e.ring.addressesOf plan.trbs, rfl, ?_, List.map_append, ?_, hbase,
      hcapacity⟩
    · rw [enqueued, hplan]
    · apply Td.Spans.congr hbase hcapacity
      constructor
      case length_eq => exact ProducerRing.length_addressesOf hr hfits
      case address_eq => exact fun p a ha => ProducerRing.getElem?_addressesOf hr hfits ha
      case stages =>
        intro hkind
        change e.kind = .control at hkind
        rw [hkind] at hplan
        exact TdPlan.length_control hplan
  | stale => cases hop
  | advanced => cases hop
  | finished => cases hop
  | invalidated => cases hop

@[simp] theorem length_tds_endpoint (e : Endpoint ρ) : e.tds.length = e.inFlight.length :=
  List.length_map _

/-- Requests, TDs and records are added together. -/
theorem lengths_of_transition {e : Endpoint ρ} (haligned : e.Aligned)
    (ht : Transition e op reply ds e') (hop : op.isRequest = true) :
    (enqueued e op reply).length = (Ledger.entry op reply).length ∧
      e'.inFlight.length = e.inFlight.length + (Ledger.entry op reply).length := by
  rw [← length_tds_endpoint, ← length_tds_endpoint]
  rcases tds_of_transition haligned ht hop with
    ⟨hentry, henqueued, hsame, -⟩ | ⟨s, td, addresses, hentry, henqueued, hmore, -⟩
  · rw [hentry, henqueued, hsame]
    exact ⟨rfl, rfl⟩
  · rw [hentry, henqueued, hmore, List.length_append]
    exact ⟨rfl, rfl⟩

/-- TDs that lie where their records say keep doing so, and so does one that is added. -/
theorem spans_of_transition {e : Endpoint ρ} (haligned : e.Aligned)
    (ht : Transition e op reply ds e') (hop : op.isRequest = true) {tds : List (List UInt64)}
    (h : List.Forall₂ (Td.Spans e.ring e.kind) tds e.tds) :
    List.Forall₂ (Td.Spans e'.ring e'.kind) (tds ++ enqueued e op reply) e'.tds := by
  have hkind := (frame_of_transition ht (ne_invalidate hop)).2
  rcases tds_of_transition haligned ht hop with ⟨-, henqueued, hsame, hring⟩ |
    ⟨s, td, addresses, -, henqueued, hmore, hspan, hbase, hcapacity⟩
  · rw [henqueued, hsame, hring, hkind, List.append_nil]
    exact h
  · rw [hkind] at hspan
    rw [henqueued, hmore, hkind]
    exact List.rel_append (h.imp fun _ _ => Td.Spans.congr hbase hcapacity) (.cons hspan .nil)

/-- What does not settle in a step stays live. -/
theorem live_of_not_settled {l l' : Ledger ρ} {n : Nat} (hn : n ∈ l.live)
    (hsettled : n ∉ l.settled l') : n ∈ l'.live := by
  by_contra hgone
  exact hsettled (Ledger.mem_settled.2 ⟨hn, hgone⟩)

/-- A step of software settles a request only if it recalls it. -/
theorem recalls_of_settled {l : Ledger ρ} (h : l.Consistent) (hop : op.isRequest = true)
    (ht : Transition l.endpoint op reply ds e') {n : Nat}
    (hn : n ∈ l.settled (l.enter op reply ds e')) :
    ∃ i r, n = l.oldest + i ∧ l.endpoint.inFlight[i]? = some r ∧ op.Recalls r := by
  have hne : ds ≠ [] := by
    rintro rfl
    rw [(h.effect ht).settled_eq_nil (ne_invalidate hop)] at hn
    cases hn
  obtain ⟨hlive, hgone⟩ := Ledger.mem_settled.1 hn
  cases ht with
  | givenBack id failure =>
    have hwithdraws := l.endpoint.withdraws_giveBack id failure
    rw [Ledger.live_enter_of_withdraws rfl hwithdraws] at hgone
    exact Ledger.due_of_withdraws hwithdraws hlive hgone
  | expired now =>
    have hwithdraws := l.endpoint.withdraws_expire now
    rw [Ledger.live_enter_of_withdraws rfl hwithdraws] at hgone
    exact Ledger.due_of_withdraws hwithdraws hlive hgone
  | invalidated => cases hop
  | finished => cases hop
  | _ => exact absurd rfl hne

theorem step_eq {l : Ledger ρ} (htaken : l.endpoint.step op = .ok ((reply, ds), e')) :
    l.step op = .ok ((reply, ds), l.enter op reply ds e') := by
  rw [Ledger.step, htaken]
  rfl

theorem reachable_enter {l : Ledger ρ} (h : l.Reachable)
    (htaken : l.endpoint.step op = .ok ((reply, ds), e')) :
    (l.enter op reply ds e').Reachable :=
  .step h (step_eq htaken)

theorem InOrder.act (h : c.InOrder) (hop : op.isRequest = true)
    (htaken : c.ledger.endpoint.step op = .ok ((reply, ds), e')) :
    (c.acted op reply (c.ledger.enter op reply ds e')).InOrder := by
  have ht := Endpoint.transition_of_step htaken
  have heffect := (Ledger.consistent_of_reachable h.reachable).effect ht
  obtain ⟨hlength, hlength'⟩ := lengths_of_transition h.aligned ht hop
  have hcount := h.length_accepted
  have haccepted : (c.ledger.enter op reply ds e').accepted =
      c.ledger.accepted ++ Ledger.entry op reply := rfl
  rw [acted]
  constructor
  case reachable => exact reachable_enter h.reachable htaken
  case valid => exact (frame_of_transition ht (ne_invalidate hop)).1.trans h.valid
  case length_accepted =>
    change _ = c.finals.length + e'.inFlight.length
    rw [haccepted, List.length_append, hcount, hlength', Nat.add_assoc]
  case length_tds =>
    rw [haccepted, List.length_append, List.length_append, h.length_tds, hlength]
  case spans =>
    change List.Forall₂ (Td.Spans e'.ring e'.kind) ((c.tds ++ _).drop c.finals.length) e'.tds
    rw [List.drop_append_of_le_length (by rw [h.length_tds, hcount]; omega)]
    exact spans_of_transition h.aligned ht hop h.spans
  case answered =>
    intro n event hevent hn
    obtain ⟨d, hd, hstatus⟩ := h.answered n event hevent fun hw =>
      hn (List.mem_append_left _ hw)
    exact ⟨d, List.mem_append_left _ hd, hstatus⟩
  case waiting =>
    intro n hreported hn hwithdrawn
    rw [List.mem_append, not_or] at hwithdrawn
    rcases heffect.live with ⟨hsame, -⟩ | ⟨s, hmore, hlive⟩
    · rw [hsame] at hn
      exact live_of_not_settled (h.waiting n hreported hn hwithdrawn.1) hwithdrawn.2
    · rw [hmore, List.length_append, List.length_singleton] at hn
      rw [hlive]
      rcases Nat.lt_or_eq_of_le (Nat.le_of_lt_succ hn) with hold | rfl
      · exact List.mem_append_left _ (h.waiting n hreported hold hwithdrawn.1)
      · exact List.mem_append_right _ (List.mem_singleton_self _)

end Act

/-! ### Steps of the controller -/

section Hear

variable {event : TransferEvent} {position : Nat}

/-- The TD that a conforming event is about is that of the oldest record. -/
theorem InOrder.exists_record (h : c.InOrder) (hconforms : c.Conforms event position) :
    ∃ record rest td tds, c.ledger.endpoint.inFlight = record :: rest ∧
      c.tds.drop c.finals.length = td :: tds ∧ td[position]? = some event.address ∧
      Td.Spans c.ledger.endpoint.ring c.ledger.endpoint.kind td record.td ∧
      List.Forall₂ (Td.Spans c.ledger.endpoint.ring c.ledger.endpoint.kind) tds
        (rest.map InFlight.td) := by
  obtain ⟨-, ⟨td, htd, haddress⟩, -⟩ := hconforms
  have hspans := h.spans
  cases hdrop : c.tds.drop c.finals.length with
  | nil =>
    rw [← Nat.add_zero c.finals.length, ← List.getElem?_drop, hdrop] at htd
    cases htd
  | cons first tds =>
    rw [← Nat.add_zero c.finals.length, ← List.getElem?_drop, hdrop] at htd
    obtain rfl : first = td := by simpa using htd
    rw [hdrop, Endpoint.tds] at hspans
    cases hlist : c.ledger.endpoint.inFlight with
    | nil =>
      rw [hlist] at hspans
      cases hspans
    | cons record rest =>
      rw [hlist, List.map_cons] at hspans
      obtain ⟨hspan, hrest⟩ := List.forall₂_cons.1 hspans
      exact ⟨record, rest, first, tds, rfl, rfl, haddress, hspan, hrest⟩

variable {record : InFlight ρ} {rest : List (InFlight ρ)} {td : List UInt64}

theorem position_lt {ring : ProducerRing} {kind : TransferKind} {a : UInt64}
    (hspan : Td.Spans ring kind td record.td) (haddress : td[position]? = some a) :
    position < record.trbCount := by
  have hlt := (List.getElem?_eq_some_iff.1 haddress).1
  rwa [hspan.length_eq] at hlt

/-- A conforming event is not stale. -/
theorem InOrder.position_eq (h : c.InOrder) (hlist : c.ledger.endpoint.inFlight = record :: rest)
    (hspan : Td.Spans c.ledger.endpoint.ring c.ledger.endpoint.kind td record.td)
    (haddress : td[position]? = some event.address) :
    record.position? c.ledger.endpoint.ring event.address = some position := by
  have hr := h.aligned.wellFormed
  have hfirst : record.firstIndex < c.ledger.endpoint.ring.capacity := by
    have hhead := (h.aligned.head_at hlist).firstIndex_eq
    change record.firstIndex = _ at hhead
    rw [hhead]
    exact hr.dequeue_lt
  have hcount : record.trbCount ≤ c.ledger.endpoint.ring.capacity := by
    have hspan := h.aligned.head_span hlist
    have hout := ProducerRing.outstanding_lt hr
    omega
  rw [hspan.address_eq position _ haddress]
  exact InFlight.position?_addressAt hr hfirst (position_lt hspan haddress) hcount

theorem ends_eq (hdrop : ∃ tds, c.tds.drop c.finals.length = td :: tds) :
    c.ends event position =
      InFlight.isFinal c.ledger.endpoint.kind td.length position event.code := by
  obtain ⟨tds, hdrop⟩ := hdrop
  have htd : c.tds[c.finals.length]? = some td := by
    rw [← Nat.add_zero c.finals.length, ← List.getElem?_drop, hdrop]
    rfl
  rw [ends, htd, Option.elim_some]

/-- What the endpoint makes of a conforming event: the final one ends the oldest TD and no other
one does. -/
theorem InOrder.heard (h : c.InOrder) (hconforms : c.Conforms event position)
    (hlist : c.ledger.endpoint.inFlight = record :: rest)
    (hspan : Td.Spans c.ledger.endpoint.ring c.ledger.endpoint.kind td record.td)
    (haddress : td[position]? = some event.address) {reply : Reply} {ds : List (Delivery ρ)}
    {e' : Endpoint ρ} (ht : Transition c.ledger.endpoint (.event event) reply ds e') :
    if InFlight.isFinal c.ledger.endpoint.kind td.length position event.code then
      ∃ outcome, outcome.status = statusOf event ∧ ds = deliveries record outcome ∧
        e'.inFlight = rest ∧ e'.ring = c.ledger.endpoint.ring.drop record.trbCount
    else
      ds = [] ∧ e'.ring = c.ledger.endpoint.ring ∧ e'.inFlight =
        (record.advance c.ledger.endpoint.kind position event).1 :: rest := by
  have hposition := h.position_eq hlist hspan haddress
  have hfinal := InFlight.isSome_advance event (position_lt hspan haddress) hspan.stages
  rw [hspan.length_eq]
  change if InFlight.isFinal _ record.trbCount position event.code then _ else _
  cases ht with
  | stale _ hstale =>
    -- The event is no report about the ring, and its TRB belongs to the oldest record.
    rcases hstale with hreport | hstale
    · rw [hconforms.not_report] at hreport
      cases hreport
    · rw [hstale record (by rw [hlist]; rfl)] at hposition
      cases hposition
  | advanced _ first record' others place _ hfirst hplace hadvance =>
    obtain ⟨rfl, rfl⟩ := List.cons.inj (hlist.symm.trans hfirst)
    obtain rfl := Option.some.inj (hposition.symm.trans hplace)
    rw [hadvance] at hfinal
    rw [← hfinal, hadvance]
    exact ⟨rfl, rfl, rfl⟩
  | finished _ first record' others place released outcome ring _ hfirst hplace hadvance hrelease =>
    obtain ⟨rfl, rfl⟩ := List.cons.inj (hlist.symm.trans hfirst)
    obtain rfl := Option.some.inj (hposition.symm.trans hplace)
    rw [hadvance] at hfinal
    rw [← hfinal]
    exact ⟨outcome, InFlight.status_of_advance hadvance, rfl, rfl,
      h.aligned.eq_drop_of_release hlist hrelease⟩

variable {reply : Reply} {ds : List (Delivery ρ)} {e' : Endpoint ρ}

/-- A final event that ends the oldest TD answers its request, if that has not been withdrawn. -/
theorem InOrder.answers (h : c.InOrder) {outcome : Outcome}
    (hlist : c.ledger.endpoint.inFlight = record :: rest) (hrest : e'.inFlight = rest)
    (hdeliveries : ds = deliveries record outcome)
    (hwithdrawn : c.finals.length ∉ c.withdrawn) :
    ∃ d, (c.finals.length, d) ∈ (c.ledger.enter (.event event) reply ds e').handed ∧
      d.request.status = outcome.status := by
  have hconsistent := Ledger.consistent_of_reachable h.reachable
  have hcount := h.length_accepted
  rw [hlist, List.length_cons] at hcount
  have hlive := h.waiting c.finals.length (Nat.le_refl _) (by omega) hwithdrawn
  cases hcargo : record.cargo with
  | tombstone retained =>
    rw [Ledger.live, h.oldest_eq, hlist, Ledger.liveFrom_cons_tombstone hcargo] at hlive
    exact absurd hlive (Ledger.not_mem_liveFrom_succ _ _)
  | live request notify =>
    refine ⟨⟨notify, request.finish outcome.status outcome.length⟩,
      List.mem_append_right _ ?_, rfl⟩
    change _ ∈ (c.ledger.told (.event event) (c.ledger.enter (.event event) reply ds e')).zip ds
    rw [Ledger.told_eq_settled (show Op.event event ≠ .invalidate by simp),
      hconsistent.settled_of_finished hlist hrest, h.oldest_eq, hdeliveries,
      Endpoint.deliveries_live hcargo, InFlight.isTombstone_live hcargo]
    exact List.mem_singleton_self _

theorem InOrder.hear_final (h : c.InOrder) {tds : List (List UInt64)} {outcome : Outcome}
    (htaken : c.ledger.endpoint.step (.event event) = .ok ((reply, ds), e'))
    (hlist : c.ledger.endpoint.inFlight = record :: rest)
    (hdrop : c.tds.drop c.finals.length = td :: tds)
    (hspans : List.Forall₂ (Td.Spans c.ledger.endpoint.ring c.ledger.endpoint.kind) tds
      (rest.map InFlight.td))
    (hstatus : outcome.status = statusOf event) (hdeliveries : ds = deliveries record outcome)
    (hrest : e'.inFlight = rest)
    (hring : e'.ring = c.ledger.endpoint.ring.drop record.trbCount) :
    InOrder { c with
      ledger := c.ledger.enter (.event event) reply ds e'
      finals := c.finals ++ [event]
      reached := 0 } := by
  have ht := Endpoint.transition_of_step htaken
  obtain ⟨hvalid, hkind⟩ := frame_of_transition ht (by simp)
  have hconsistent := Ledger.consistent_of_reachable h.reachable
  have hcount := h.length_accepted
  rw [hlist, List.length_cons] at hcount
  have haccepted : (c.ledger.enter (.event event) reply ds e').accepted = c.ledger.accepted :=
    List.append_nil _
  constructor
  case reachable => exact reachable_enter h.reachable htaken
  case valid => exact hvalid.trans h.valid
  case length_accepted =>
    change _ = _ + e'.inFlight.length
    rw [haccepted, hrest, hcount, List.length_append, List.length_singleton]
    omega
  case length_tds =>
    rw [haccepted]
    exact h.length_tds
  case spans =>
    change List.Forall₂ (Td.Spans e'.ring e'.kind) (c.tds.drop (c.finals ++ [event]).length) e'.tds
    rw [List.length_append, List.length_singleton, ← List.drop_drop, hdrop, hkind, hring,
      Endpoint.tds, hrest, List.drop_one, List.tail_cons]
    exact hspans.imp fun _ _ hspan => ⟨hspan.length_eq, hspan.address_eq, hspan.stages⟩
  case answered =>
    intro n final hfinal hn
    -- Either the TD was reported before, or it is the one that ends now.
    rcases Ring.getElem?_concat_cases hfinal with hold | ⟨rfl, rfl⟩
    · obtain ⟨d, hd, hstatus⟩ := h.answered n final hold hn
      exact ⟨d, List.mem_append_left _ hd, hstatus⟩
    · rw [← hstatus]
      exact h.answers hlist hrest hdeliveries hn
  case waiting =>
    intro n hreported hn hwithdrawn
    rw [haccepted] at hn
    rw [List.length_append, List.length_singleton] at hreported
    refine live_of_not_settled (h.waiting n (by omega) hn hwithdrawn) ?_
    rw [hconsistent.settled_of_finished hlist hrest, h.oldest_eq]
    split
    · exact List.not_mem_nil
    · rw [List.mem_singleton]
      omega

theorem InOrder.hear_more (h : c.InOrder) {record' : InFlight ρ}
    (htaken : c.ledger.endpoint.step (.event event) = .ok ((reply, []), e'))
    (hlist : c.ledger.endpoint.inFlight = record :: rest)
    (hrest : e'.inFlight = record' :: rest) (htd : record'.td = record.td)
    (hring : e'.ring = c.ledger.endpoint.ring) :
    InOrder { c with
      ledger := c.ledger.enter (.event event) reply [] e'
      reached := position } := by
  have ht := Endpoint.transition_of_step htaken
  obtain ⟨hvalid, hkind⟩ := frame_of_transition ht (by simp)
  have hcount := h.length_accepted
  have haccepted : (c.ledger.enter (.event event) reply [] e').accepted = c.ledger.accepted :=
    List.append_nil _
  have htds : e'.tds = c.ledger.endpoint.tds := by
    rw [Endpoint.tds, Endpoint.tds, hrest, hlist, List.map_cons, List.map_cons, htd]
  -- Nothing is delivered, so that nothing settles.
  have hsettled := ((Ledger.consistent_of_reachable h.reachable).effect ht).settled_eq_nil (by simp)
  constructor
  case reachable => exact reachable_enter h.reachable htaken
  case valid => exact hvalid.trans h.valid
  case length_accepted =>
    change _ = c.finals.length + e'.inFlight.length
    rw [haccepted, hcount, ← length_tds_endpoint, ← length_tds_endpoint, htds]
  case length_tds =>
    rw [haccepted]
    exact h.length_tds
  case spans =>
    change List.Forall₂ (Td.Spans e'.ring e'.kind) (c.tds.drop c.finals.length) e'.tds
    rw [hring, hkind, htds]
    exact h.spans
  case answered =>
    intro n final hfinal hn
    obtain ⟨d, hd, hstatus⟩ := h.answered n final hfinal hn
    exact ⟨d, List.mem_append_left _ hd, hstatus⟩
  case waiting =>
    intro n hreported hn hwithdrawn
    rw [haccepted] at hn
    refine live_of_not_settled (h.waiting n hreported hn hwithdrawn) ?_
    rw [hsettled]
    exact List.not_mem_nil

theorem InOrder.hear (h : c.InOrder) (hconforms : c.Conforms event position)
    (htaken : c.ledger.endpoint.step (.event event) = .ok ((reply, ds), e')) :
    (c.heard event position (c.ledger.enter (.event event) reply ds e')).InOrder := by
  obtain ⟨record, rest, td, tds, hlist, hdrop, haddress, hspan, hspans⟩ :=
    h.exists_record hconforms
  have hheard := h.heard hconforms hlist hspan haddress (Endpoint.transition_of_step htaken)
  rw [← ends_eq ⟨tds, hdrop⟩] at hheard
  rw [Conversation.heard]
  split
  · rename_i hends
    rw [if_pos hends] at hheard
    obtain ⟨outcome, hstatus, hdeliveries, hrest, hring⟩ := hheard
    exact h.hear_final htaken hlist hdrop hspans hstatus hdeliveries hrest hring
  · rename_i hends
    rw [if_neg hends] at hheard
    obtain ⟨rfl, hring, hrest⟩ := hheard
    exact h.hear_more htaken hlist hrest (record.advance_frame _ _ _).1 hring

end Hear

/-! ### Every conversation -/

/-- A step that the conversation makes note of is one of the endpoint. -/
theorem exists_of_noted {op : Op ρ} {reply : Reply} {ds : List (Delivery ρ)} {c' : Conversation ρ}
    (note : Reply → Ledger ρ → Conversation ρ)
    (h : (fun r : (Reply × List (Delivery ρ)) × Ledger ρ => (r.1, note r.1.1 r.2)) <$>
      c.ledger.step op = .ok ((reply, ds), c')) : ∃ e',
      c.ledger.endpoint.step op = .ok ((reply, ds), e') ∧
      c' = note reply (c.ledger.enter op reply ds e') := by
  obtain ⟨⟨⟨_, _⟩, l⟩, hledger, h⟩ := Fault.map_eq_ok.1 h
  cases h
  obtain ⟨e', htaken, rfl⟩ := Ledger.exists_of_step hledger
  exact ⟨e', htaken, rfl⟩

theorem exists_of_act {op : Op ρ} {reply : Reply} {ds : List (Delivery ρ)} {c' : Conversation ρ}
    (hstep : c.act op = .ok ((reply, ds), c')) : ∃ e',
      c.ledger.endpoint.step op = .ok ((reply, ds), e') ∧
      c' = c.acted op reply (c.ledger.enter op reply ds e') :=
  exists_of_noted (c.acted op) hstep

theorem exists_of_hear {event : TransferEvent} {position : Nat} {reply : Reply}
    {ds : List (Delivery ρ)} {c' : Conversation ρ}
    (hstep : c.hear event position = .ok ((reply, ds), c')) : ∃ e',
      c.ledger.endpoint.step (.event event) = .ok ((reply, ds), e') ∧
      c' = c.heard event position (c.ledger.enter (.event event) reply ds e') :=
  exists_of_noted (fun _ => c.heard event position) hstep

theorem inOrder_of_reachable (h : Reachable c) : c.InOrder := by
  induction h with
  | fresh h => exact inOrder_fresh h
  | act _ hop hstep ih =>
    obtain ⟨e', htaken, rfl⟩ := exists_of_act hstep
    exact ih.act hop htaken
  | hear _ hconforms hstep ih =>
    obtain ⟨e', htaken, rfl⟩ := exists_of_hear hstep
    exact ih.hear hconforms htaken

/-- Nothing that the controller reports is lost on the endpoint. -/
structure NoneLost (c : Conversation ρ) : Prop where
  /-- Every accepted request has a TD, and the TDs not yet reported have their records. -/
  length_tds : c.tds.length = c.ledger.accepted.length
  length_inFlight : c.tds.length = c.finals.length + c.ledger.endpoint.inFlight.length
  /-- The endpoint finds the request of a conforming event, and the TRB in its TD; it takes the
  event into account, and removes the record exactly if the event is final. -/
  hears : ∀ event position, c.Conforms event position → ∃ record rest s reply ds c',
    c.ledger.endpoint.inFlight = record :: rest ∧
    c.ledger.accepted[c.finals.length]? = some s ∧ s.Follows record ∧
    record.position? c.ledger.endpoint.ring event.address = some position ∧
    c.hear event position = .ok ((reply, ds), c') ∧
    c'.ledger.endpoint.inFlight = if c.ends event position then rest else
      (record.advance c.ledger.endpoint.kind position event).1 :: rest
  /-- Software removes no record, and withdraws only what it recalls. -/
  keeps : ∀ op reply ds c', op.isRequest = true → c.act op = .ok ((reply, ds), c') →
    c.ledger.endpoint.tds <+: c'.ledger.endpoint.tds ∧
    ∀ n ∈ c'.withdrawn, n ∈ c.withdrawn ∨
      ∃ i r, n = c.finals.length + i ∧ c.ledger.endpoint.inFlight[i]? = some r ∧ op.Recalls r
  /-- A request that was not withdrawn has received the status of the final event of its TD. -/
  answered : ∀ n event, c.finals[n]? = some event → n ∉ c.withdrawn →
    c.ledger.timesHanded n = 1 ∧ ∃ s d, c.ledger.accepted[n]? = some s ∧
      (n, d) ∈ c.ledger.handed ∧ s.Finished d ∧ d.request.status = statusOf event
  /-- When all TDs are reported, nothing is left. -/
  drained : c.finals.length = c.tds.length →
    c.ledger.endpoint.inFlight = [] ∧ c.ledger.endpoint.ring.outstanding = 0

theorem InOrder.hears (h : c.InOrder) {event : TransferEvent} {position : Nat}
    (hconforms : c.Conforms event position) : ∃ record rest s reply ds c',
      c.ledger.endpoint.inFlight = record :: rest ∧
      c.ledger.accepted[c.finals.length]? = some s ∧ s.Follows record ∧
      record.position? c.ledger.endpoint.ring event.address = some position ∧
      c.hear event position = .ok ((reply, ds), c') ∧
      c'.ledger.endpoint.inFlight = if c.ends event position then rest else
        (record.advance c.ledger.endpoint.kind position event).1 :: rest := by
  obtain ⟨record, rest, td, tds, hlist, hdrop, haddress, hspan, -⟩ := h.exists_record hconforms
  have hfirst : c.ledger.endpoint.inFlight[0]? = some record := by
    rw [hlist]
    rfl
  obtain ⟨s, hs, hfollows⟩ :=
    (Ledger.consistent_of_reachable h.reachable).exists_submission hfirst
  rw [h.oldest_eq, Nat.add_zero] at hs
  -- The endpoint takes the step.
  have hsound := Endpoint.sound_of_reachable (Ledger.reachable_endpoint h.reachable)
  obtain ⟨delivery, e', hevent⟩ := hsound.transferEvent_ok event
  have htaken : c.ledger.endpoint.step (.event event) =
      .ok ((.handled, delivery.toList), e') := by
    rw [Endpoint.step, hevent]
    rfl
  have hheard := h.heard hconforms hlist hspan haddress (Endpoint.transition_of_step htaken)
  rw [← ends_eq ⟨tds, hdrop⟩] at hheard
  refine ⟨record, rest, s, _, _, _, hlist, hs, hfollows,
    h.position_eq hlist hspan haddress, by rw [Conversation.hear, step_eq htaken]; rfl, ?_⟩
  cases hends : c.ends event position with
  | true =>
    rw [if_pos hends] at hheard
    obtain ⟨_, _, _, hrest, _⟩ := hheard
    rw [Conversation.heard, if_pos hends, if_pos rfl]
    exact hrest
  | false =>
    rw [hends] at hheard
    rw [Conversation.heard, hends]
    exact hheard.2.2

theorem InOrder.keeps (h : c.InOrder) {op : Op ρ} {reply : Reply} {ds : List (Delivery ρ)}
    {c' : Conversation ρ} (hop : op.isRequest = true) (hstep : c.act op = .ok ((reply, ds), c')) :
    c.ledger.endpoint.tds <+: c'.ledger.endpoint.tds ∧
    ∀ n ∈ c'.withdrawn, n ∈ c.withdrawn ∨ ∃ i r, n = c.finals.length + i ∧
      c.ledger.endpoint.inFlight[i]? = some r ∧ op.Recalls r := by
  obtain ⟨e', htaken, rfl⟩ := exists_of_act hstep
  have ht := Endpoint.transition_of_step htaken
  constructor
  · change c.ledger.endpoint.tds <+: e'.tds
    rcases tds_of_transition h.aligned ht hop with ⟨-, -, hsame, -⟩ | ⟨_, td, _, -, -, hmore, -⟩
    · exact hsame ▸ List.prefix_rfl
    · exact hmore ▸ List.prefix_append _ _
  · intro n hn
    refine (List.mem_append.1 hn).imp_right fun hn => ?_
    rw [← h.oldest_eq]
    exact recalls_of_settled (Ledger.consistent_of_reachable h.reachable) hop ht hn

theorem InOrder.noneLost (h : c.InOrder) : c.NoneLost := by
  have hexact := (Ledger.consistent_of_reachable h.reachable).exact
  constructor
  case length_tds => exact h.length_tds
  case length_inFlight => exact h.length_tds.trans h.length_accepted
  case hears => exact fun event position hconforms => h.hears hconforms
  case keeps => exact fun op reply ds c' hop hstep => h.keeps hop hstep
  case answered =>
    intro n event hevent hn
    obtain ⟨d, hd, hstatus⟩ := h.answered n event hevent hn
    obtain ⟨s, hs, hfinished⟩ := hexact.own n d hd
    have hpos : 0 < c.ledger.timesHanded n :=
      List.count_pos_iff.2 (List.mem_map.2 ⟨(n, d), hd, rfl⟩)
    exact ⟨Nat.le_antisymm (hexact.timesHanded_le n) hpos, s, d, hs, hd, hfinished, hstatus⟩
  case drained =>
    intro hall
    have hnil : c.ledger.endpoint.inFlight = [] := by
      rw [← List.length_eq_zero_iff]
      have hcount := h.length_accepted
      rw [← h.length_tds] at hcount
      omega
    have hspan := h.aligned.span_eq
    rw [Endpoint.tds, hnil] at hspan
    exact ⟨hnil, hspan.symm⟩

/-- Whatever software does meanwhile, no event of a conforming controller is lost; and the steps
of a conversation are what the host does. What it hands on wakes the task that waits, runs the
completion routine or parks the request (`Host.handOn_of_waiters`, `Host.handOn_of_immediate`,
`Host.handOn_of_room`, `Host.deliver_of_full`). -/
theorem no_completion_lost (h : Reachable c) :
    c.NoneLost ∧ ∀ op reply ds e', c.ledger.endpoint.step op = .ok ((reply, ds), e') →
      ∀ {σ : Type} (env : Env σ ρ) (w : World σ ρ) (ref : EndpointRef),
        w.endpoints[ref.index]? = some c.ledger.endpoint →
        Host.CarriesOut env w ref c.ledger.endpoint op reply ds e' := by
  constructor
  · exact (inOrder_of_reachable h).noneLost
  · intro op reply ds e' hstep σ env w ref hw
    exact Host.carriesOut hw hstep

/-- A request whose only TRB is reported as a success. -/
theorem no_completion_lost_one_request : ∃ answer answer' c c',
    act { ledger := { endpoint := Endpoint.smallBulk } } (.submit
      { buffer := some (.zeroed ⟨0⟩ 8) } 0x2000 .routine none) = .ok (answer, c) ∧
    c.Conforms ⟨.success, 0, 1, 3, 0x1000⟩ 0 ∧
    c.hear ⟨.success, 0, 1, 3, 0x1000⟩ 0 = .ok (answer', c') ∧
    c'.finals.length = c'.tds.length ∧ c'.ledger.timesHanded 0 = 1 ∧ c'.NoneLost := by
  obtain ⟨answer, c, hact, htds, hfinals, hreached, hlater⟩ : ∃ answer c,
      act { ledger := { endpoint := Endpoint.smallBulk } } (.submit
        { buffer := some (.zeroed ⟨0⟩ 8) } 0x2000 .routine none) = .ok (answer, c) ∧
      c.tds = [[0x1000]] ∧ c.finals = [] ∧ c.reached = 0 ∧
      ∃ answer' c', c.hear ⟨.success, 0, 1, 3, 0x1000⟩ 0 = .ok (answer', c') ∧
        c'.finals.length = c'.tds.length ∧ c'.ledger.timesHanded 0 = 1 :=
    ⟨_, _, rfl, rfl, rfl, rfl, _, _, rfl, rfl, rfl⟩
  obtain ⟨answer', c', hhear, hall, hhanded⟩ := hlater
  have hconforms : c.Conforms ⟨.success, 0, 1, 3, 0x1000⟩ 0 := by
    constructor
    case not_report => rfl
    case addressed => exact ⟨[0x1000], by rw [htds, hfinals]; rfl, rfl⟩
    case reached_le => exact Nat.le_of_eq hreached
  have hreachable : Reachable c' :=
    .hear (.act (.fresh Endpoint.fresh_smallBulk) rfl hact) hconforms hhear
  exact ⟨answer, answer', c, c', hact, hconforms, hhear, hall, hhanded,
    (no_completion_lost hreachable).1⟩

end Conversation

end UsbHost
