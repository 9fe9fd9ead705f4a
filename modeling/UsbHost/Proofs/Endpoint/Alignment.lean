import UsbHost.Proofs.Endpoint.Plan
import UsbHost.Proofs.Endpoint.Steps
import UsbHost.Proofs.Ring.Operations

/-!
The requests in flight and the transfer ring tell the same story. The TDs of the records, oldest
first, cover the outstanding TRBs of the ring without gap or overlap. A step adds a TD behind the
last one, or takes away the first one as a whole; giving requests back early does not touch TDs.
Hence there is room for every TD that is accepted, and the TRBs of a finished TD are the ones that
are released.
-/

namespace UsbHost

namespace Td

/-- TRBs that a list of TDs takes. -/
def span (tds : List Td) : Nat := tds.foldr (fun td count => td.trbCount + count) 0

@[simp] theorem span_nil : span [] = 0 := rfl

@[simp] theorem span_cons (td : Td) (tds : List Td) : span (td :: tds) = td.trbCount + span tds :=
  rfl

@[simp] theorem span_append (tds tds' : List Td) : span (tds ++ tds') = span tds + span tds' := by
  induction tds with
  | nil => simp
  | cons td tds ih => simp [ih, Nat.add_assoc]

/-- The TD begins at `start`, is not empty, and knows the address of its last TRB. -/
structure At (ring : ProducerRing) (start : Nat) (td : Td) : Prop where
  firstIndex_eq : td.firstIndex = start
  one_le_trbCount : 1 ≤ td.trbCount
  lastTrb_eq : td.lastTrb = ring.addressAt ((start + td.trbCount - 1) % ring.capacity)

/-- The TDs follow each other on the ring from `start` on. -/
def Tile (ring : ProducerRing) : Nat → List Td → Prop
  | _, [] => True
  | start, td :: tds => td.At ring start ∧ Tile ring ((start + td.trbCount) % ring.capacity) tds

theorem tile_append {ring : ProducerRing} {start : Nat} {tds : List Td} {td : Td}
    (hstart : start < ring.capacity) :
    Tile ring start (tds ++ [td]) ↔
      Tile ring start tds ∧ td.At ring ((start + span tds) % ring.capacity) := by
  induction tds generalizing start with
  | nil => simp [Tile, Nat.mod_eq_of_lt hstart]
  | cons first tds ih =>
    simp [Tile, ih (Nat.mod_lt _ (by omega)), Nat.add_assoc, and_assoc]

theorem Tile.next_eq {ring : ProducerRing} {start : Nat} {tds : List Td}
    (h : Tile ring start tds) {i : Nat} {td td' : Td} (htd : tds[i]? = some td)
    (htd' : tds[i + 1]? = some td') :
    td'.firstIndex = (td.firstIndex + td.trbCount) % ring.capacity := by
  induction tds generalizing start i with
  | nil => simp at htd
  | cons first tds ih =>
    obtain ⟨hat, hrest⟩ := h
    rw [List.getElem?_cons_succ] at htd'
    cases i with
    | zero =>
      obtain rfl : first = td := by simpa using htd
      cases tds with
      | nil => simp at htd'
      | cons second tds =>
        obtain rfl : second = td' := by simpa using htd'
        rw [hrest.1.firstIndex_eq, hat.firstIndex_eq]
    | succ i =>
      rw [List.getElem?_cons_succ] at htd
      exact ih hrest htd htd'

theorem Tile.at_of_mem {ring : ProducerRing} {start : Nat} {tds : List Td}
    (h : Tile ring start tds) {td : Td} (htd : td ∈ tds) : td.At ring td.firstIndex := by
  induction tds generalizing start with
  | nil => cases htd
  | cons first tds ih =>
    obtain ⟨hat, hrest⟩ := h
    rcases List.mem_cons.1 htd with rfl | htd
    · rwa [hat.firstIndex_eq]
    · exact ih hrest htd

/-- Where TDs lie depends on the memory of the ring alone. -/
theorem Tile.congr {ring ring' : ProducerRing} (hbase : ring'.base = ring.base)
    (hcapacity : ring'.capacity = ring.capacity) {start : Nat} {tds : List Td}
    (h : Tile ring start tds) : Tile ring' start tds := by
  induction tds generalizing start with
  | nil => trivial
  | cons td tds ih =>
    obtain ⟨hat, hrest⟩ := h
    refine ⟨⟨hat.firstIndex_eq, hat.one_le_trbCount, ?_⟩, ?_⟩
    · rw [hat.lastTrb_eq, ProducerRing.addressAt, ProducerRing.addressAt, hbase, hcapacity]
    · rw [hcapacity]
      exact ih hrest

end Td

namespace Endpoint

open ProducerRing

variable {ρ : Type} {e e' : Endpoint ρ}

/-- TDs in flight, oldest first. -/
def tds (e : Endpoint ρ) : List Td := e.inFlight.map InFlight.td

/-- The TDs in flight are the outstanding TRBs of the ring. -/
structure Aligned (e : Endpoint ρ) : Prop where
  wellFormed : e.ring.WellFormed
  window_le : e.inFlight.length ≤ e.window
  tile : Td.Tile e.ring e.ring.dequeueIndex e.tds
  span_eq : Td.span e.tds = e.ring.outstanding

/-! ### Enqueueing a TD -/

/-- TRBs for which there is room are all taken. -/
theorem enqueueAll_eq {ring : ProducerRing} (hr : ring.WellFormed) {trbs : List Trb}
    (hroom : ring.outstanding + trbs.length ≤ ring.capacity - 1) (last : UInt64) :
    enqueueAll ring last trbs = .ok (if trbs = [] then last else
      ring.addressAt ((ring.enqueueIndex + trbs.length - 1) % ring.capacity),
      ring.acceptAll trbs) := by
  induction trbs generalizing ring last with
  | nil => rfl
  | cons t trbs ih =>
    rw [List.length_cons] at hroom
    have hfull : ¬ ring.isFull = true := by
      rw [isFull_iff hr]
      omega
    have hrest := ih (hr.accept t) (room_accept hr hroom t) (ring.addressAt ring.enqueueIndex)
    rw [enqueueAll, enqueue_eq hr, if_neg hfull]
    change enqueueAll (ring.accept t) (ring.addressAt ring.enqueueIndex) trbs = _
    rw [hrest, if_neg (List.cons_ne_nil _ _), acceptAll_cons]
    -- The address of the last TRB is that of `t` only if nothing comes after it.
    split
    · rename_i hnil
      rw [hnil, List.length_singleton, Nat.add_sub_cancel, Nat.mod_eq_of_lt hr.enqueue_lt]
    · rename_i hne
      have hpos : 1 ≤ trbs.length := List.length_pos_iff.2 hne
      have hindex : ring.next ring.enqueueIndex + trbs.length - 1 =
          ring.next ring.enqueueIndex + (trbs.length - 1) := by omega
      have hlast : ring.enqueueIndex + (trbs.length + 1) - 1 =
          ring.enqueueIndex + 1 + (trbs.length - 1) := by omega
      rw [addressAt_accept, capacity_accept, enqueueIndex_accept hr, List.length_cons, hindex,
        hlast, next, Nat.mod_add_mod]

theorem valid_of_refusal? {plan : TdPlan} (h : e.refusal? plan = none) : e.valid = true := by
  unfold refusal? at h
  split at h
  · cases h
  · rename_i hvalid
    simpa using hvalid

/-- What is not refused fits. -/
theorem room_of_refusal? {plan : TdPlan} (hr : e.ring.WellFormed)
    (h : e.refusal? plan = none) :
    e.inFlight.length < e.window ∧
      e.ring.outstanding + plan.trbs.length ≤ e.ring.capacity - 1 := by
  have hout := outstanding_lt hr
  rw [refusal?, valid_of_refusal? h] at h
  simp only [Bool.not_true, Bool.false_eq_true, if_false] at h
  split at h
  · cases h
  · rename_i hwindow
    split at h
    · cases h
    · split at h
      · cases h
      · rename_i hfree
        rw [freeSlots] at hfree
        exact ⟨Nat.lt_of_not_le hwindow, by omega⟩

/-! ### Alignment is kept -/

theorem Aligned.of_same_tds (h : e.Aligned) (hring : e'.ring = e.ring)
    (hwindow : e'.window = e.window) (htds : e'.tds = e.tds) : e'.Aligned := by
  have hlength : e'.inFlight.length = e.inFlight.length := by
    simpa [tds] using congrArg List.length htds
  constructor
  · rw [hring]
    exact h.wellFormed
  · rw [hlength, hwindow]
    exact h.window_le
  · rw [hring, htds]
    exact h.tile
  · rw [hring, htds]
    exact h.span_eq

/-- The TD of an accepted request comes to lie behind the last one. -/
theorem Aligned.accept (h : e.Aligned) {request : Request ρ} {data : UInt64} {notify : Notify}
    {deadline : Option UInt64} {plan : TdPlan} {lastTrb : UInt64} {ring : ProducerRing}
    (hplan : (TdPlan.ofRequest e.kind request data).run = .ok (.ok plan))
    (hroom : e.refusal? plan = none)
    (henqueue : enqueueAll e.ring 0 plan.trbs = .ok (lastTrb, ring)) :
    Aligned { e with
      nextRequest := e.nextRequest + 1
      ring := ring
      inFlight := e.inFlight ++ [e.record plan request notify deadline lastTrb] } := by
  have hr := h.wellFormed
  have hne := TdPlan.trbs_ne_nil hplan
  obtain ⟨hwindow, hfits⟩ := room_of_refusal? hr hroom
  rw [enqueueAll_eq hr hfits, if_neg hne, Except.ok.injEq, Prod.mk.injEq] at henqueue
  obtain ⟨rfl, rfl⟩ := henqueue
  constructor
  case wellFormed => exact hr.acceptAll _
  case window_le =>
    rw [List.length_append]
    exact hwindow
  case tile =>
    rw [dequeueIndex_acceptAll, tds, List.map_append]
    apply Td.Tile.congr (base_acceptAll _) (capacity_acceptAll _)
    -- The TDs in flight end where the outstanding TRBs do, which is where the new TD begins.
    rw [List.map_singleton, Td.tile_append hr.dequeue_lt]
    refine ⟨h.tile, ?_, List.length_pos_iff.2 hne, ?_⟩
    · change e.ring.enqueueIndex = (_ + Td.span e.tds) % _
      rw [h.span_eq, ← enqueueIndex_eq hr]
    · change _ = e.ring.addressAt (((_ + Td.span e.tds) % _ + plan.trbs.length - 1) % _)
      rw [h.span_eq, ← enqueueIndex_eq hr]
      rfl
  case span_eq =>
    rw [outstanding_acceptAll hr hfits, tds, List.map_append, Td.span_append]
    exact congrArg (· + plan.trbs.length) h.span_eq

section Head

variable {record : InFlight ρ} {rest : List (InFlight ρ)}

theorem Aligned.head_at (h : e.Aligned) (hlist : e.inFlight = record :: rest) :
    record.td.At e.ring e.ring.dequeueIndex := by
  have htile := h.tile
  rw [tds, hlist] at htile
  exact htile.1

theorem Aligned.head_span (h : e.Aligned) (hlist : e.inFlight = record :: rest) :
    record.trbCount + Td.span (rest.map InFlight.td) = e.ring.outstanding := by
  rw [← h.span_eq, tds, hlist]
  rfl

/-- Releasing up to the last TRB of the oldest TD releases this TD. -/
theorem Aligned.releaseThrough_head (h : e.Aligned) (hlist : e.inFlight = record :: rest) :
    e.ring.releaseThrough record.lastTrb = .ok (record.trbCount, e.ring.drop record.trbCount) := by
  obtain ⟨-, hpos, hlast⟩ := h.head_at hlist
  change record.lastTrb = _ at hlast
  rw [hlast]
  have hspan := h.head_span hlist
  exact releaseThrough_eq h.wellFormed hpos (by change record.trbCount ≤ _; omega)

theorem Aligned.eq_drop_of_release (h : e.Aligned) (hlist : e.inFlight = record :: rest)
    {released : Nat} {ring : ProducerRing}
    (hrelease : e.ring.releaseThrough record.lastTrb = .ok (released, ring)) :
    ring = e.ring.drop record.trbCount := by
  rw [h.releaseThrough_head hlist, Except.ok.injEq, Prod.mk.injEq] at hrelease
  exact hrelease.2.symm

/-- When the oldest TD goes, the next one is the oldest. -/
theorem Aligned.finish (h : e.Aligned) (hlist : e.inFlight = record :: rest) {released : Nat}
    {ring : ProducerRing} (hrelease : e.ring.releaseThrough record.lastTrb = .ok (released, ring)) :
    Aligned { e with ring := ring, inFlight := rest } := by
  obtain rfl := h.eq_drop_of_release hlist hrelease
  have hspan := h.head_span hlist
  have hwindow := h.window_le
  have htile := h.tile
  rw [hlist, List.length_cons] at hwindow
  rw [tds, hlist] at htile
  constructor
  case wellFormed => exact h.wellFormed.drop _
  case window_le => exact Nat.le_of_succ_le hwindow
  case tile =>
    change Td.Tile (e.ring.drop _) ((_ + record.td.trbCount) % _) _
    refine Td.Tile.congr ?_ ?_ htile.2 <;> rfl
  case span_eq =>
    change Td.span (rest.map InFlight.td) = (e.ring.drop record.trbCount).outstanding
    rw [outstanding_drop h.wellFormed (by omega)]
    omega

end Head

/-- An endpoint in order: aligned as long as it is valid, and without records afterwards. -/
structure Sound (e : Endpoint ρ) : Prop where
  aligned : e.valid = true → e.Aligned
  inFlight_eq_nil : e.valid = false → e.inFlight = []

/-- An endpoint that has been shut down has no records. -/
theorem Sound.valid_of_inFlight (h : e.Sound) {record : InFlight ρ} {rest : List (InFlight ρ)}
    (hlist : e.inFlight = record :: rest) : e.valid = true := by
  rw [← Bool.not_eq_false]
  intro hinvalid
  simpa [hlist] using h.inFlight_eq_nil hinvalid

theorem sound_of_fresh (h : Fresh e) : e.Sound := by
  obtain ⟨owner, traits, config, base, hlayout, hfits⟩ := h
  have hcount : 3 ≤ config.transferRingSize :=
    Nat.le_trans (by decide) (Ring.layout_bounds hlayout).1
  have hr := wellFormed_create .transfer hcount hfits
  refine ⟨fun _ => ⟨hr, Nat.zero_le _, trivial, ?_⟩, fun _ => rfl⟩
  change 0 = (ProducerRing.create .transfer config.transferRingSize base).outstanding
  rw [outstanding_eq hr]
  simp [ProducerRing.create]

theorem Sound.setPacketSize (h : e.Sound) (size : UInt16) :
    Sound { e with maxPacketSize := size } :=
  ⟨fun hvalid => (h.aligned hvalid).of_same_tds rfl rfl rfl, h.inFlight_eq_nil⟩

theorem Sound.withdraws (h : e.Sound) {failure : TransferFailure} {due : InFlight ρ → Prop}
    {records : List (InFlight ρ)} {ds : List (Delivery ρ)}
    (hwithdraws : Withdraws failure due e.inFlight ds records) :
    Sound { e with inFlight := records } := by
  refine ⟨fun hvalid => ?_, fun hinvalid => ?_⟩
  · exact (h.aligned hvalid).of_same_tds rfl rfl hwithdraws.map_td
  · have hnil := hwithdraws.map_td
    rw [h.inFlight_eq_nil hinvalid] at hnil
    exact List.map_eq_nil_iff.1 hnil

theorem Sound.transition (h : e.Sound) {op : Op ρ} {reply : Reply} {ds : List (Delivery ρ)}
    (ht : Transition e op reply ds e') : e'.Sound := by
  cases ht with
  | unplanned => exact h
  | refused => exact ⟨fun hvalid => (h.aligned hvalid).of_same_tds rfl rfl rfl, h.inFlight_eq_nil⟩
  | accepted plan lastTrb ring hplan hroom henqueue =>
    have hvalid := valid_of_refusal? hroom
    exact ⟨fun _ => (h.aligned hvalid).accept hplan hroom henqueue,
      fun hinvalid => absurd hvalid (by simpa using hinvalid)⟩
  | stale => exact h
  | advanced event record record' rest position _ hlist _ hadvance =>
    have htd := (InFlight.advance_frame_of_eq hadvance).1
    refine ⟨fun hvalid => (h.aligned hvalid).of_same_tds rfl rfl ?_, fun hinvalid => ?_⟩
    · rw [tds, tds, hlist, List.map_cons, List.map_cons, htd]
    · exact absurd (h.inFlight_eq_nil hinvalid) (by simp [hlist])
  | finished event record record' rest position released outcome ring _ hlist _ _ hrelease =>
    refine ⟨fun hvalid => (h.aligned hvalid).finish hlist hrelease, fun hinvalid => ?_⟩
    exact absurd (h.inFlight_eq_nil hinvalid) (by simp [hlist])
  | givenBack id failure => exact h.withdraws (withdraws_giveBack e id failure)
  | expired now => exact h.withdraws (withdraws_expire e now)
  | invalidated => exact ⟨fun hvalid => (nomatch hvalid), fun _ => rfl⟩

theorem sound_of_reachable (h : Reachable e) : e.Sound := by
  induction h with
  | fresh h => exact sound_of_fresh h
  | step _ hstep ih => exact ih.transition (transition_of_step hstep)

/-! ### Steps do not fault -/

theorem Sound.transferEvent_ok (h : e.Sound) (event : TransferEvent) :
    ∃ delivery e', e.transferEvent event = .ok (delivery, e') := by
  unfold transferEvent
  split
  · exact ⟨_, _, rfl⟩
  · split
    · exact ⟨_, _, rfl⟩
    · rename_i record rest hlist
      have hvalid := h.valid_of_inFlight hlist
      split
      · exact ⟨_, _, rfl⟩
      · split
        · exact ⟨_, _, rfl⟩
        · rename_i record' outcome hadvance
          have hlast : record'.lastTrb = record.lastTrb :=
            congrArg Td.lastTrb (InFlight.advance_frame_of_eq hadvance).1
          simp only [hlast, (h.aligned hvalid).releaseThrough_head hlist]
          cases record'.cargo with
          | live request notify => exact ⟨_, _, rfl⟩
          | tombstone retained => exact ⟨_, _, rfl⟩

theorem Sound.submitRequest_ok (h : e.Sound) {request : Request ρ} {data : UInt64}
    {planned : Except Error TdPlan}
    (hplan : (TdPlan.ofRequest e.kind request data).run = .ok planned)
    (notify : Notify) (deadline : Option UInt64) :
    ∃ result e', e.submitRequest request data notify deadline = .ok (result, e') := by
  rw [submitRequest, hplan]
  cases planned with
  | error error => exact ⟨_, _, rfl⟩
  | ok plan =>
    change ∃ result e', e.submit plan request notify deadline = .ok (result, e')
    simp only [submit]
    split
    · exact ⟨_, _, rfl⟩
    · rename_i hroom
      have hr := (h.aligned (valid_of_refusal? hroom)).wellFormed
      rw [enqueueAll_eq hr (room_of_refusal? hr hroom).2]
      exact ⟨_, _, rfl⟩

/-- A step faults only where a request has no bus addresses. -/
theorem Sound.step_ok (h : e.Sound) (op : Op ρ) :
    (∃ answer e', e.step op = .ok (answer, e')) ∨
      ∃ request data notify deadline fault, op = .submit request data notify deadline ∧
        (TdPlan.ofRequest e.kind request data).run = .error fault := by
  cases op with
  | submit request data notify deadline =>
    cases hplan : (TdPlan.ofRequest e.kind request data).run with
    | error fault => exact .inr ⟨_, _, _, _, fault, rfl, hplan⟩
    | ok planned =>
      obtain ⟨result, e', hsubmit⟩ := h.submitRequest_ok hplan notify deadline
      exact .inl ⟨(.submitted result, []), e', by rw [step, hsubmit]; rfl⟩
  | event event =>
    obtain ⟨delivery, e', hevent⟩ := h.transferEvent_ok event
    exact .inl ⟨(.handled, delivery.toList), e', by rw [step, hevent]; rfl⟩
  | giveBack id failure => exact .inl ⟨_, _, rfl⟩
  | expire now => exact .inl ⟨_, _, rfl⟩
  | invalidate => exact .inl ⟨_, _, rfl⟩

/-! ### Alignment, record by record -/

/-- The records in flight, the ring, and what submitting and finishing do to them. -/
structure InStep (e : Endpoint ρ) : Prop where
  window_le : e.inFlight.length ≤ e.window
  first_eq : ∀ r ∈ e.inFlight.head?, r.firstIndex = e.ring.dequeueIndex
  next_eq : ∀ (i : Nat) (r s : InFlight ρ), e.inFlight[i]? = some r →
    e.inFlight[i + 1]? = some s → s.firstIndex = (r.firstIndex + r.trbCount) % e.ring.capacity
  one_le_trbCount : ∀ r ∈ e.inFlight, 1 ≤ r.trbCount
  lastTrb_eq : ∀ r ∈ e.inFlight,
    e.ring.address ((r.firstIndex + r.trbCount - 1) % e.ring.capacity) = .ok r.lastTrb
  sum_eq : e.inFlight.foldr (fun r count => r.trbCount + count) 0 = e.ring.outstanding
  outstanding_le : e.ring.outstanding ≤ e.ring.capacity - 1
  /-- The ring is not full before any TRB of a TD that is not refused. -/
  room : ∀ plan : TdPlan, e.refusal? plan = none → ∀ k < plan.trbs.length,
    ∃ last ring, enqueueAll e.ring 0 (plan.trbs.take k) = .ok (last, ring) ∧
      ring.isFull = false ∧ ring.outstanding = e.ring.outstanding + k
  /-- What the last TRB of the oldest TD releases is this TD. -/
  release : ∀ r ∈ e.inFlight.head?,
    e.ring.releaseThrough r.lastTrb = .ok (r.trbCount, e.ring.drop r.trbCount)

theorem Aligned.room (h : e.Aligned) {plan : TdPlan} (hroom : e.refusal? plan = none) {k : Nat}
    (hk : k < plan.trbs.length) :
    ∃ last ring, enqueueAll e.ring 0 (plan.trbs.take k) = .ok (last, ring) ∧
      ring.isFull = false ∧ ring.outstanding = e.ring.outstanding + k := by
  have hr := h.wellFormed
  have hfits := (room_of_refusal? hr hroom).2
  have hlength : (plan.trbs.take k).length = k := by
    rw [List.length_take]
    omega
  have hfirst : e.ring.outstanding + (plan.trbs.take k).length ≤ e.ring.capacity - 1 := by omega
  have hout := outstanding_acceptAll hr hfirst
  refine ⟨_, _, enqueueAll_eq hr hfirst 0, ?_, by rw [hout, hlength]⟩
  rw [← Bool.not_eq_true, isFull_iff (hr.acceptAll _), hout, capacity_acceptAll]
  omega

theorem Aligned.inStep (h : e.Aligned) : e.InStep where
  window_le := h.window_le
  first_eq r hr := by
    obtain ⟨rest, hlist⟩ := List.head?_eq_some_iff.1 hr
    exact (h.head_at hlist).firstIndex_eq
  next_eq i r s hi hs := by
    have htd : e.tds[i]? = some r.td := by
      rw [tds, List.getElem?_map, hi]
      rfl
    have htd' : e.tds[i + 1]? = some s.td := by
      rw [tds, List.getElem?_map, hs]
      rfl
    exact h.tile.next_eq htd htd'
  one_le_trbCount r hr := (h.tile.at_of_mem (List.mem_map_of_mem hr)).one_le_trbCount
  lastTrb_eq r hr := by
    have hlast := (h.tile.at_of_mem (List.mem_map_of_mem hr)).lastTrb_eq
    have hlt := h.wellFormed.enqueue_lt
    rw [address_eq h.wellFormed (Nat.le_of_lt (Nat.mod_lt _ (by omega)))]
    exact congrArg Except.ok hlast.symm
  sum_eq := by
    rw [← h.span_eq, Td.span, tds, List.foldr_map]
    rfl
  outstanding_le := by
    have := outstanding_lt h.wellFormed
    omega
  room plan hroom k hk := h.room hroom hk
  release r hr := by
    obtain ⟨rest, hlist⟩ := List.head?_eq_some_iff.1 hr
    exact h.releaseThrough_head hlist

/-- As long as an endpoint is valid, its requests in flight and its ring are in step, after any
steps whatsoever; and no step ends in a fault, unless a request has no bus addresses. -/
theorem in_step_of_reachable (h : Reachable e) :
    (e.valid = true → e.InStep) ∧
      ∀ op : Op ρ, (∃ answer e', e.step op = .ok (answer, e')) ∨
        ∃ request data notify deadline fault, op = .submit request data notify deadline ∧
          (TdPlan.ofRequest e.kind request data).run = .error fault := by
  have hsound := sound_of_reachable h
  exact ⟨fun hvalid => (hsound.aligned hvalid).inStep, hsound.step_ok⟩

/-- A request of eight bytes in flight on the smallest ring. -/
theorem in_step_one_request : ∃ answer e', smallBulk.step (.submit
      { buffer := some (.zeroed ⟨0⟩ 8) } 0x2000 .routine none) = .ok (answer, e') ∧
    e'.inFlight.length = 1 ∧ (e'.valid = true → e'.InStep) ∧
    ∀ op : Op Unit, (∃ answer e'', e'.step op = .ok (answer, e'')) ∨
      ∃ request data notify deadline fault, op = .submit request data notify deadline ∧
        (TdPlan.ofRequest e'.kind request data).run = .error fault := by
  obtain ⟨answer, e', hstep, hone⟩ : ∃ answer e', smallBulk.step (.submit
      { buffer := some (.zeroed ⟨0⟩ 8) } 0x2000 .routine none) = .ok (answer, e') ∧
      e'.inFlight.length = 1 := ⟨_, _, rfl, rfl⟩
  exact ⟨answer, e', hstep, hone, in_step_of_reachable (.step (.fresh fresh_smallBulk) hstep)⟩

end Endpoint

end UsbHost
