import UsbHost.Proofs.Endpoint.Placement
import UsbHost.Proofs.Host.Handover

/-!
Transfer events find the oldest TD. An event names a TRB by its address. It concerns the oldest
request in flight exactly if this is one of the addresses at which the TRBs of this request were put
on the ring, and then it concerns that TRB. All other events leave the endpoint and the world
alone: those at other addresses, whatever lies there, and reports that the ring has run empty or
full.
-/

namespace UsbHost

variable {ρ : Type}

namespace InFlight

variable {r : InFlight ρ} {ring : ProducerRing} {address : UInt64} {k : Nat}

/-- The place `k` of a TD is found at its address and nowhere else. -/
theorem position?_eq_some (hr : ring.WellFormed) (hfirst : r.firstIndex < ring.capacity)
    (hcount : r.trbCount ≤ ring.capacity) : r.position? ring address = some k ↔
      k < r.trbCount ∧ address = ring.addressAt ((r.firstIndex + k) % ring.capacity) := by
  constructor
  · intro h
    obtain ⟨index, hindex, h⟩ := Option.bind_eq_some_iff.1 h
    rw [guard_bind, Option.ite_none_right_eq_some] at h
    obtain ⟨hlt, h⟩ := h
    rw [guard_bind, Option.ite_none_right_eq_some] at h
    obtain ⟨hposition, h⟩ := h
    cases h
    obtain ⟨-, rfl⟩ := ProducerRing.eq_addressAt hr hindex
    refine ⟨hposition, ?_⟩
    have hback : (r.firstIndex + (index + ring.capacity - r.firstIndex) % ring.capacity) %
        ring.capacity = index := by
      rw [Nat.add_mod_mod, Nat.add_sub_cancel' (by omega), Nat.add_mod_right,
        Nat.mod_eq_of_lt hlt]
    rw [hback]
  · rintro ⟨hk, rfl⟩
    exact position?_addressAt hr hfirst hk hcount

end InFlight

namespace Endpoint

variable {e : Endpoint ρ} {event : TransferEvent} {record : InFlight ρ}
  {rest : List (InFlight ρ)} {k : Nat}

/-- What an event at TRB `k` of the oldest TD does. -/
def applied (e : Endpoint ρ) (record : InFlight ρ) (rest : List (InFlight ρ)) (k : Nat)
    (event : TransferEvent) : Option (Delivery ρ) × Endpoint ρ :=
  match record.advance e.kind k event with
  | (record', none) => (none, { e with inFlight := record' :: rest })
  | (_, some outcome) => ((deliveries record outcome).head?,
      { e with ring := e.ring.drop record.trbCount, inFlight := rest })

theorem applied_of_none {record' : InFlight ρ}
    (h : record.advance e.kind k event = (record', none)) :
    e.applied record rest k event = (none, { e with inFlight := record' :: rest }) := by
  rw [applied, h]

theorem applied_of_some {outcome : Outcome} (h : (record.advance e.kind k event).2 = some outcome) :
    e.applied record rest k event = ((deliveries record outcome).head?,
      { e with ring := e.ring.drop record.trbCount, inFlight := rest }) := by
  rw [applied]
  rcases hadvance : record.advance e.kind k event with ⟨record', _ | outcome'⟩
  · rw [hadvance] at h
    cases h
  · rw [hadvance] at h
    cases h
    rfl

theorem transferEvent_applied (haligned : e.Aligned) (hlist : e.inFlight = record :: rest)
    (hreport : event.code.isRingReport = false)
    (hposition : record.position? e.ring event.address = some k) :
    e.transferEvent event = .ok (e.applied record rest k event) := by
  rw [transferEvent, hreport, hlist, applied]
  simp only [Bool.false_eq_true, if_false, hposition]
  rcases hadvance : record.advance e.kind k event with ⟨record', _ | outcome⟩
  · rfl
  · obtain ⟨htd, hcargo⟩ := InFlight.advance_frame_of_eq hadvance
    have hlast : record'.lastTrb = record.lastTrb := congrArg Td.lastTrb htd
    simp only [hlast, haligned.releaseThrough_head hlist, hcargo, deliveries]
    cases record.cargo with
    | live request notify => rfl
    | tombstone retained => rfl

/-- The event changes nothing, neither the endpoint nor the world around it. -/
structure Ignores (e : Endpoint ρ) (event : TransferEvent) : Prop where
  transferEvent_eq : e.transferEvent event = .ok (none, e)
  world_eq : ∀ {σ : Type} (env : Env σ ρ) (ref : EndpointRef) (w : World σ ρ),
    w.endpoints[ref.index]? = some e → Host.transferEvent env ref event w = .ok () w

theorem ignores_of_eq (h : e.transferEvent event = .ok (none, e)) : e.Ignores event where
  transferEvent_eq := h
  world_eq env ref w hw := by
    rw [Host.transferEvent_eq hw h, World.put_self hw]
    rfl

theorem ignores_report (h : event.code.isRingReport = true) : e.Ignores event :=
  ignores_of_eq (by rw [transferEvent, if_pos h])

theorem ignores_idle (h : e.inFlight = []) : e.Ignores event := by
  refine ignores_of_eq ?_
  rw [transferEvent, h]
  split <;> rfl

theorem ignores_elsewhere (hlist : e.inFlight = record :: rest)
    (hposition : record.position? e.ring event.address = none) : e.Ignores event := by
  refine ignores_of_eq ?_
  rw [transferEvent, hlist]
  split
  · rfl
  · simp only [hposition]

/-! ### Places elsewhere -/

/-- Addresses at which an event may be reported by mistake, when the TDs of `younger` have been put
on the ring behind the oldest one. -/
inductive Elsewhere (ring : ProducerRing) (younger : List (Placement ρ)) (address : UInt64) : Prop
  | below (h : address < ring.base)
  | beyond (h : ring.base.toNat + ring.trbs.size * Trb.byteSize ≤ address.toNat)
  | misaligned (h : (address - ring.base).toNat % Trb.byteSize ≠ 0)
  | link (h : address = ring.addressAt ring.capacity)
  | younger (p : Placement ρ) (hp : p ∈ younger) (h : address ∈ p.addresses)
  /-- The TRB has been released, or has never been used. -/
  | vacant (index : Nat) (hindex : index < ring.capacity)
      (hvacant : ring.isOutstanding index = false) (h : address = ring.addressAt index)

end Endpoint

/-- Behind some TDs begins the next one. -/
theorem Td.Tile.firstIndex_eq {ring : ProducerRing} {start : Nat} {tds tds' : List Td} {td : Td}
    (h : Td.Tile ring start (tds ++ td :: tds')) (hstart : start < ring.capacity) :
    td.firstIndex = (start + Td.span tds) % ring.capacity := by
  induction tds generalizing start with
  | nil =>
    simp [h.1.firstIndex_eq, Nat.mod_eq_of_lt hstart]
  | cons first tds ih =>
    simp [ih h.2 (Nat.mod_lt _ (by omega)), Nat.add_assoc]

namespace Endpoint

variable {e : Endpoint ρ} {event : TransferEvent} {record : InFlight ρ}
  {rest : List (InFlight ρ)} {younger : List (Placement ρ)} {address : UInt64} {k : Nat}

/-- The TRBs of younger TDs lie behind those of the oldest one. -/
theorem address_of_younger (haligned : e.Aligned) (hlist : e.inFlight = record :: rest)
    (hyounger : List.Forall₂ (Placement.Of e.ring e.kind) younger rest) {p : Placement ρ}
    (hp : p ∈ younger) (haddress : address ∈ p.addresses) :
    ∃ j, record.trbCount ≤ j ∧ j < e.ring.outstanding ∧
      address = e.ring.addressAt ((e.ring.dequeueIndex + j) % e.ring.capacity) := by
  obtain ⟨between, r, later, hof, rfl⟩ : ∃ between r later,
      p.Of e.ring e.kind r ∧ rest = between ++ r :: later := by
    obtain ⟨before, after, rfl⟩ := List.append_of_mem hp
    have hdrop := List.forall₂_drop before.length hyounger
    rw [List.drop_left, List.forall₂_cons_left_iff] at hdrop
    obtain ⟨r, later, hof, -, hrest⟩ := hdrop
    exact ⟨rest.take before.length, r, later, hof, by rw [← hrest, List.take_append_drop]⟩
  obtain ⟨i, hi, rfl⟩ := List.mem_iff_getElem.1 haddress
  have hat := hof.address_eq i _ (List.getElem?_eq_getElem hi)
  -- the TD begins behind the oldest one and those between the two
  have htds : e.tds = (record.td :: between.map InFlight.td) ++ r.td :: later.map InFlight.td := by
    rw [tds, hlist]
    simp
  have htile := haligned.tile
  have hspan := haligned.span_eq
  rw [htds] at htile hspan
  have hfirst : r.firstIndex = _ := htile.firstIndex_eq haligned.wellFormed.dequeue_lt
  rw [Td.span_append, Td.span_cons, Td.span_cons] at hspan
  rw [hof.length_eq, ← hof.trbCount_eq] at hi
  change record.trbCount + _ + (r.trbCount + _) = _ at hspan
  refine ⟨record.trbCount + Td.span (between.map InFlight.td) + i, by omega, by omega, ?_⟩
  rw [hat, hfirst, Nat.mod_add_mod, Nat.add_assoc]
  rfl

/-- None of these places is one of the oldest TD. -/
theorem Elsewhere.ne_addressAt (h : Elsewhere e.ring younger address) (haligned : e.Aligned)
    (hlist : e.inFlight = record :: rest)
    (hyounger : List.Forall₂ (Placement.Of e.ring e.kind) younger rest) (hk : k < record.trbCount) :
    address ≠ e.ring.addressAt ((e.ring.dequeueIndex + k) % e.ring.capacity) := by
  have hr := haligned.wellFormed
  have hspan := haligned.head_span hlist
  have hout := ProducerRing.outstanding_lt hr
  have hindex : (e.ring.dequeueIndex + k) % e.ring.capacity < e.ring.capacity :=
    Nat.mod_lt _ (by omega)
  have hnat := ProducerRing.toNat_addressAt hr (Nat.le_of_lt hindex)
  intro heq
  cases h with
  | below hbelow =>
    rw [heq, UInt64.lt_iff_toNat_lt, hnat] at hbelow
    omega
  | beyond hbeyond =>
    rw [heq, hnat, hr.size_eq] at hbeyond
    simp only [Trb.byteSize] at hbeyond
    omega
  | misaligned hmisaligned =>
    have hoffset : (address - e.ring.base).toNat =
        (e.ring.dequeueIndex + k) % e.ring.capacity * Trb.byteSize := by
      have hle : e.ring.base ≤ address := by
        rw [heq, UInt64.le_iff_toNat_le, hnat]
        exact Nat.le_add_right _ _
      rw [UInt64.toNat_sub_of_le _ _ hle, heq, hnat, Nat.add_sub_cancel_left]
    exact hmisaligned (by rw [hoffset, Nat.mul_mod_left])
  | link hlink =>
    have hsame := ProducerRing.addressAt_inj hr (Nat.le_refl _) (Nat.le_of_lt hindex)
      (hlink.symm.trans heq)
    omega
  | younger p hp hmem =>
    obtain ⟨j, hj, hlt, hat⟩ := address_of_younger haligned hlist hyounger hp hmem
    have hsame := ProducerRing.addressAt_inj hr (Nat.le_of_lt hindex)
      (Nat.le_of_lt (Nat.mod_lt _ (by omega))) (heq.symm.trans hat)
    have hdistance := congrArg e.ring.distance hsame
    rw [ProducerRing.distance_place hr (by omega), ProducerRing.distance_place hr (by omega)]
      at hdistance
    omega
  | vacant index hlt hvacant hat =>
    have hsame := ProducerRing.addressAt_inj hr (Nat.le_of_lt hlt) (Nat.le_of_lt hindex)
      (hat.symm.trans heq)
    have hdistance := ProducerRing.distance_place hr (show k < e.ring.capacity by omega)
    rw [ProducerRing.isOutstanding, hsame, hdistance, decide_eq_true hindex, Bool.true_and,
      decide_eq_false_iff_not] at hvacant
    omega

/-! ### The oldest TD -/

/-- What an event does when `p` is the oldest TD in flight, and `younger` are the ones behind it. -/
structure Answers (e : Endpoint ρ) (event : TransferEvent) (record : InFlight ρ)
    (rest : List (InFlight ρ)) (p : Placement ρ) (younger : List (Placement ρ)) : Prop where
  head_of : p.Of e.ring e.kind record
  rest_of : List.Forall₂ (Placement.Of e.ring e.kind) younger rest
  /-- The position that the endpoint computes is the place of the address among those of the TD. -/
  position_iff : ∀ k, record.position? e.ring event.address = some k ↔
    p.addresses[k]? = some event.address
  applied : event.code.isRingReport = false → ∀ k, p.addresses[k]? = some event.address →
    e.transferEvent event = .ok (e.applied record rest k event)
  ignored : event.address ∉ p.addresses → e.Ignores event
  elsewhere : Elsewhere e.ring younger event.address → event.address ∉ p.addresses

theorem Tallies.oldest {ps : List (Placement ρ)} (h : Tallies ps e)
    (hlist : e.inFlight = record :: rest) : ∃ gone p younger, ps = gone ++ p :: younger ∧
      p.Of e.ring e.kind record ∧ List.Forall₂ (Placement.Of e.ring e.kind) younger rest := by
  obtain ⟨gone, present, rfl, hpresent⟩ := h.last_eq
  rw [hlist] at hpresent
  obtain _ | @⟨p, _, younger, _, hp, hyounger⟩ := hpresent
  exact ⟨gone, p, younger, rfl, hp, hyounger⟩

variable {p : Placement ρ}

/-- The place of an address in the TD is its place among the addresses of the TD. -/
theorem position?_eq_iff (haligned : e.Aligned) (hlist : e.inFlight = record :: rest)
    (hp : p.Of e.ring e.kind record) (address : UInt64) (k : Nat) :
    record.position? e.ring address = some k ↔ p.addresses[k]? = some address := by
  have hr := haligned.wellFormed
  have hspan := haligned.head_span hlist
  have hout := ProducerRing.outstanding_lt hr
  have hfirst : record.firstIndex = e.ring.dequeueIndex := (haligned.head_at hlist).firstIndex_eq
  rw [InFlight.position?_eq_some hr (hfirst ▸ hr.dequeue_lt) (by omega), hp.trbCount_eq,
    ← hp.length_eq]
  constructor
  · rintro ⟨hk, haddress⟩
    have hat := List.getElem?_eq_getElem hk
    rw [hat, haddress, hp.address_eq k _ hat]
  · intro hat
    exact ⟨(List.getElem?_eq_some_iff.1 hat).1, hp.address_eq k _ hat⟩

theorem answers_of_aligned (haligned : e.Aligned) (hlist : e.inFlight = record :: rest)
    (hp : p.Of e.ring e.kind record)
    (hyounger : List.Forall₂ (Placement.Of e.ring e.kind) younger rest) (event : TransferEvent) :
    e.Answers event record rest p younger := by
  have hfirst : record.firstIndex = e.ring.dequeueIndex := (haligned.head_at hlist).firstIndex_eq
  have hposition := position?_eq_iff haligned hlist hp event.address
  refine ⟨hp, hyounger, hposition, ?applied, ?ignored, ?elsewhere⟩
  case applied =>
    exact fun hreport k hat => transferEvent_applied haligned hlist hreport ((hposition k).2 hat)
  case ignored =>
    intro hmem
    refine ignores_elsewhere hlist (Option.eq_none_iff_forall_ne_some.2 fun k hk => hmem ?_)
    exact List.mem_of_getElem? ((hposition k).1 hk)
  case elsewhere =>
    intro helsewhere hmem
    obtain ⟨k, hk, hat⟩ := List.mem_iff_getElem.1 hmem
    rw [← hat] at helsewhere
    have hcount : k < record.trbCount := by rwa [hp.trbCount_eq, ← hp.length_eq]
    refine helsewhere.ne_addressAt haligned hlist hyounger hcount ?_
    rw [hp.address_eq k _ (List.getElem?_eq_getElem hk), hfirst]

/-- An event finds the oldest TD in flight by the address of one of its TRBs, and that TRB by the
place of the address among those at which the TRBs were put. A report on the ring, an event when
nothing is in flight, and an event at any other address, as below the ring or beyond it, between
two TRBs, at the Link TRB, in a younger TD, or at a place that has been released or never used, is
ignored. -/
theorem event_finds_oldest {ps : List (Placement ρ)} (h : Placed ps e) (event : TransferEvent) :
    (event.code.isRingReport = true → e.Ignores event) ∧
    (e.inFlight = [] → e.Ignores event) ∧
    ∀ record rest, e.inFlight = record :: rest →
      ∃ gone p younger, ps = gone ++ p :: younger ∧ e.Answers event record rest p younger := by
  refine ⟨ignores_report, ignores_idle, fun record rest hlist => ?_⟩
  have haligned := h.tallies.sound.aligned (h.tallies.sound.valid_of_inFlight hlist)
  obtain ⟨gone, p, younger, hps, hp, hyounger⟩ := h.tallies.oldest hlist
  exact ⟨gone, p, younger, hps, answers_of_aligned haligned hlist hp hyounger event⟩

/-- Of two requests with one TRB each, an event at the first TRB is taken in, and one at the second
TRB is ignored. -/
theorem event_finds_oldest_two_requests : ∃ ps, ∃ e : Endpoint Unit, ∃ record rest, Placed ps e ∧
    e.inFlight = record :: rest ∧ rest.length = 1 ∧
    e.transferEvent ⟨.success, 0, 1, 3, 0x1000⟩ =
      .ok (e.applied record rest 0 ⟨.success, 0, 1, 3, 0x1000⟩) ∧
    e.Ignores ⟨.success, 0, 1, 3, 0x1010⟩ := by
  obtain ⟨e₁, e₂, reply₁, reply₂, ds₁, ds₂, first, second, record, rest, hstep₁, hstep₂, hplaced,
    hfirst, hsecond, hlist, hlength⟩ : ∃ e₁ e₂ reply₁ reply₂ ds₁ ds₂ first second record rest,
      smallBulk.step (.submit { buffer := some (.zeroed ⟨0⟩ 8) } 0x2000 .routine none) =
        .ok ((reply₁, ds₁), e₁) ∧
      e₁.step (.submit { buffer := some (.zeroed ⟨1⟩ 8) } 0x3000 .routine none) =
        .ok ((reply₂, ds₂), e₂) ∧
      [] ++ smallBulk.placed (.submit { buffer := some (.zeroed ⟨0⟩ 8) } 0x2000 .routine none)
        reply₁ ++ e₁.placed (.submit { buffer := some (.zeroed ⟨1⟩ 8) } 0x3000 .routine none)
        reply₂ = [first, second] ∧
      first.addresses = [0x1000] ∧ second.addresses = [0x1010] ∧
      e₂.inFlight = record :: rest ∧ rest.length = 1 :=
    ⟨_, _, _, _, _, _, _, _, _, _, rfl, rfl, rfl, rfl, rfl, rfl, rfl⟩
  have h : Placed _ e₂ := .step (.step (.fresh fresh_smallBulk) hstep₁) hstep₂
  rw [hplaced] at h
  have holdest : ∀ event, ∃ younger, e₂.Answers event record rest first younger := by
    intro event
    obtain ⟨gone, p, younger, hps, hanswers⟩ := (event_finds_oldest h event).2.2 record rest hlist
    have hyounger := hanswers.rest_of.length_eq
    have hgone : gone.length = 0 := by
      have hcount := congrArg List.length hps
      simp only [List.length_append, List.length_cons, List.length_nil] at hcount
      omega
    obtain rfl := List.eq_nil_of_length_eq_zero hgone
    cases hps
    exact ⟨_, hanswers⟩
  obtain ⟨_, htaken⟩ := holdest ⟨.success, 0, 1, 3, 0x1000⟩
  obtain ⟨_, hstale⟩ := holdest ⟨.success, 0, 1, 3, 0x1010⟩
  refine ⟨_, e₂, record, rest, h, hlist, hlength, htaken.applied rfl 0 ?_, hstale.ignored ?_⟩
  · rw [hfirst]
    rfl
  · rw [hfirst]
    decide

end Endpoint

end UsbHost
