import Mathlib.Data.List.Nodup
import UsbHost.Proofs.Endpoint.Ledger
import UsbHost.Proofs.Host.Handover

/-!
Every request is handed over exactly once. From the ledger it is read off where a request can be
and how it gets there: a request that is live has not been handed over, and the step after which it
is live no more hands it over, unless that step shuts the endpoint down. Cancelling finds a request
by its ID, which is good as long as the IDs in flight are distinct.
-/

namespace UsbHost.Ledger

open Endpoint (Op Reply Fresh Transition Withdraws deliveries)

variable {ρ : Type}

/-! ### Request IDs -/

/-- The IDs of `ss` are distinct and come from the first `drawn` draws, unless the counter has gone
through all its values. -/
def Drawn (ss : List (Submission ρ)) (drawn : Nat) : Prop :=
  drawn < UInt64.size → (ss.map fun s => s.id.number.toNat).Pairwise (· < ·) ∧
    ∀ s ∈ ss, s.id.number.toNat ≤ drawn

theorem Drawn.succ {ss : List (Submission ρ)} {drawn : Nat} (h : Drawn ss drawn) :
    Drawn ss (drawn + 1) := by
  intro hlt
  obtain ⟨hpairwise, hle⟩ := h (by omega)
  exact ⟨hpairwise, fun s hs => Nat.le_succ_of_le (hle s hs)⟩

theorem Drawn.append {ss : List (Submission ρ)} {drawn : Nat} (h : Drawn ss drawn)
    {s : Submission ρ} (hs : s.id = ⟨UInt64.ofNat (drawn + 1)⟩) :
    Drawn (ss ++ [s]) (drawn + 1) := by
  intro hlt
  obtain ⟨hpairwise, hle⟩ := h (by omega)
  have hnumber : s.id.number.toNat = drawn + 1 := by
    rw [hs, UInt64.toNat_ofNat', Nat.mod_eq_of_lt hlt]
  constructor
  · rw [List.map_append, List.pairwise_append]
    refine ⟨hpairwise, List.pairwise_singleton _ _, fun a ha b hb => ?_⟩
    obtain ⟨u, hu, rfl⟩ := List.mem_map.1 ha
    obtain rfl := List.mem_singleton.1 hb
    change u.id.number.toNat < s.id.number.toNat
    rw [hnumber]
    exact Nat.lt_succ_of_le (hle u hu)
  · intro u hu
    rcases List.mem_append.1 hu with hu | hu
    · exact Nat.le_succ_of_le (hle u hu)
    · rw [List.mem_singleton.1 hu]
      exact Nat.le_of_eq hnumber

/-- Every submission draws one ID at most. -/
def Identified (l : Ledger ρ) : Prop :=
  ∃ drawn, drawn ≤ l.submissions ∧ l.endpoint.nextRequest = UInt64.ofNat (drawn + 1) ∧
    Drawn l.accepted drawn

section Identified

variable {l : Ledger ρ} {op : Op ρ} {reply : Reply} {ds : List (Delivery ρ)} {e' : Endpoint ρ}

theorem Identified.enter_of_same (h : l.Identified)
    (hnext : e'.nextRequest = l.endpoint.nextRequest) (hentry : entry op reply = []) :
    (l.enter op reply ds e').Identified := by
  obtain ⟨drawn, hle, hcounter, hdrawn⟩ := h
  refine ⟨drawn, Nat.le_trans hle ?_, hnext.trans hcounter, ?_⟩
  · simp only [Ledger.enter]
    split_ifs <;> omega
  · simpa [enter, hentry] using hdrawn

theorem Identified.enter (h : l.Identified) (ht : Transition l.endpoint op reply ds e') :
    (l.enter op reply ds e').Identified := by
  have hsame := h
  obtain ⟨drawn, hle, hcounter, hdrawn⟩ := h
  have hnext : l.endpoint.nextRequest + 1 = UInt64.ofNat (drawn + 1 + 1) := by
    rw [hcounter, UInt64.ofNat_add (drawn + 1) 1]
    rfl
  cases ht with
  | unplanned => exact hsame.enter_of_same rfl rfl
  | refused =>
    -- The ID is drawn although the request does not get it.
    refine ⟨drawn + 1, Nat.succ_le_succ hle, hnext, ?_⟩
    simpa [Ledger.enter, entry] using hdrawn.succ
  | accepted plan lastTrb ring =>
    refine ⟨drawn + 1, Nat.succ_le_succ hle, hnext, hdrawn.append ?_⟩
    rw [hcounter]
  | stale => exact hsame.enter_of_same rfl rfl
  | advanced => exact hsame.enter_of_same rfl rfl
  | finished => exact hsame.enter_of_same rfl rfl
  | givenBack => exact hsame.enter_of_same rfl rfl
  | expired => exact hsame.enter_of_same rfl rfl
  | invalidated => exact hsame.enter_of_same rfl rfl

end Identified

theorem identified_of_reachable {l : Ledger ρ} (h : Reachable l) : l.Identified := by
  induction h with
  | fresh h =>
    obtain ⟨owner, traits, config, base, -, -⟩ := h
    exact ⟨0, Nat.le_refl _, rfl, fun _ => ⟨.nil, fun s hs => (List.not_mem_nil hs).elim⟩⟩
  | step _ hstep ih =>
    obtain ⟨e', htaken, rfl⟩ := exists_of_step hstep
    exact ih.enter (Endpoint.transition_of_step htaken)

/-! ### Finding a request by its ID -/

theorem mem_liveFrom {n k : Nat} {rs : List (InFlight ρ)} :
    k ∈ liveFrom n rs ↔ ∃ i r, k = n + i ∧ rs[i]? = some r ∧ r.isTombstone = false := by
  induction rs generalizing n with
  | nil => simp [liveFrom]
  | cons r rs ih =>
    have hrest : k ∈ liveFrom (n + 1) rs ↔
        ∃ i u, k = n + (i + 1) ∧ (r :: rs)[i + 1]? = some u ∧ u.isTombstone = false := by
      rw [ih]
      simp only [List.getElem?_cons_succ, Nat.add_assoc, Nat.add_comm 1]
    have hfirst : k ∈ liveFrom n (r :: rs) ↔
        k = n ∧ r.isTombstone = false ∨ k ∈ liveFrom (n + 1) rs := by
      cases htomb : r.isTombstone <;> simp [liveFrom, htomb]
    rw [hfirst, hrest]
    constructor
    · rintro (⟨rfl, htomb⟩ | ⟨i, u, hi⟩)
      · exact ⟨0, r, rfl, rfl, htomb⟩
      · exact ⟨i + 1, u, hi⟩
    · rintro ⟨i, u, hk, hu, htomb⟩
      cases i with
      | zero =>
        obtain rfl : r = u := by simpa using hu
        exact .inl ⟨hk, htomb⟩
      | succ i => exact .inr ⟨i, u, hk, hu, htomb⟩

theorem Consistent.exists_submission {l : Ledger ρ} (h : l.Consistent) {i : Nat} {r : InFlight ρ}
    (hr : l.endpoint.inFlight[i]? = some r) :
    ∃ s, l.accepted[l.oldest + i]? = some s ∧ s.Follows r := by
  obtain ⟨hi, rfl⟩ := List.getElem?_eq_some_iff.1 hr
  have hi' : i < (l.accepted.drop l.oldest).length := h.follows.length_eq ▸ hi
  have hfollows := h.follows.get hi' hi
  refine ⟨_, ?_, hfollows⟩
  rw [← List.getElem?_drop]
  exact List.getElem?_eq_getElem hi'

theorem Identified.nodup {l : Ledger ρ} (h : l.Identified) (hlt : l.submissions < UInt64.size) :
    (l.accepted.map Submission.id).Nodup := by
  obtain ⟨drawn, hle, -, hdrawn⟩ := h
  have hpairwise := (hdrawn (by omega)).1
  have hnodup : ((l.accepted.map Submission.id).map fun i => i.number.toNat).Nodup := by
    rw [List.map_map]
    exact hpairwise.imp Nat.ne_of_lt
  exact List.Nodup.of_map _ hnodup

/-- As long as the counter has not gone through all its values, the next request gets an ID that no
request in flight has. -/
theorem Reachable.id_ne_next {l : Ledger ρ} (h : Reachable l)
    (hlt : l.submissions + 1 < UInt64.size) {r : InFlight ρ} (hr : r ∈ l.endpoint.inFlight) :
    r.id ≠ ⟨l.endpoint.nextRequest⟩ := by
  obtain ⟨drawn, hle, hnext, hdrawn⟩ := identified_of_reachable h
  obtain ⟨i, hi⟩ := List.mem_iff_getElem?.1 hr
  obtain ⟨s, hs, hfollows⟩ := (consistent_of_reachable h).exists_submission hi
  have hbound : s.id.number.toNat ≤ drawn :=
    (hdrawn (by omega)).2 s (List.mem_of_getElem? hs)
  have hnumber : (UInt64.ofNat (drawn + 1)).toNat = drawn + 1 := by
    have hdrawn' : drawn + 1 < UInt64.size := by omega
    rw [UInt64.toNat_ofNat', Nat.mod_eq_of_lt hdrawn']
  intro hid
  rw [hfollows.id_eq] at hid
  rw [hid, hnext, hnumber] at hbound
  omega

theorem map_id_of_follows {ss : List (Submission ρ)} {rs : List (InFlight ρ)}
    (h : List.Forall₂ Submission.Follows ss rs) : rs.map InFlight.id = ss.map Submission.id := by
  induction h with
  | nil => rfl
  | cons hs _ ih => rw [List.map_cons, List.map_cons, hs.id_eq, ih]

theorem Consistent.nodup_inFlight {l : Ledger ρ} (h : l.Consistent)
    (hids : (l.accepted.map Submission.id).Nodup) :
    (l.endpoint.inFlight.map InFlight.id).Nodup := by
  rw [map_id_of_follows h.follows, List.map_drop]
  exact hids.sublist (List.drop_sublist _ _)

/-- Giving back finds a request exactly if the first record with the ID is live. -/
theorem isSome_buryFirst (id : RequestId) (failure : TransferFailure) (rs : List (InFlight ρ)) :
    (Endpoint.buryFirst id failure rs).1.isSome =
      (rs.find? (·.id = id)).any fun r => !r.isTombstone := by
  induction rs with
  | nil => rfl
  | cons r rs ih =>
    by_cases hid : r.id = id
    · rw [List.find?_cons_of_pos (by simpa using hid)]
      simp only [Endpoint.buryFirst, hid, if_true]
      cases hcargo : r.cargo with
      | live request notify => simp [InFlight.bury_live hcargo, InFlight.isTombstone_live hcargo]
      | tombstone retained =>
        simp [InFlight.bury_tombstone hcargo, InFlight.isTombstone_tombstone hcargo]
    · rw [List.find?_cons_of_neg (by simpa using hid)]
      simp only [Endpoint.buryFirst, hid, if_false]
      exact ih

/-- As long as IDs are distinct, a request is given back exactly if it is live. -/
theorem Consistent.isSome_giveBack {l : Ledger ρ} (h : l.Consistent)
    (hids : (l.accepted.map Submission.id).Nodup) (id : RequestId) (failure : TransferFailure) :
    (l.endpoint.giveBack id failure).1.isSome = true ↔
      ∃ n ∈ l.live, ∃ s, l.accepted[n]? = some s ∧ s.id = id := by
  change (Endpoint.buryFirst id failure l.endpoint.inFlight).1.isSome = true ↔ _
  rw [isSome_buryFirst, Option.any_eq_true]
  constructor
  · rintro ⟨r, hfind, hlive⟩
    have hid : r.id = id := by simpa using List.find?_some hfind
    obtain ⟨i, hr⟩ := List.mem_iff_getElem?.1 (List.mem_of_find?_eq_some hfind)
    obtain ⟨s, hs, hfollows⟩ := h.exists_submission hr
    refine ⟨l.oldest + i, mem_liveFrom.2 ⟨i, r, rfl, hr, by simpa using hlive⟩, s, hs, ?_⟩
    rw [← hfollows.id_eq, hid]
  · rintro ⟨n, hn, s, hs, rfl⟩
    obtain ⟨i, r, rfl, hr, hlive⟩ := mem_liveFrom.1 hn
    obtain ⟨u, hu, hfollows⟩ := h.exists_submission hr
    obtain rfl : u = s := Option.some.inj (hu.symm.trans hs)
    have hmem := List.mem_of_getElem? hr
    refine ⟨r, ?_, by simp [hlive]⟩
    -- The first record with this ID is `r`, since no other one has it.
    cases hfind : l.endpoint.inFlight.find? (·.id = u.id) with
    | none => exact absurd hfollows.id_eq (by simpa using List.find?_eq_none.1 hfind r hmem)
    | some r₀ =>
      have hid : r₀.id = u.id := by simpa using List.find?_some hfind
      rw [List.inj_on_of_nodup_map (h.nodup_inFlight hids) (List.mem_of_find?_eq_some hfind) hmem
        (hid.trans hfollows.id_eq.symm)]

/-- What is given back is the request with this ID. -/
theorem Consistent.id_of_giveBack {l : Ledger ρ} (h : l.Consistent) {id : RequestId}
    {failure : TransferFailure} {reply : Reply} {n : Nat} (hn : n ∈ l.live)
    (hn' : n ∉ (l.enter (.giveBack id failure) reply (l.endpoint.giveBack id failure).1.toList
      (l.endpoint.giveBack id failure).2).live) :
    ∃ s, l.accepted[n]? = some s ∧ s.id = id := by
  have hwithdraws := l.endpoint.withdraws_giveBack id failure
  rw [live_enter_of_withdraws rfl hwithdraws] at hn'
  obtain ⟨i, r, rfl, hr, hid⟩ := due_of_withdraws hwithdraws hn hn'
  obtain ⟨s, hs, hfollows⟩ := h.exists_submission hr
  exact ⟨s, hs, hfollows.id_eq.symm.trans hid⟩

/-! ### Exactly once -/

/-- Where the accepted requests are: live with a record of their own, handed over once, or dropped
without having been handed over. -/
structure Exact (l : Ledger ρ) : Prop where
  timesHanded_le : ∀ n, l.timesHanded n ≤ 1
  live_iff : ∀ n, n ∈ l.live ↔
    ∃ i r, n = l.oldest + i ∧ l.endpoint.inFlight[i]? = some r ∧ r.isTombstone = false
  follows : ∀ (i : Nat) (r : InFlight ρ), l.endpoint.inFlight[i]? = some r →
    ∃ s, l.accepted[l.oldest + i]? = some s ∧ s.Follows r
  of_live : ∀ n ∈ l.live, l.timesHanded n = 0
  of_dropped : ∀ n ∈ l.dropped, l.isAsync n = true ∧ l.timesHanded n = 0
  of_settled : ∀ n < l.accepted.length, n ∉ l.live → n ∉ l.dropped → l.timesHanded n = 1
  own : ∀ n d, (n, d) ∈ l.handed → ∃ s, l.accepted[n]? = some s ∧ s.Finished d

/-- What a step from `l` to `l'` that delivers `ds` does to the requests. -/
structure Settles (l : Ledger ρ) (op : Op ρ) (reply : Reply) (ds : List (Delivery ρ))
    (l' : Ledger ρ) : Prop where
  /-- Each delivery is noted for one request, which is live before and not afterwards. -/
  handed_eq : ∃ told : List Nat, l'.handed = l.handed ++ told.zip ds ∧ told.length = ds.length ∧
    ∀ n ∈ told, n ∈ l.live ∧ n ∉ l'.live
  hands_over : op ≠ .invalidate → ∀ n ∈ l.live, n ∉ l'.live → l'.timesHanded n = 1
  drops_none : op ≠ .invalidate → l'.dropped = l.dropped
  shuts_down : op = .invalidate → ∀ n ∈ l.live, n ∉ l'.live ∧
    if l.isAsync n then n ∈ l'.dropped ∧ l'.timesHanded n = 0 else l'.timesHanded n = 1
  leaves : ∀ n, n ∉ l.live ∨ n ∈ l'.live → l'.timesHanded n = l.timesHanded n
  /-- An event that finishes a tombstone, or otherwise concerns one, delivers nothing. -/
  tombstone : ∀ event, op = .event event → l.endpoint.headIsTombstone = true →
    ds = [] ∧ l'.handed = l.handed
  /-- The reply of a cancelling step says whether the request was live; it is this request that
  is handed over. -/
  gives_back : ∀ id failure, op = .giveBack id failure → ∃ found, reply = .givenBack found ∧
    found = (l.endpoint.inFlight.find? (·.id = id)).any (fun r => !r.isTombstone) ∧
    (l.submissions < UInt64.size →
      (found = true ↔ ∃ n ∈ l.live, ∃ s, l.accepted[n]? = some s ∧ s.id = id)) ∧
    ∀ n ∈ l.live, n ∉ l'.live → ∃ s, l.accepted[n]? = some s ∧ s.id = id

section Settles

variable {l : Ledger ρ} {op : Op ρ} {reply : Reply} {ds : List (Delivery ρ)} {e' : Endpoint ρ}

theorem Consistent.lt_of_live (h : l.Consistent) {n : Nat} (hn : n ∈ l.live) :
    n < l.accepted.length := by
  have hlt := (le_of_mem_liveFrom hn).2
  have hle := h.length_le
  rw [oldest] at hlt
  omega

theorem Consistent.exact (h : l.Consistent) : l.Exact where
  timesHanded_le n := by
    have hplaces := h.places n
    split_ifs at hplaces <;> omega
  live_iff n := mem_liveFrom
  follows i r hr := h.exists_submission hr
  of_live n hn := by
    have hplaces := h.places n
    have hcount := List.count_pos_iff.2 hn
    split_ifs at hplaces <;> omega
  of_dropped n hn := by
    have hplaces := h.places n
    have hcount := List.count_pos_iff.2 hn
    refine ⟨h.dropped_async n hn, ?_⟩
    split_ifs at hplaces <;> omega
  of_settled n hn hlive hdropped := by
    have hplaces := h.places n
    rw [List.count_eq_zero.2 hlive, List.count_eq_zero.2 hdropped, if_pos hn] at hplaces
    omega
  own := h.handed_own

theorem dropped_enter (hop : op ≠ .invalidate) :
    (l.enter op reply ds e').dropped = l.dropped := by
  simp [enter, drops_eq_false hop]

theorem Consistent.hands_over (h' : (l.enter op reply ds e').Consistent) (h : l.Consistent)
    (hop : op ≠ .invalidate) {n : Nat} (hn : n ∈ l.live)
    (hn' : n ∉ (l.enter op reply ds e').live) : (l.enter op reply ds e').timesHanded n = 1 := by
  have hlt : n < (l.enter op reply ds e').accepted.length :=
    Nat.lt_of_lt_of_le (h.lt_of_live hn) length_accepted_le
  apply h'.exact.of_settled n hlt hn'
  rw [dropped_enter hop]
  intro hdropped
  have hplaces := h.places n
  have hlive := List.count_pos_iff.2 hn
  have hdropped := List.count_pos_iff.2 hdropped
  split_ifs at hplaces <;> omega

theorem Consistent.shuts_down (h : l.Consistent)
    (h' : (l.enter .invalidate reply ds l.endpoint.invalidate.2).Consistent) {n : Nat}
    (hn : n ∈ l.live) :
    if l.isAsync n then n ∈ (l.enter .invalidate reply ds l.endpoint.invalidate.2).dropped ∧
      (l.enter .invalidate reply ds l.endpoint.invalidate.2).timesHanded n = 0
    else (l.enter .invalidate reply ds l.endpoint.invalidate.2).timesHanded n = 1 := by
  have hn' : n ∉ (l.enter .invalidate reply ds l.endpoint.invalidate.2).live :=
    List.not_mem_nil
  have haccepted : (l.enter .invalidate reply ds l.endpoint.invalidate.2).accepted = l.accepted :=
    List.append_nil _
  cases hasync : l.isAsync n with
  | true =>
    have hdropped : n ∈ (l.enter .invalidate reply ds l.endpoint.invalidate.2).dropped :=
      List.mem_append_right _ (List.mem_filter.2 ⟨mem_settled.2 ⟨hn, hn'⟩, hasync⟩)
    exact ⟨hdropped, (h'.exact.of_dropped n hdropped).2⟩
  | false =>
    apply h'.exact.of_settled n (by rw [haccepted]; exact h.lt_of_live hn) hn'
    intro hdropped
    have hroutine := h'.dropped_async n hdropped
    rw [isAsync, haccepted] at hroutine
    rw [isAsync, hroutine] at hasync
    cases hasync

theorem handed_of_tombstone {event : TransferEvent}
    (ht : Transition l.endpoint (.event event) reply ds e')
    (htomb : l.endpoint.headIsTombstone = true) : ds = [] := by
  cases ht with
  | stale => rfl
  | advanced => rfl
  | @finished _ record record' rest position released outcome ring _ hlist =>
    cases hcargo : record.cargo with
    | live request notify =>
      simp [Endpoint.headIsTombstone, hlist, InFlight.isTombstone_live hcargo] at htomb
    | tombstone retained => exact Endpoint.deliveries_tombstone hcargo outcome

theorem Consistent.settles (h : l.Consistent) (hids : l.Identified)
    (ht : Transition l.endpoint op reply ds e') :
    l.Settles op reply ds (l.enter op reply ds e') := by
  have heffect := h.effect ht
  have h' := h.enter heffect
  constructor
  case handed_eq =>
    refine ⟨l.told op (l.enter op reply ds e'), rfl, heffect.told.length_eq, fun n hn => ?_⟩
    exact mem_settled.1 (List.mem_of_mem_filter hn)
  case hands_over => exact fun hop n hn hn' => h'.hands_over h hop hn hn'
  case drops_none => exact dropped_enter
  case shuts_down =>
    rintro rfl n hn
    cases ht
    exact ⟨List.not_mem_nil, h.shuts_down h' hn⟩
  case leaves =>
    intro n hn
    have hnot : n ∉ l.told op (l.enter op reply ds e') := by
      intro htold
      obtain ⟨hlive, hgone⟩ := mem_settled.1 (List.mem_of_mem_filter htold)
      rcases hn with hn | hn
      · exact hn hlive
      · exact hgone hn
    rw [heffect.timesHanded_eq, List.count_eq_zero.2 hnot, Nat.add_zero]
  case tombstone =>
    rintro event rfl htomb
    obtain rfl := handed_of_tombstone ht htomb
    exact ⟨rfl, by simp [Ledger.enter]⟩
  case gives_back =>
    rintro id failure rfl
    cases ht
    refine ⟨_, rfl, isSome_buryFirst id failure _, fun hlt => ?_, fun n hn hn' => ?_⟩
    · exact h.isSome_giveBack (hids.nodup hlt) id failure
    · exact h.id_of_giveBack hn hn'

end Settles

/-- After any steps whatsoever every request that an endpoint has accepted is live, or has been
handed over once, or was dropped when the endpoint was shut down; each step hands over the requests
that it settles, each of them once; and the host passes on exactly these deliveries. A task that
waits is woken (`Host.handOn_of_waiters`). A completion routine runs at once in immediate mode
(`Host.handOn_of_immediate`); in deferred mode its request is parked (`Host.handOn_of_room`), and if
the queue is full the routine runs at once (`Host.deliver_of_full`). -/
theorem handed_over_exactly_once {l : Ledger ρ} (h : Reachable l) :
    l.Exact ∧ ∀ op reply ds l', l.step op = .ok ((reply, ds), l') →
      l.Settles op reply ds l' ∧
      ∀ {σ : Type} (env : Env σ ρ) (w : World σ ρ) (ref : EndpointRef),
        w.endpoints[ref.index]? = some l.endpoint →
        Host.CarriesOut env w ref l.endpoint op reply ds l'.endpoint := by
  have hconsistent := consistent_of_reachable h
  refine ⟨hconsistent.exact, fun op reply ds l' hstep => ?_⟩
  obtain ⟨e', htaken, rfl⟩ := exists_of_step hstep
  exact ⟨hconsistent.settles (identified_of_reachable h) (Endpoint.transition_of_step htaken),
    fun env w ref hw => Host.carriesOut hw htaken⟩

/-- A request that is submitted and then cancelled. -/
theorem handed_over_when_cancelled : ∃ answer answer' l l',
    step { endpoint := Endpoint.smallBulk } (.submit { buffer := some (.zeroed ⟨0⟩ 8) } 0x2000
      .routine none) = .ok (answer, l) ∧
    step l (.giveBack ⟨1⟩ .aborted) = .ok (answer', l') ∧
    l.live = [0] ∧ l'.live = [] ∧ l'.timesHanded 0 = 1 ∧
    l'.Exact ∧ ∀ op reply ds l'', l'.step op = .ok ((reply, ds), l'') →
      l'.Settles op reply ds l'' ∧
      ∀ {σ : Type} (env : Env σ Unit) (w : World σ Unit) (ref : EndpointRef),
        w.endpoints[ref.index]? = some l'.endpoint →
        Host.CarriesOut env w ref l'.endpoint op reply ds l''.endpoint := by
  obtain ⟨answer, l, hsubmit, hlive, hlater⟩ : ∃ answer l,
      step { endpoint := Endpoint.smallBulk } (.submit { buffer := some (.zeroed ⟨0⟩ 8) } 0x2000
        .routine none) = .ok (answer, l) ∧ l.live = [0] ∧
      ∃ answer' l', step l (.giveBack ⟨1⟩ .aborted) = .ok (answer', l') ∧ l'.live = [] ∧
        l'.timesHanded 0 = 1 := ⟨_, _, rfl, rfl, _, _, rfl, rfl, rfl⟩
  obtain ⟨answer', l', hcancel, hlive', hhanded⟩ := hlater
  exact ⟨answer, answer', l, l', hsubmit, hcancel, hlive, hlive', hhanded,
    handed_over_exactly_once (.step (.step (.fresh Endpoint.fresh_smallBulk) hsubmit) hcancel)⟩

end UsbHost.Ledger
