import Mathlib.Data.List.Forall2
import Mathlib.Tactic.SplitIfs
import UsbHost.Proofs.Endpoint.Steps

/-!
What becomes of every request that an endpoint has accepted. Requests are numbered in the order in
which they are accepted, and a ledger is kept beside the endpoint. A request is live first; the
step after which it is live no more either hands it over, and then the ledger notes the delivery,
or drops it. Completion, cancelling, timing out and shutting down all compete for the same records,
and what keeps them apart is that a record which has given its request away is a tombstone.
-/

namespace UsbHost

variable {ρ : Type}

/-- An accepted request. -/
structure Submission (ρ : Type) where
  id : RequestId
  request : Request ρ
  notify : Notify

namespace Submission

/-- The record `r` follows this request: it holds it, or it has given it away. -/
structure Follows (s : Submission ρ) (r : InFlight ρ) : Prop where
  id_eq : r.id = s.id
  live_eq : ∀ request notify, r.cargo = .live request notify →
    request = s.request ∧ notify = s.notify

/-- The delivery `d` hands this request back with an outcome. A request that is given back early
comes without its buffer. -/
structure Finished (s : Submission ρ) (d : Delivery ρ) : Prop where
  notify_eq : d.notify = s.notify
  request_eq : ∃ status length, status ≠ .pending ∧
    (d.request = s.request.finish status length ∨
      d.request = s.request.takeBuffer.2.finish status length)

end Submission

/-- An endpoint, and what has become of its requests. -/
structure Ledger (ρ : Type) where
  endpoint : Endpoint ρ
  /-- How many requests have been submitted, accepted or not. -/
  submissions : Nat := 0
  /-- The accepted requests; the place of a request is its number. -/
  accepted : List (Submission ρ) := []
  /-- Numbers of the requests that were handed over, each with its delivery. -/
  handed : List (Nat × Delivery ρ) := []
  /-- Numbers of the requests that were dropped. -/
  dropped : List Nat := []

namespace Ledger

open Endpoint (Op Reply Fresh Transition Withdraws deliveries)

/-- Numbers of the live records among `rs`, the first of which has number `n`. -/
def liveFrom (n : Nat) : List (InFlight ρ) → List Nat
  | [] => []
  | r :: rs => if r.isTombstone then liveFrom (n + 1) rs else n :: liveFrom (n + 1) rs

/-- Number of the oldest request in flight: those in flight are the ones accepted last. -/
def oldest (l : Ledger ρ) : Nat := l.accepted.length - l.endpoint.inFlight.length

/-- Numbers of the live requests. -/
def live (l : Ledger ρ) : List Nat := liveFrom l.oldest l.endpoint.inFlight

/-- How often request `n` was handed over. -/
def timesHanded (l : Ledger ρ) (n : Nat) : Nat := (l.handed.map Prod.fst).count n

/-- Request `n` is asynchronous: it has a completion routine, and nobody waits for it. -/
def isAsync (l : Ledger ρ) (n : Nat) : Bool := l.accepted[n]?.any fun s => s.notify = .routine

/-! ### Keeping the ledger -/

/-- What a step accepts. -/
def entry : Op ρ → Reply → List (Submission ρ)
  | .submit request _ notify _, .submitted (.ok id) => [⟨id, request, notify⟩]
  | _, _ => []

/-- Shutting down drops the asynchronous requests. -/
def drops (l : Ledger ρ) : Op ρ → Nat → Bool
  | .invalidate, n => l.isAsync n
  | _, _ => false

/-- Numbers of the requests that are live no more in `l'`. -/
def settled (l l' : Ledger ρ) : List Nat := l.live.filter (· ∉ l'.live)

/-- Those among them that are not dropped. -/
def told (l : Ledger ρ) (op : Op ρ) (l' : Ledger ρ) : List Nat :=
  (l.settled l').filter (!l.drops op ·)

/-- The ledger after a step that has led to the endpoint `e` and delivered `ds`: a delivery is
noted for each request that has settled and is not dropped. -/
def enter (l : Ledger ρ) (op : Op ρ) (reply : Reply) (ds : List (Delivery ρ)) (e : Endpoint ρ) :
    Ledger ρ :=
  let next := { l with
    endpoint := e
    submissions := if op matches .submit .. then l.submissions + 1 else l.submissions
    accepted := l.accepted ++ entry op reply }
  { next with
    handed := l.handed ++ (l.told op next).zip ds
    dropped := l.dropped ++ (l.settled next).filter (l.drops op) }

/-- A step of the endpoint, and its entry. -/
def step (l : Ledger ρ) (op : Op ρ) : Except Fault ((Reply × List (Delivery ρ)) × Ledger ρ) := do
  let ((reply, ds), e) ← l.endpoint.step op
  return ((reply, ds), l.enter op reply ds e)

/-- A step enters what the endpoint has done. -/
theorem exists_of_step {l l' : Ledger ρ} {op : Op ρ} {reply : Reply} {ds : List (Delivery ρ)}
    (h : l.step op = .ok ((reply, ds), l')) :
    ∃ e', l.endpoint.step op = .ok ((reply, ds), e') ∧ l' = l.enter op reply ds e' := by
  obtain ⟨⟨⟨_, _⟩, e'⟩, htaken, henter⟩ := Fault.bind_eq_ok.1 h
  cases henter
  exact ⟨e', htaken, rfl⟩

/-- The ledgers that steps lead to from a new endpoint. -/
inductive Reachable : Ledger ρ → Prop
  | fresh {e : Endpoint ρ} (h : Fresh e) : Reachable { endpoint := e }
  | step {l l' : Ledger ρ} {op : Op ρ} {answer : Reply × List (Delivery ρ)} (h : Reachable l)
      (hstep : l.step op = .ok (answer, l')) : Reachable l'

/-! ### Live records -/

theorem le_of_mem_liveFrom {n k : Nat} {rs : List (InFlight ρ)} (h : k ∈ liveFrom n rs) :
    n ≤ k ∧ k < n + rs.length := by
  induction rs generalizing n with
  | nil => cases h
  | cons r rs ih =>
    rw [liveFrom] at h
    rw [List.length_cons]
    split at h
    · have := ih h
      omega
    · rcases List.mem_cons.1 h with rfl | h
      · omega
      · have := ih h
        omega

theorem nodup_liveFrom (n : Nat) (rs : List (InFlight ρ)) : (liveFrom n rs).Nodup := by
  induction rs generalizing n with
  | nil => exact List.nodup_nil
  | cons r rs ih =>
    rw [liveFrom]
    split
    · exact ih (n + 1)
    · refine List.nodup_cons.2 ⟨fun hmem => ?_, ih (n + 1)⟩
      have := le_of_mem_liveFrom hmem
      omega

theorem nodup_live (l : Ledger ρ) : l.live.Nodup := nodup_liveFrom _ _

@[simp] theorem liveFrom_append (n : Nat) (rs rs' : List (InFlight ρ)) :
    liveFrom n (rs ++ rs') = liveFrom n rs ++ liveFrom (n + rs.length) rs' := by
  induction rs generalizing n with
  | nil => rfl
  | cons r rs ih =>
    rw [List.cons_append, liveFrom, liveFrom, ih, List.length_cons, Nat.add_right_comm,
      Nat.add_assoc]
    split <;> rfl

theorem not_mem_liveFrom_succ (n : Nat) (rs : List (InFlight ρ)) : n ∉ liveFrom (n + 1) rs := by
  intro h
  have := le_of_mem_liveFrom h
  omega

theorem liveFrom_cons_live {r : InFlight ρ} {request : Request ρ} {notify : Notify}
    (h : r.cargo = .live request notify) (n : Nat) (rs : List (InFlight ρ)) :
    liveFrom n (r :: rs) = n :: liveFrom (n + 1) rs := by
  simp [liveFrom, InFlight.isTombstone_live h]

@[simp] theorem liveFrom_cons_tombstone {r : InFlight ρ} {retained : Option Dma.Buffer}
    (h : r.cargo = .tombstone retained) (n : Nat) (rs : List (InFlight ρ)) :
    liveFrom n (r :: rs) = liveFrom (n + 1) rs := by
  simp [liveFrom, InFlight.isTombstone_tombstone h]

/-- What is live in the same way before and after does not settle. -/
theorem settled_cons {n : Nat} {ns ns' : List Nat} (h : n ∉ ns) :
    (n :: ns).filter (· ∉ n :: ns') = ns.filter (· ∉ ns') := by
  rw [List.filter_cons_of_neg (by simp)]
  apply List.filter_congr
  intro k hk
  have hne : k ≠ n := fun heq => h (heq ▸ hk)
  simp [hne]

theorem settled_cons_gone {n : Nat} {ns ns' : List Nat} (h : n ∉ ns') :
    (n :: ns).filter (· ∉ ns') = n :: ns.filter (· ∉ ns') :=
  List.filter_cons_of_pos (by simpa using h)

theorem settled_self (ns : List Nat) : ns.filter (· ∉ ns) = [] :=
  List.filter_eq_nil_iff.2 fun n hn => by simp [hn]

/-- The delivery `d` returns request `k`, where `ss` are the requests from number `n` on. -/
def Returns (n : Nat) (ss : List (Submission ρ)) (k : Nat) (d : Delivery ρ) : Prop :=
  ∃ i s, k = n + i ∧ ss[i]? = some s ∧ s.Finished d

theorem Returns.cons {n k : Nat} {ss : List (Submission ρ)} {d : Delivery ρ} (s : Submission ρ)
    (h : Returns (n + 1) ss k d) : Returns n (s :: ss) k d := by
  obtain ⟨i, u, rfl, hu, hd⟩ := h
  exact ⟨i + 1, u, by omega, hu, hd⟩

theorem returns_self (s : Submission ρ) (ss : List (Submission ρ)) (n : Nat)
    (failure : TransferFailure) :
    Returns n (s :: ss) n ⟨s.notify, s.request.takeBuffer.2.finish (.failed failure) 0⟩ :=
  ⟨0, s, rfl, rfl, rfl, _, _, Request.Status.noConfusion, .inr rfl⟩

section Withdraws

variable {failure : TransferFailure} {due : InFlight ρ → Prop} {rs rs' : List (InFlight ρ)}
  {ds : List (Delivery ρ)} {ss : List (Submission ρ)}

theorem follows_of_withdraws (h : Withdraws failure due rs ds rs')
    (hss : List.Forall₂ Submission.Follows ss rs) : List.Forall₂ Submission.Follows ss rs' := by
  induction h generalizing ss with
  | nil => exact hss
  | keep htd hcargo _ ih =>
    obtain ⟨s, ss, hs, hfollow, rfl⟩ := List.forall₂_cons_right_iff.1 hss
    refine .cons ⟨(congrArg Td.id htd).trans hs.id_eq, ?_⟩ (ih hfollow)
    rw [hcargo]
    exact hs.live_eq
  | bury _ _ htd hcargo _ ih =>
    obtain ⟨s, ss, hs, hfollow, rfl⟩ := List.forall₂_cons_right_iff.1 hss
    refine .cons ⟨(congrArg Td.id htd).trans hs.id_eq, ?_⟩ (ih hfollow)
    rw [hcargo]
    intro _ _ hlive
    cases hlive

theorem live_of_withdraws (h : Withdraws failure due rs ds rs') (n : Nat) :
    liveFrom n rs' ⊆ liveFrom n rs := by
  induction h generalizing n with
  | nil => exact List.Subset.refl _
  | @keep r r' _ _ _ _ hcargo _ ih =>
    have htomb : r'.isTombstone = r.isTombstone := by
      rw [InFlight.isTombstone, hcargo, InFlight.isTombstone]
    rw [liveFrom, liveFrom, htomb]
    split
    · exact ih (n + 1)
    · exact List.cons_subset_cons n (ih (n + 1))
  | bury _ hlive _ hcargo _ ih =>
    rw [liveFrom_cons_live hlive, liveFrom_cons_tombstone hcargo]
    exact List.subset_cons_of_subset n (ih (n + 1))

/-- The requests that are given back are the ones that settle, in the same order. -/
theorem settled_of_withdraws (h : Withdraws failure due rs ds rs')
    (hss : List.Forall₂ Submission.Follows ss rs) (n : Nat) :
    List.Forall₂ (Returns n ss) ((liveFrom n rs).filter (· ∉ liveFrom n rs')) ds := by
  induction h generalizing ss n with
  | nil => exact .nil
  | @keep r r' rs rs' ds _ hcargo _ ih =>
    obtain ⟨s, ss, _, hfollow, rfl⟩ := List.forall₂_cons_right_iff.1 hss
    have hrest := (ih hfollow (n + 1)).imp fun _ _ => Returns.cons s
    cases hr : r.cargo with
    | live request notify =>
      -- Number `n` is live before and after, and is none of the later ones.
      rw [liveFrom_cons_live hr, liveFrom_cons_live (hcargo.trans hr),
        settled_cons (not_mem_liveFrom_succ n rs)]
      exact hrest
    | tombstone retained =>
      rw [liveFrom_cons_tombstone hr, liveFrom_cons_tombstone (hcargo.trans hr)]
      exact hrest
  | @bury r r' rs rs' ds request notify hdue hlive _ hcargo _ ih =>
    obtain ⟨s, ss, hs, hfollow, rfl⟩ := List.forall₂_cons_right_iff.1 hss
    have hrest := (ih hfollow (n + 1)).imp fun _ _ => Returns.cons s
    obtain ⟨rfl, rfl⟩ := hs.live_eq request notify hlive
    rw [liveFrom_cons_live hlive, liveFrom_cons_tombstone hcargo,
      settled_cons_gone (not_mem_liveFrom_succ n rs')]
    exact .cons (returns_self s ss n failure) hrest

/-- Only requests that are due settle. -/
theorem due_of_withdraws (h : Withdraws failure due rs ds rs') {n k : Nat}
    (hk : k ∈ liveFrom n rs) (hk' : k ∉ liveFrom n rs') :
    ∃ i r, k = n + i ∧ rs[i]? = some r ∧ due r := by
  induction h generalizing n with
  | nil => cases hk
  | @keep r r' rs rs' ds _ hcargo _ ih =>
    have hlater (hk : k ∈ liveFrom (n + 1) rs) (hk' : k ∉ liveFrom (n + 1) rs') :
        ∃ i u, k = n + i ∧ (r :: rs)[i]? = some u ∧ due u := by
      obtain ⟨i, u, rfl, hu, hdue⟩ := ih hk hk'
      exact ⟨i + 1, u, by omega, hu, hdue⟩
    cases hr : r.cargo with
    | live request notify =>
      rw [liveFrom_cons_live hr, List.mem_cons] at hk
      rw [liveFrom_cons_live (hcargo.trans hr), List.mem_cons, not_or] at hk'
      exact hlater (hk.resolve_left hk'.1) hk'.2
    | tombstone retained =>
      rw [liveFrom_cons_tombstone hr] at hk
      rw [liveFrom_cons_tombstone (hcargo.trans hr)] at hk'
      exact hlater hk hk'
  | @bury r r' rs rs' ds request notify hdue hlive _ hcargo _ ih =>
    rw [liveFrom_cons_live hlive, List.mem_cons] at hk
    rw [liveFrom_cons_tombstone hcargo] at hk'
    rcases hk with rfl | hk
    · exact ⟨0, r, rfl, rfl, hdue⟩
    · obtain ⟨i, u, rfl, hu, hdue⟩ := ih hk hk'
      exact ⟨i + 1, u, by omega, hu, hdue⟩

end Withdraws

/-- Shutting down tells the tasks that wait, in order. -/
theorem told_of_invalidate {rs : List (InFlight ρ)} {ss : List (Submission ρ)}
    (hss : List.Forall₂ Submission.Follows ss rs) (n : Nat) {async : Nat → Bool}
    (hasync : ∀ i s, ss[i]? = some s → async (n + i) = decide (s.notify = .routine)) :
    List.Forall₂ (Returns n ss) ((liveFrom n rs).filter (!async ·))
      ((rs.filterMap fun r => (r.bury .aborted).1).filter (·.notify ≠ .routine)) := by
  induction rs generalizing ss n with
  | nil => exact .nil
  | cons r rs ih =>
    obtain ⟨s, ss, hs, hfollow, rfl⟩ := List.forall₂_cons_right_iff.1 hss
    have hasync' (i : Nat) (u : Submission ρ) (hu : ss[i]? = some u) :
        async (n + 1 + i) = decide (u.notify = .routine) := by
      rw [← hasync (i + 1) u hu, Nat.add_assoc, Nat.add_comm 1 i]
    have hrest := (ih hfollow (n + 1) hasync').imp fun _ _ => Returns.cons s
    cases hr : r.cargo with
    | tombstone retained =>
      simpa [hr] using hrest
    | live request notify =>
      obtain ⟨rfl, rfl⟩ := hs.live_eq request notify hr
      have hfirst : async n = decide (s.notify = .routine) := hasync 0 s rfl
      simp only [liveFrom_cons_live hr, List.filterMap_cons, InFlight.bury_live hr]
      by_cases hroutine : s.notify = .routine
      · rw [List.filter_cons_of_neg (by simp [hfirst, hroutine]),
          List.filter_cons_of_neg (by simp [hroutine])]
        exact hrest
      · rw [List.filter_cons_of_pos (by simp [hfirst, hroutine]),
          List.filter_cons_of_pos (by simp [hroutine])]
        exact .cons (returns_self s ss n .aborted) hrest

/-! ### Consistency -/

/-- Every accepted request is in one place: it has been handed over, it was dropped, or it is
live. The records in flight follow the requests that were accepted last. -/
structure Consistent (l : Ledger ρ) : Prop where
  length_le : l.endpoint.inFlight.length ≤ l.accepted.length
  follows : List.Forall₂ Submission.Follows (l.accepted.drop l.oldest) l.endpoint.inFlight
  places : ∀ n, l.timesHanded n + l.dropped.count n + l.live.count n =
    if n < l.accepted.length then 1 else 0
  handed_own : ∀ n d, (n, d) ∈ l.handed → ∃ s, l.accepted[n]? = some s ∧ s.Finished d
  dropped_async : ∀ n ∈ l.dropped, l.isAsync n = true

/-- What a step does to the requests in flight. -/
structure Effect (l : Ledger ρ) (op : Op ρ) (ds : List (Delivery ρ)) (l' : Ledger ρ) : Prop where
  length_le : l'.endpoint.inFlight.length ≤ l'.accepted.length
  follows : List.Forall₂ Submission.Follows (l'.accepted.drop l'.oldest) l'.endpoint.inFlight
  live : l'.accepted = l.accepted ∧ l'.live ⊆ l.live ∨
    ∃ s, l'.accepted = l.accepted ++ [s] ∧ l'.live = l.live ++ [l.accepted.length]
  told : List.Forall₂ (fun n d => ∃ s, l.accepted[n]? = some s ∧ s.Finished d) (l.told op l') ds

theorem Returns.of_drop {n k : Nat} {ss : List (Submission ρ)} {d : Delivery ρ}
    (h : Returns n (ss.drop n) k d) : ∃ s, ss[k]? = some s ∧ s.Finished d := by
  obtain ⟨i, s, rfl, hs, hd⟩ := h
  rw [List.getElem?_drop] at hs
  exact ⟨s, hs, hd⟩

theorem drops_eq_false {op : Op ρ} (hop : op ≠ .invalidate) (l : Ledger ρ) (n : Nat) :
    l.drops op n = false := by
  cases op with
  | invalidate => exact absurd rfl hop
  | _ => rfl

theorem told_eq_settled {op : Op ρ} (hop : op ≠ .invalidate) (l l' : Ledger ρ) :
    l.told op l' = l.settled l' := by
  simp [told, drops_eq_false hop]

theorem mem_settled {l l' : Ledger ρ} {n : Nat} : n ∈ l.settled l' ↔ n ∈ l.live ∧ n ∉ l'.live := by
  simp [settled]

section Effect

variable {l : Ledger ρ} {op : Op ρ} {reply : Reply} {ds : List (Delivery ρ)} {e' : Endpoint ρ}

theorem length_accepted_le :
    l.accepted.length ≤ (l.enter op reply ds e').accepted.length := by
  change _ ≤ (l.accepted ++ entry op reply).length
  rw [List.length_append]
  exact Nat.le_add_right _ _

theorem accepted_enter {n : Nat} {s : Submission ρ} (h : l.accepted[n]? = some s) :
    (l.enter op reply ds e').accepted[n]? = some s :=
  (List.getElem?_append_left (List.getElem?_eq_some_iff.1 h).1).trans h

theorem accepted_enter_of_nil (hentry : entry op reply = []) :
    (l.enter op reply ds e').accepted = l.accepted := by
  simp [enter, hentry]

theorem oldest_enter_of_withdraws {failure : TransferFailure} {due : InFlight ρ → Prop}
    (hentry : entry op reply = [])
    (hwithdraws : Withdraws failure due l.endpoint.inFlight ds e'.inFlight) :
    (l.enter op reply ds e').oldest = l.oldest := by
  have hlength : e'.inFlight.length = l.endpoint.inFlight.length := by
    simpa using congrArg List.length hwithdraws.map_td
  rw [oldest, accepted_enter_of_nil hentry, oldest]
  exact congrArg _ hlength

theorem live_enter_of_withdraws {failure : TransferFailure} {due : InFlight ρ → Prop}
    (hentry : entry op reply = [])
    (hwithdraws : Withdraws failure due l.endpoint.inFlight ds e'.inFlight) :
    (l.enter op reply ds e').live = liveFrom l.oldest e'.inFlight := by
  rw [live, oldest_enter_of_withdraws hentry hwithdraws]
  rfl

/-- A step that does no more than give requests back early. -/
theorem Consistent.effect_of_withdraws (h : l.Consistent) {failure : TransferFailure}
    {due : InFlight ρ → Prop} (hop : op ≠ .invalidate) (hentry : entry op reply = [])
    (hwithdraws : Withdraws failure due l.endpoint.inFlight ds e'.inFlight) :
    Effect l op ds (l.enter op reply ds e') := by
  have hfollows := follows_of_withdraws hwithdraws h.follows
  have hlive := live_enter_of_withdraws hentry hwithdraws
  constructor
  case length_le =>
    have hlength := hfollows.length_eq
    rw [List.length_drop, oldest] at hlength
    have hle := h.length_le
    rw [accepted_enter_of_nil hentry]
    change e'.inFlight.length ≤ _
    omega
  case follows =>
    rw [accepted_enter_of_nil hentry, oldest_enter_of_withdraws hentry hwithdraws]
    exact hfollows
  case live =>
    rw [hlive]
    exact .inl ⟨accepted_enter_of_nil hentry, live_of_withdraws hwithdraws l.oldest⟩
  case told =>
    rw [told_eq_settled hop, settled, hlive]
    exact (settled_of_withdraws hwithdraws h.follows l.oldest).imp fun _ _ => Returns.of_drop

theorem Consistent.effect_of_accepted (h : l.Consistent) {s : Submission ρ} {r : InFlight ρ}
    (hentry : entry op reply = [s]) (hfollows : s.Follows r) (hlive : r.isTombstone = false)
    (hlist : e'.inFlight = l.endpoint.inFlight ++ [r]) :
    Effect l op [] (l.enter op reply [] e') := by
  have hle := h.length_le
  have haccepted : (l.enter op reply [] e').accepted = l.accepted ++ [s] := by
    simp [enter, hentry]
  have holdest : (l.enter op reply [] e').oldest = l.oldest := by
    have hlength : e'.inFlight.length = l.endpoint.inFlight.length + 1 := by simp [hlist]
    rw [oldest, haccepted, oldest, List.length_append, List.length_singleton]
    change _ - e'.inFlight.length = _
    omega
  have hlast : l.oldest + l.endpoint.inFlight.length = l.accepted.length := by
    rw [oldest]
    omega
  have hlive' : (l.enter op reply [] e').live = l.live ++ [l.accepted.length] := by
    rw [live, holdest]
    change liveFrom _ e'.inFlight = _
    rw [hlist, liveFrom_append, hlast, liveFrom, hlive]
    rfl
  constructor
  case length_le =>
    change e'.inFlight.length ≤ _
    rw [haccepted, hlist]
    simpa using hle
  case follows =>
    rw [haccepted, holdest, List.drop_append_of_le_length (by rw [oldest]; omega)]
    change List.Forall₂ _ _ e'.inFlight
    rw [hlist]
    exact List.rel_append h.follows (.cons hfollows .nil)
  case live => exact .inr ⟨s, haccepted, hlive'⟩
  case told =>
    have hnone : l.settled (l.enter op reply [] e') = [] := by
      rw [settled, hlive']
      exact List.filter_eq_nil_iff.2 fun n hn => by simp [hn]
    rw [Ledger.told, hnone]
    exact .nil

section Finished

variable {event : TransferEvent} {record : InFlight ρ} {rest : List (InFlight ρ)}

theorem Consistent.oldest_of_finished (h : l.Consistent)
    (hlist : l.endpoint.inFlight = record :: rest) (hrest : e'.inFlight = rest) :
    (l.enter (.event event) reply ds e').oldest = l.oldest + 1 := by
  have hle := h.length_le
  rw [hlist, List.length_cons] at hle
  rw [oldest, accepted_enter_of_nil rfl, oldest, hlist, List.length_cons]
  change _ - e'.inFlight.length = _
  rw [hrest]
  omega

theorem Consistent.live_of_finished (h : l.Consistent)
    (hlist : l.endpoint.inFlight = record :: rest) (hrest : e'.inFlight = rest) :
    (l.enter (.event event) reply ds e').live = liveFrom (l.oldest + 1) rest := by
  rw [live, h.oldest_of_finished hlist hrest, ← hrest]
  rfl

/-- If the oldest TD is finished, its request settles, unless it has been given back before. -/
theorem Consistent.settled_of_finished (h : l.Consistent)
    (hlist : l.endpoint.inFlight = record :: rest) (hrest : e'.inFlight = rest) :
    l.settled (l.enter (.event event) reply ds e') =
      if record.isTombstone then [] else [l.oldest] := by
  rw [settled, h.live_of_finished hlist hrest, live, hlist, liveFrom]
  split
  · exact settled_self _
  · rw [settled_cons_gone (not_mem_liveFrom_succ _ _), settled_self]

theorem Consistent.effect_of_finished (h : l.Consistent) {outcome : Outcome}
    (hlist : l.endpoint.inFlight = record :: rest) (hrest : e'.inFlight = rest)
    (hstatus : outcome.status ≠ .pending) :
    Effect l (.event event) (deliveries record outcome)
      (l.enter (.event event) reply (deliveries record outcome) e') := by
  have hle := h.length_le
  have hfollows := h.follows
  rw [hlist] at hle hfollows
  rw [List.length_cons] at hle
  obtain ⟨s, ss, hs, hss, hdrop⟩ := List.forall₂_cons_right_iff.1 hfollows
  have hnext : l.accepted.drop (l.oldest + 1) = ss := by
    rw [← List.drop_drop, hdrop]
    rfl
  constructor
  case length_le =>
    rw [accepted_enter_of_nil rfl]
    change e'.inFlight.length ≤ _
    rw [hrest]
    omega
  case follows =>
    rw [accepted_enter_of_nil rfl, h.oldest_of_finished hlist hrest, hnext]
    change List.Forall₂ _ _ e'.inFlight
    rwa [hrest]
  case live =>
    refine .inl ⟨accepted_enter_of_nil rfl, ?_⟩
    rw [h.live_of_finished hlist hrest, live, hlist, liveFrom]
    split
    · exact List.Subset.refl _
    · exact List.subset_cons_self _ _
  case told =>
    rw [told_eq_settled (show Op.event event ≠ .invalidate by simp),
      h.settled_of_finished hlist hrest]
    cases hcargo : record.cargo with
    | live request notify =>
      obtain ⟨rfl, rfl⟩ := hs.live_eq request notify hcargo
      have hfirst : l.accepted[l.oldest]? = some s := by
        rw [← Nat.add_zero l.oldest, ← List.getElem?_drop, hdrop]
        rfl
      rw [InFlight.isTombstone_live hcargo, Endpoint.deliveries_live hcargo,
        if_neg Bool.noConfusion]
      exact .cons ⟨s, hfirst, rfl, _, _, hstatus, .inl rfl⟩ .nil
    | tombstone retained =>
      rw [InFlight.isTombstone_tombstone hcargo, Endpoint.deliveries_tombstone hcargo, if_pos rfl]
      exact .nil

end Finished

theorem Consistent.effect_of_invalidated (h : l.Consistent) :
    Effect l .invalidate l.endpoint.invalidate.1.2
      (l.enter .invalidate reply l.endpoint.invalidate.1.2 l.endpoint.invalidate.2) := by
  generalize hds : l.endpoint.invalidate.1.2 = ds
  have haccepted : (l.enter .invalidate reply ds l.endpoint.invalidate.2).accepted =
      l.accepted := List.append_nil _
  constructor
  case length_le => exact Nat.zero_le _
  case follows =>
    have holdest : (l.enter .invalidate reply ds l.endpoint.invalidate.2).oldest =
        l.accepted.length := by
      rw [oldest, haccepted]
      rfl
    rw [haccepted, holdest, List.drop_length]
    exact .nil
  case live => exact .inl ⟨haccepted, List.nil_subset _⟩
  case told =>
    -- No record is left, so that everything live settles.
    have hsettled : l.settled (l.enter .invalidate reply ds l.endpoint.invalidate.2) = l.live :=
      List.filter_eq_self.2 fun n _ => decide_eq_true List.not_mem_nil
    have hasync (i : Nat) (s : Submission ρ) (hs : (l.accepted.drop l.oldest)[i]? = some s) :
        l.isAsync (l.oldest + i) = decide (s.notify = .routine) := by
      rw [List.getElem?_drop] at hs
      rw [isAsync, hs]
      rfl
    rw [told, hsettled, ← hds]
    exact (told_of_invalidate h.follows l.oldest hasync).imp fun _ _ => Returns.of_drop

theorem Consistent.effect (h : l.Consistent) (ht : Transition l.endpoint op reply ds e') :
    Effect l op ds (l.enter op reply ds e') := by
  have hsame : Withdraws .unknown (fun _ => False) l.endpoint.inFlight [] l.endpoint.inFlight :=
    .refl _
  cases ht with
  | unplanned => exact h.effect_of_withdraws (by simp) rfl hsame
  | refused => exact h.effect_of_withdraws (by simp) rfl hsame
  | accepted plan lastTrb ring =>
    exact h.effect_of_accepted rfl ⟨rfl, fun _ _ hlive => by cases hlive; exact ⟨rfl, rfl⟩⟩ rfl rfl
  | stale => exact h.effect_of_withdraws (by simp) rfl hsame
  | advanced event record record' rest position _ hlist _ hadvance =>
    obtain ⟨htd, hcargo⟩ := InFlight.advance_frame_of_eq hadvance
    have hkeep : Withdraws .unknown (fun _ => False) (record :: rest) [] (record' :: rest) :=
      .keep htd hcargo (.refl rest)
    rw [← hlist] at hkeep
    exact h.effect_of_withdraws (by simp) rfl hkeep
  | finished event record record' rest position released outcome ring _ hlist _ hadvance =>
    apply h.effect_of_finished hlist rfl
    rw [InFlight.status_of_advance hadvance]
    split <;> exact Request.Status.noConfusion
  | givenBack id failure =>
    exact h.effect_of_withdraws (by simp) rfl (l.endpoint.withdraws_giveBack id failure)
  | expired now =>
    exact h.effect_of_withdraws (by simp) rfl (l.endpoint.withdraws_expire now)
  | invalidated => exact h.effect_of_invalidated

/-- A step that delivers nothing settles nothing, unless it shuts the endpoint down. -/
theorem Effect.settled_eq_nil (h : Effect l op [] (l.enter op reply [] e'))
    (hop : op ≠ .invalidate) : l.settled (l.enter op reply [] e') = [] := by
  have htold := h.told
  rw [told_eq_settled hop] at htold
  exact List.forall₂_nil_right_iff.1 htold

theorem count_settled_add_count_live {l l' : Ledger ρ} (hsubset : l'.live ⊆ l.live) (n : Nat) :
    (l.settled l').count n + l'.live.count n = l.live.count n := by
  by_cases hn : n ∈ l'.live
  · have hnot : n ∉ l.settled l' := by simp [settled, hn]
    rw [List.count_eq_zero.2 hnot, Nat.zero_add, (nodup_live l).count, (nodup_live l').count,
      if_pos hn, if_pos (hsubset hn)]
  · rw [settled, List.count_filter (by simpa using hn), List.count_eq_zero.2 hn, Nat.add_zero]

theorem count_filter_add_count_filter_not (p : Nat → Bool) (ns : List Nat) (n : Nat) :
    (ns.filter p).count n + (ns.filter (!p ·)).count n = ns.count n := by
  cases hp : p n with
  | true =>
    have hnot : n ∉ ns.filter (!p ·) := by simp [hp]
    rw [List.count_filter hp, List.count_eq_zero.2 hnot, Nat.add_zero]
  | false =>
    have hnot : n ∉ ns.filter p := by simp [hp]
    rw [List.count_eq_zero.2 hnot, List.count_filter (by simp [hp]), Nat.zero_add]

theorem Effect.timesHanded_eq (heffect : Effect l op ds (l.enter op reply ds e')) (n : Nat) :
    (l.enter op reply ds e').timesHanded n =
      l.timesHanded n + (l.told op (l.enter op reply ds e')).count n := by
  have hlength := heffect.told.length_eq
  rw [timesHanded, timesHanded, ← List.count_append]
  change ((l.handed ++ (l.told op (l.enter op reply ds e')).zip ds).map Prod.fst).count n = _
  rw [List.map_append, List.map_fst_zip (Nat.le_of_eq hlength)]

theorem Effect.count_eq (heffect : Effect l op ds (l.enter op reply ds e')) (n : Nat) :
    (l.settled (l.enter op reply ds e')).count n + (l.enter op reply ds e').live.count n +
        (if n < l.accepted.length then 1 else 0) =
      l.live.count n + if n < (l.enter op reply ds e').accepted.length then 1 else 0 := by
  rcases heffect.live with ⟨haccepted, hsubset⟩ | ⟨s, haccepted, hlive⟩
  · rw [count_settled_add_count_live hsubset, haccepted]
  · have hnone : l.settled (l.enter op reply ds e') = [] := by
      rw [settled, hlive]
      exact List.filter_eq_nil_iff.2 fun k hk => by simp [hk]
    rw [hnone, hlive, haccepted, List.count_append, List.count_singleton, List.count_nil,
      List.length_append, List.length_singleton]
    simp only [beq_iff_eq]
    split_ifs <;> omega

/-- Every request stays in one place, or moves to another one. -/
theorem Consistent.enter (h : l.Consistent)
    (heffect : Effect l op ds (l.enter op reply ds e')) :
    (l.enter op reply ds e').Consistent where
  length_le := heffect.length_le
  follows := heffect.follows
  places n := by
    have hplaces := h.places n
    have hcount := heffect.count_eq n
    -- What settles is either dropped or told.
    have hsplit := count_filter_add_count_filter_not (l.drops op)
      (l.settled (l.enter op reply ds e')) n
    have hdropped : (l.enter op reply ds e').dropped.count n = l.dropped.count n +
        ((l.settled (l.enter op reply ds e')).filter (l.drops op)).count n :=
      List.count_append
    rw [heffect.timesHanded_eq, hdropped, told]
    omega
  handed_own n d hd := by
    rcases List.mem_append.1 hd with hd | hd
    · obtain ⟨s, hs, hfinished⟩ := h.handed_own n d hd
      exact ⟨s, accepted_enter hs, hfinished⟩
    · obtain ⟨s, hs, hfinished⟩ := List.forall₂_zip heffect.told hd
      exact ⟨s, accepted_enter hs, hfinished⟩
  dropped_async n hn := by
    have hmono (hn : l.isAsync n = true) : (l.enter op reply ds e').isAsync n = true := by
      obtain ⟨s, hs, hroutine⟩ := (Option.any_eq_true _ _).1 hn
      exact (Option.any_eq_true _ _).2 ⟨s, accepted_enter hs, hroutine⟩
    rcases List.mem_append.1 hn with hn | hn
    · exact hmono (h.dropped_async n hn)
    · have hdrops := (List.mem_filter.1 hn).2
      cases op with
      | invalidate => exact hmono hdrops
      | _ => cases hdrops

end Effect

theorem consistent_fresh (e : Endpoint ρ) (h : Fresh e) :
    Consistent ({ endpoint := e } : Ledger ρ) := by
  obtain ⟨owner, traits, config, base, -, -⟩ := h
  constructor
  case length_le => exact Nat.le_refl _
  case follows => exact .nil
  case places => exact fun n => rfl
  case handed_own =>
    intro n d hd
    cases hd
  case dropped_async =>
    intro n hn
    cases hn

theorem reachable_endpoint {l : Ledger ρ} (h : Reachable l) : l.endpoint.Reachable := by
  induction h with
  | fresh h => exact .fresh h
  | step _ hstep ih =>
    obtain ⟨e', htaken, rfl⟩ := exists_of_step hstep
    exact .step ih htaken

theorem consistent_of_reachable {l : Ledger ρ} (h : Reachable l) : l.Consistent := by
  induction h with
  | fresh h => exact consistent_fresh _ h
  | step _ hstep ih =>
    obtain ⟨e', htaken, rfl⟩ := exists_of_step hstep
    exact ih.enter (ih.effect (Endpoint.transition_of_step htaken))

end Ledger

end UsbHost
