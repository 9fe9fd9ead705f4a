import Mathlib.Data.List.Forall2
import UsbHost.Proofs.Endpoint.Alignment

/-!
Deadlines. Beside an endpoint a list is kept of all accepted requests, each with the time of its
submission and the timeout that it was given. The time at which a request is due is the exact sum of
the two. A record knows this time as a word, which is good as long as the sum is one; so when the
endpoint looks for requests that have timed out, it finds those that are live and due, in the order
in which they were submitted, and no others.
-/

namespace UsbHost

open Endpoint (Op Reply Fresh Transition)

variable {ρ : Type}

/-- An accepted request, with the time of its submission and the timeout it was given. -/
structure Term (ρ : Type) where
  request : Request ρ
  notify : Notify
  submitted : UInt64
  timeout : UInt64

namespace Term

/-- The time of an asynchronous request is up; timeout 0 stands for none. -/
def isDue (s : Term ρ) (now : UInt64) : Bool :=
  s.notify = .routine ∧ s.timeout ≠ 0 ∧ s.submitted.toNat + s.timeout.toNat ≤ now.toNat

/-- The deadline that a request is submitted with; one that is waited for has none. -/
def deadline (s : Term ρ) : Option UInt64 :=
  if s.notify = .routine ∧ s.timeout ≠ 0 then some (s.submitted + s.timeout) else none

/-- The request is due before the end of time, if ever. -/
def Fits (s : Term ρ) : Prop :=
  s.notify = .routine → s.timeout = 0 ∨ s.submitted.toNat + s.timeout.toNat < UInt64.size

theorem deadline_any {s : Term ρ} (h : s.Fits) (now : UInt64) :
    s.deadline.any (· ≤ now) = s.isDue now := by
  unfold deadline isDue
  by_cases hroutine : s.notify = .routine
  · by_cases hzero : s.timeout = 0
    · simp [hzero]
    · have hsum : (s.submitted + s.timeout).toNat = s.submitted.toNat + s.timeout.toNat := by
        rw [UInt64.toNat_add]
        exact Nat.mod_eq_of_lt ((h hroutine).resolve_left hzero)
      simp [hroutine, hzero, UInt64.le_iff_toNat_le, hsum]
  · simp [hroutine]

/-- The request as it comes back when its time is up. -/
def timedOut (s : Term ρ) : Delivery ρ :=
  ⟨s.notify, s.request.takeBuffer.2.finish (.failed .timeout) 0⟩

/-- As long as it is live, the record `r` holds the request and its deadline. -/
structure Of (s : Term ρ) (r : InFlight ρ) : Prop where
  fits : s.Fits
  live_eq : ∀ request notify, r.cargo = .live request notify →
    request = s.request ∧ notify = s.notify ∧ r.deadline = s.deadline

/-- What is put on the list when a request has been answered. -/
def entry (s : Term ρ) : Except Error RequestId → List (Term ρ)
  | .ok _ => [s]
  | .error _ => []

/-- The record is live, and its request is due. -/
def lapses (now : UInt64) (x : Term ρ × InFlight ρ) : Bool := !x.2.isTombstone && x.1.isDue now

end Term

/-- What becomes of a record while it is in flight, until its request is given back. -/
def InFlight.Remains (r r' : InFlight ρ) : Prop :=
  ∀ request notify, r'.cargo = .live request notify →
    r.cargo = .live request notify ∧ r'.deadline = r.deadline

namespace InFlight

theorem Remains.refl (r : InFlight ρ) : r.Remains r := fun _ _ h => ⟨h, rfl⟩

@[simp] theorem deadline_advance (r : InFlight ρ) (kind : TransferKind) (position : Nat)
    (event : TransferEvent) : (r.advance kind position event).1.deadline = r.deadline := by
  cases kind with
  | control =>
    simp only [advance, advanceControl]
    split
    · rfl
    · split <;> rfl
  | bulk | interrupt | isochronous => rfl

theorem remains_advance {r r' : InFlight ρ} {kind : TransferKind} {position : Nat}
    {event : TransferEvent} {outcome : Option Outcome}
    (h : r.advance kind position event = (r', outcome)) : r.Remains r' := by
  have hdeadline := deadline_advance r kind position event
  rw [h] at hdeadline
  exact fun _ _ hlive => ⟨(advance_frame_of_eq h).2.symm.trans hlive, hdeadline⟩

/-- A buried record is not live, whatever it has been. -/
@[simp] theorem isTombstone_bury (r : InFlight ρ) (failure : TransferFailure) :
    (r.bury failure).2.isTombstone = true := by
  cases hcargo : r.cargo with
  | live request notify => rw [bury_live hcargo]; rfl
  | tombstone retained => simp [hcargo]

theorem remains_of_tombstone {r r' : InFlight ρ} (h : r'.isTombstone = true) : r.Remains r' := by
  intro request notify hlive
  rw [isTombstone_live hlive] at h
  cases h

end InFlight

theorem Term.Of.remain {s : Term ρ} {r r' : InFlight ρ} (h : s.Of r) (hr : r.Remains r') :
    s.Of r' where
  fits := h.fits
  live_eq request notify hlive := by
    obtain ⟨hbefore, hdeadline⟩ := hr request notify hlive
    rw [hdeadline]
    exact h.live_eq request notify hbefore

theorem Term.Of.remain_all {ss : List (Term ρ)} {rs rs' : List (InFlight ρ)}
    (h : List.Forall₂ Of ss rs) (hremains : List.Forall₂ InFlight.Remains rs rs') :
    List.Forall₂ Of ss rs' := by
  induction h generalizing rs' with
  | nil =>
    cases hremains
    exact .nil
  | cons hs _ ih =>
    cases hremains with
    | cons hr hrest => exact .cons (hs.remain hr) (ih hrest)

namespace Endpoint

open InFlight (Remains)

theorem remains_refl (rs : List (InFlight ρ)) : List.Forall₂ Remains rs rs :=
  List.forall₂_same.2 fun r _ => .refl r

/-- Whichever records are buried, all of them remain what they are. -/
theorem remains_of_buries {failure : TransferFailure} {due : InFlight ρ → Prop}
    {rs rs' : List (InFlight ρ)} {ds : List (Delivery ρ)} (h : Buries failure due rs ds rs') :
    List.Forall₂ Remains rs rs' :=
  h.forall₂ .refl fun _ _ => InFlight.remains_of_tombstone (InFlight.isTombstone_bury _ _)

/-! ### Runs with a clock -/

/-- Endpoints that steps lead to from a new one, each with all the requests that it has accepted,
when their deadlines follow from the times and timeouts of their submissions. In between the packet
size may have been set. -/
inductive Timed : List (Term ρ) → Endpoint ρ → Prop
  | fresh {e : Endpoint ρ} (h : Fresh e) : Timed [] e
  | submit {ss : List (Term ρ)} {e e' : Endpoint ρ} (h : Timed ss e) (s : Term ρ) (hfits : s.Fits)
      {data : UInt64} {result : Except Error RequestId}
      (hstep : e.submitRequest s.request data s.notify s.deadline = .ok (result, e')) :
      Timed (ss ++ s.entry result) e'
  | step {ss : List (Term ρ)} {e e' : Endpoint ρ} {op : Op ρ} {reply : Reply}
      {ds : List (Delivery ρ)} (h : Timed ss e)
      (hop : ∀ request data notify deadline, op ≠ .submit request data notify deadline)
      (hstep : e.step op = .ok ((reply, ds), e')) : Timed ss e'
  | packetSize {ss : List (Term ρ)} {e : Endpoint ρ} (h : Timed ss e) (size : UInt16) :
      Timed ss { e with maxPacketSize := size }

/-- The requests in flight are the ones accepted last, oldest first. -/
structure Terms (ss : List (Term ρ)) (e : Endpoint ρ) : Prop where
  sound : e.Sound
  last_eq : ∃ gone present, ss = gone ++ present ∧ List.Forall₂ Term.Of present e.inFlight

section Run

variable {ss : List (Term ρ)} {e e' : Endpoint ρ}

theorem Terms.submit (h : Terms ss e) (s : Term ρ) (hfits : s.Fits) {data : UInt64}
    {result : Except Error RequestId}
    (hstep : e.submitRequest s.request data s.notify s.deadline = .ok (result, e')) :
    Terms (ss ++ s.entry result) e' := by
  have ht := transition_submit hstep
  refine ⟨h.sound.transition ht, ?_⟩
  obtain ⟨gone, present, rfl, hpresent⟩ := h.last_eq
  cases ht with
  | unplanned => exact ⟨gone, present, List.append_nil _, hpresent⟩
  | refused => exact ⟨gone, present, List.append_nil _, hpresent⟩
  | accepted plan lastTrb ring =>
    refine ⟨gone, present ++ [s], List.append_assoc _ _ _, List.rel_append hpresent ?_⟩
    refine .cons ⟨hfits, fun request notify hlive => ?_⟩ .nil
    cases hlive
    exact ⟨rfl, rfl, rfl⟩

theorem Terms.step (h : Terms ss e) {op : Op ρ} {reply : Reply} {ds : List (Delivery ρ)}
    (hop : ∀ request data notify deadline, op ≠ .submit request data notify deadline)
    (ht : Transition e op reply ds e') : Terms ss e' := by
  refine ⟨h.sound.transition ht, ?_⟩
  obtain ⟨gone, present, rfl, hpresent⟩ := h.last_eq
  cases ht with
  | unplanned => exact absurd rfl (hop _ _ _ _)
  | refused => exact absurd rfl (hop _ _ _ _)
  | accepted => exact absurd rfl (hop _ _ _ _)
  | stale => exact ⟨gone, present, rfl, hpresent⟩
  | advanced event record record' rest position _ hlist _ hadvance =>
    rw [hlist] at hpresent
    have hremains : List.Forall₂ Remains (record :: rest) (record' :: rest) :=
      .cons (InFlight.remains_advance hadvance) (remains_refl rest)
    exact ⟨gone, present, rfl, Term.Of.remain_all hpresent hremains⟩
  | finished event record record' rest position released outcome ring _ hlist =>
    rw [hlist] at hpresent
    obtain _ | @⟨s, _, present, _, _, hrest⟩ := hpresent
    exact ⟨gone ++ [s], present, List.append_cons gone s present, hrest⟩
  | givenBack id failure =>
    exact ⟨gone, present, rfl,
      Term.Of.remain_all hpresent (remains_of_buries (buries_buryFirst id failure e.inFlight))⟩
  | expired now =>
    exact ⟨gone, present, rfl,
      Term.Of.remain_all hpresent (remains_of_buries (buries_buryExpired now e.inFlight))⟩
  | invalidated => exact ⟨gone ++ present, [], (List.append_nil _).symm, .nil⟩

theorem Timed.terms (h : Timed ss e) : Terms ss e := by
  induction h with
  | fresh h =>
    refine ⟨sound_of_fresh h, [], [], rfl, ?_⟩
    obtain ⟨owner, traits, config, base, -, -⟩ := h
    exact .nil
  | submit _ s hfits hstep ih => exact ih.submit s hfits hstep
  | step _ hop hstep ih => exact ih.step hop (transition_of_step hstep)
  | packetSize _ size ih => exact ⟨ih.sound.setPacketSize size, ih.last_eq⟩

end Run

/-! ### What expires -/

/-- Of the requests in flight, which are `present`, those that have timed out at `now`, as they are
given back. -/
def lapsed (e : Endpoint ρ) (now : UInt64) (present : List (Term ρ)) : List (Delivery ρ) :=
  ((present.zip e.inFlight).filter (Term.lapses now)).map fun x => x.1.timedOut

/-- Of the requests in flight, which are `present`, those that are live and due at `now` are given
back, in the order of submission, and their records become tombstones. Nothing else changes but
deadlines. -/
structure Expires (e : Endpoint ρ) (now : UInt64) (present : List (Term ρ)) : Prop where
  deliveries_eq : (e.expire now).1 = e.lapsed now present
  cargo_eq : (e.expire now).2.inFlight.map InFlight.cargo = (present.zip e.inFlight).map fun x =>
    if Term.lapses now x then .tombstone x.1.request.buffer else x.2.cargo
  tds_eq : (e.expire now).2.tds = e.tds

theorem buryExpired_cons_of_due {now : UInt64} {r : InFlight ρ}
    (h : r.deadline.any (· ≤ now) = true) (rs : List (InFlight ρ)) :
    buryExpired now (r :: rs) =
      ((InFlight.bury { r with deadline := none } .timeout).1.toList ++ (buryExpired now rs).1,
        (InFlight.bury { r with deadline := none } .timeout).2 :: (buryExpired now rs).2) := by
  simp only [buryExpired, h, if_true]

theorem buryExpired_cons_of_not_due {now : UInt64} {r : InFlight ρ}
    (h : r.deadline.any (· ≤ now) = false) (rs : List (InFlight ρ)) :
    buryExpired now (r :: rs) = ((buryExpired now rs).1, r :: (buryExpired now rs).2) := by
  simp only [buryExpired, h, Bool.false_eq_true, if_false]

theorem buryExpired_eq (now : UInt64) {present : List (Term ρ)} {rs : List (InFlight ρ)}
    (h : List.Forall₂ Term.Of present rs) :
    (buryExpired now rs).1 =
        ((present.zip rs).filter (Term.lapses now)).map (fun x => x.1.timedOut) ∧
      (buryExpired now rs).2.map InFlight.cargo = (present.zip rs).map fun x =>
        if Term.lapses now x then .tombstone x.1.request.buffer else x.2.cargo := by
  induction h with
  | nil => exact ⟨rfl, rfl⟩
  | @cons s r present rs hs _ ih =>
    obtain ⟨hdeliveries, hcargos⟩ := ih
    rw [List.zip_cons_cons, List.filter_cons, List.map_cons]
    cases hcargo : r.cargo with
    | live request notify =>
      obtain ⟨rfl, rfl, hdeadline⟩ := hs.live_eq _ _ hcargo
      have hlapses : Term.lapses now (s, r) = r.deadline.any (· ≤ now) := by
        rw [hdeadline, Term.deadline_any hs.fits, Term.lapses, InFlight.isTombstone_live hcargo]
        rfl
      rw [hlapses]
      cases hdue : r.deadline.any (· ≤ now) with
      | true =>
        rw [buryExpired_cons_of_due hdue,
          InFlight.bury_live (r := { r with deadline := none }) hcargo, ← hcargos, hdeliveries]
        exact ⟨rfl, rfl⟩
      | false =>
        rw [buryExpired_cons_of_not_due hdue, ← hcargos, hdeliveries, List.map_cons, hcargo]
        exact ⟨rfl, rfl⟩
    | tombstone retained =>
      have hlapses : Term.lapses now (s, r) = false := by
        simp [Term.lapses, hcargo]
      rw [hlapses]
      cases hdue : r.deadline.any (· ≤ now) with
      | true =>
        rw [buryExpired_cons_of_due hdue,
          InFlight.bury_tombstone (r := { r with deadline := none }) hcargo, ← hcargos, hdeliveries,
          List.map_cons, hcargo]
        exact ⟨rfl, rfl⟩
      | false =>
        rw [buryExpired_cons_of_not_due hdue, ← hcargos, hdeliveries, List.map_cons, hcargo]
        exact ⟨rfl, rfl⟩

theorem expires {e : Endpoint ρ} {present : List (Term ρ)}
    (h : List.Forall₂ Term.Of present e.inFlight) (now : UInt64) : e.Expires now present where
  deliveries_eq := (buryExpired_eq now h).1
  cargo_eq := (buryExpired_eq now h).2
  tds_eq := (withdraws_expire e now).map_td

end Endpoint

end UsbHost
