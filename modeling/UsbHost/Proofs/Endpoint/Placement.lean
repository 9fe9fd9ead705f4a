import Mathlib.Data.List.Forall2
import UsbHost.Proofs.Endpoint.Matching

/-!
Where the TDs of an endpoint have been put. Beside the endpoint a history is kept of all accepted
requests, each with the TRBs it was planned as and the addresses at which these were put. The
requests in flight are the last ones in this history, and their records know where their TRBs are
and how much data these describe.
-/

namespace UsbHost

variable {ρ : Type}

/-- An accepted request: what it was planned as, and where its TRBs were put. -/
structure Placement (ρ : Type) where
  request : Request ρ
  data : UInt64
  plan : TdPlan
  addresses : List UInt64

namespace InFlight

/-- What becomes of a record while it is in flight: its request may go, its TD stays. -/
structure Ages (r r' : InFlight ρ) : Prop where
  td_eq : r'.td = r.td
  dataLength_eq : r'.dataLength = r.dataLength
  live_eq : ∀ request notify, r'.cargo = .live request notify → r.cargo = .live request notify

theorem Ages.refl (r : InFlight ρ) : r.Ages r := ⟨rfl, rfl, fun _ _ h => h⟩

@[simp] theorem dataLength_advance (r : InFlight ρ) (kind : TransferKind) (position : Nat)
    (event : TransferEvent) : (r.advance kind position event).1.dataLength = r.dataLength := by
  cases kind with
  | control =>
    simp only [advance, advanceControl]
    split
    · rfl
    · split <;> rfl
  | bulk | interrupt | isochronous => rfl

theorem ages_advance {r r' : InFlight ρ} {kind : TransferKind} {position : Nat}
    {event : TransferEvent} {outcome : Option Outcome}
    (h : r.advance kind position event = (r', outcome)) : r.Ages r' := by
  obtain ⟨htd, hcargo⟩ := advance_frame_of_eq h
  have hlength := dataLength_advance r kind position event
  rw [h] at hlength
  exact ⟨htd, hlength, fun _ _ hlive => hcargo.symm.trans hlive⟩

theorem ages_bury (r : InFlight ρ) (failure : TransferFailure) : r.Ages (r.bury failure).2 := by
  cases hcargo : r.cargo with
  | live request notify =>
    rw [bury_live hcargo]
    exact ⟨rfl, rfl, nofun⟩
  | tombstone retained =>
    rw [bury_tombstone hcargo]
    exact .refl r

end InFlight

namespace Endpoint

open InFlight (Ages)

theorem forall₂_ages_refl (rs : List (InFlight ρ)) : List.Forall₂ Ages rs rs :=
  List.forall₂_same.2 fun r _ => .refl r

/-- Whichever records are buried, all of them age. -/
theorem ages_of_buries {failure : TransferFailure} {due : InFlight ρ → Prop}
    {rs rs' : List (InFlight ρ)} {ds : List (Delivery ρ)} (h : Buries failure due rs ds rs') :
    List.Forall₂ Ages rs rs' := by
  refine h.forall₂ .refl fun r deadline => ?_
  obtain ⟨htd, hlength, hlive⟩ := InFlight.ages_bury { r with deadline := deadline } failure
  exact ⟨htd, hlength, hlive⟩

end Endpoint

/-- The record `r` is that of the placement `p`. -/
structure Placement.Of (ring : ProducerRing) (kind : TransferKind) (p : Placement ρ)
    (r : InFlight ρ) : Prop where
  planned : (TdPlan.ofRequest kind p.request p.data).run = .ok (.ok p.plan)
  live_eq : ∀ request notify, r.cargo = .live request notify → request = p.request
  trbCount_eq : r.trbCount = p.plan.trbs.length
  dataLength_eq : r.dataLength = p.plan.dataLength
  length_eq : p.addresses.length = p.plan.trbs.length
  address_eq : ∀ (k : Nat) (a : UInt64), p.addresses[k]? = some a →
    a = ring.addressAt ((r.firstIndex + k) % ring.capacity)

namespace Placement.Of

variable {ring ring' : ProducerRing} {kind : TransferKind} {p : Placement ρ} {r r' : InFlight ρ}

theorem congr (h : p.Of ring kind r) (hbase : ring'.base = ring.base)
    (hcapacity : ring'.capacity = ring.capacity) : p.Of ring' kind r :=
  { h with
    address_eq := fun k a ha => by
      rw [h.address_eq k a ha, ProducerRing.addressAt, ProducerRing.addressAt, hbase, hcapacity] }

theorem age (h : p.Of ring kind r) (hr : r.Ages r') : p.Of ring kind r' where
  planned := h.planned
  live_eq request notify hlive := h.live_eq request notify (hr.live_eq request notify hlive)
  trbCount_eq := (congrArg Td.trbCount hr.td_eq).trans h.trbCount_eq
  dataLength_eq := hr.dataLength_eq.trans h.dataLength_eq
  length_eq := h.length_eq
  address_eq k a ha := by
    have hfirst : r'.firstIndex = r.firstIndex := congrArg Td.firstIndex hr.td_eq
    rw [h.address_eq k a ha, hfirst]

theorem age_all {ps : List (Placement ρ)} {rs rs' : List (InFlight ρ)}
    (h : List.Forall₂ (Of ring kind) ps rs) (hages : List.Forall₂ InFlight.Ages rs rs') :
    List.Forall₂ (Of ring kind) ps rs' := by
  induction h generalizing rs' with
  | nil =>
    cases hages
    exact .nil
  | cons hp _ ih =>
    cases hages with
    | cons hr hrest => exact .cons (hp.age hr) (ih hrest)

end Placement.Of

namespace Endpoint

/-! ### Histories -/

/-- What a step puts on the ring. -/
def placed (e : Endpoint ρ) : Op ρ → Reply → List (Placement ρ)
  | .submit request data _ _, .submitted (.ok _) =>
    match (TdPlan.ofRequest e.kind request data).run with
    | .ok (.ok plan) => [⟨request, data, plan, e.ring.addressesOf plan.trbs⟩]
    | _ => []
  | _, _ => []

/-- Endpoints that steps lead to from a new one, each with all that has been put on its ring. In
between the packet size may have been set. -/
inductive Placed : List (Placement ρ) → Endpoint ρ → Prop
  | fresh {e : Endpoint ρ} (h : Fresh e) : Placed [] e
  | step {ps : List (Placement ρ)} {e e' : Endpoint ρ} {op : Op ρ} {reply : Reply}
      {ds : List (Delivery ρ)} (h : Placed ps e) (hstep : e.step op = .ok ((reply, ds), e')) :
      Placed (ps ++ e.placed op reply) e'
  | packetSize {ps : List (Placement ρ)} {e : Endpoint ρ} (h : Placed ps e) (size : UInt16) :
      Placed ps { e with maxPacketSize := size }

/-- The requests in flight are the ones accepted last, oldest first. -/
structure Tallies (ps : List (Placement ρ)) (e : Endpoint ρ) : Prop where
  sound : e.Sound
  last_eq : ∃ gone present, ps = gone ++ present ∧
    List.Forall₂ (Placement.Of e.ring e.kind) present e.inFlight

namespace Tallies

variable {ps : List (Placement ρ)} {e e' : Endpoint ρ} {op : Op ρ} {reply : Reply}
  {ds : List (Delivery ρ)}

theorem fresh (h : Fresh e) : Tallies [] e := by
  refine ⟨sound_of_fresh h, [], [], rfl, ?_⟩
  obtain ⟨owner, traits, config, base, -, -⟩ := h
  exact .nil

/-- The TD of an accepted request has its TRBs from the enqueueing end on. -/
theorem of_accepted (haligned : e.Aligned) {request : Request ρ} {data : UInt64} {plan : TdPlan}
    {lastTrb : UInt64} {ring : ProducerRing} (notify : Notify) (deadline : Option UInt64)
    (hplan : (TdPlan.ofRequest e.kind request data).run = .ok (.ok plan))
    (hroom : e.refusal? plan = none)
    (henqueue : enqueueAll e.ring 0 plan.trbs = .ok (lastTrb, ring)) :
    ring.base = e.ring.base ∧ ring.capacity = e.ring.capacity ∧
      Placement.Of ring e.kind ⟨request, data, plan, e.ring.addressesOf plan.trbs⟩
        (e.record plan request notify deadline lastTrb) := by
  have hr := haligned.wellFormed
  have hfits := (room_of_refusal? hr hroom).2
  rw [enqueueAll_eq hr hfits, Except.ok.injEq, Prod.mk.injEq] at henqueue
  obtain ⟨-, rfl⟩ := henqueue
  have hbase := ProducerRing.base_acceptAll (r := e.ring) plan.trbs
  have hcapacity := ProducerRing.capacity_acceptAll (r := e.ring) plan.trbs
  refine ⟨hbase, hcapacity, ?_⟩
  refine Placement.Of.congr ?_ hbase hcapacity
  constructor
  case planned => exact hplan
  case live_eq =>
    intro request' notify' hlive
    cases hlive
    rfl
  case trbCount_eq => rfl
  case dataLength_eq => rfl
  case length_eq => exact ProducerRing.length_addressesOf hr hfits
  case address_eq => exact fun k a ha => ProducerRing.getElem?_addressesOf hr hfits ha

theorem transition (h : Tallies ps e) (ht : Transition e op reply ds e') :
    Tallies (ps ++ e.placed op reply) e' := by
  refine ⟨h.sound.transition ht, ?_⟩
  obtain ⟨gone, present, rfl, hpresent⟩ := h.last_eq
  cases ht with
  | unplanned => exact ⟨gone, present, List.append_nil _, hpresent⟩
  | refused => exact ⟨gone, present, List.append_nil _, hpresent⟩
  | stale => exact ⟨gone, present, List.append_nil _, hpresent⟩
  | @accepted request data notify deadline plan lastTrb ring hplan hroom henqueue =>
    have haligned := h.sound.aligned (valid_of_refusal? hroom)
    obtain ⟨hbase, hcapacity, hof⟩ :=
      of_accepted haligned notify deadline hplan hroom henqueue
    refine ⟨gone, present ++ [⟨request, data, plan, e.ring.addressesOf plan.trbs⟩], ?_, ?_⟩
    · rw [placed, hplan, List.append_assoc]
    · exact List.rel_append (hpresent.imp fun _ _ hp => hp.congr hbase hcapacity)
        (.cons hof .nil)
  | advanced event record record' rest position _ hlist _ hadvance =>
    rw [hlist] at hpresent
    have hages : List.Forall₂ InFlight.Ages (record :: rest) (record' :: rest) :=
      .cons (InFlight.ages_advance hadvance) (forall₂_ages_refl rest)
    exact ⟨gone, present, List.append_nil _, Placement.Of.age_all hpresent hages⟩
  | finished event record record' rest position released outcome ring _ hlist _ _ hrelease =>
    have haligned := h.sound.aligned (h.sound.valid_of_inFlight hlist)
    obtain rfl := haligned.eq_drop_of_release hlist hrelease
    rw [hlist] at hpresent
    cases hpresent with
    | @cons p _ present _ _ hrest =>
      exact ⟨gone ++ [p], present, (List.append_nil _).trans (List.append_cons gone p present),
        hrest.imp fun _ _ hp => hp.congr rfl rfl⟩
  | givenBack id failure =>
    exact ⟨gone, present, List.append_nil _,
      Placement.Of.age_all hpresent (ages_of_buries (buries_buryFirst id failure e.inFlight))⟩
  | expired now =>
    exact ⟨gone, present, List.append_nil _,
      Placement.Of.age_all hpresent (ages_of_buries (buries_buryExpired now e.inFlight))⟩
  | invalidated =>
    refine ⟨gone ++ present, [], ?_, .nil⟩
    rw [List.append_nil]
    exact List.append_nil _

theorem packetSize (h : Tallies ps e) (size : UInt16) :
    Tallies ps { e with maxPacketSize := size } := ⟨h.sound.setPacketSize size, h.last_eq⟩

end Tallies

theorem Placed.tallies {ps : List (Placement ρ)} {e : Endpoint ρ} (h : Placed ps e) :
    Tallies ps e := by
  induction h with
  | fresh h => exact .fresh h
  | step _ hstep ih => exact ih.transition (transition_of_step hstep)
  | packetSize _ size ih => exact ih.packetSize size

end Endpoint

end UsbHost
