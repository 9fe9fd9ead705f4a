import UsbHost.Proofs.Endpoint.Alignment

/-!
Matching of events with transfer descriptors. The controller finds the TRBs of a TD where they were
enqueued and names them by their addresses. If the TD is the oldest one in flight, the endpoint
recovers from such an address the position of the TRB within the TD, across the end of the ring
too, and position and completion code decide whether the event ends the TD.
-/

namespace UsbHost

/-- Bus addresses at which TRBs are put when they are enqueued one after the other. -/
def ProducerRing.addressesOf (ring : ProducerRing) : List Trb → List UInt64
  | [] => []
  | t :: rest =>
    match ring.enqueue t with
    | .ok (some (address, ring)) => address :: ring.addressesOf rest
    | _ => []

namespace Td

/-- The TRBs of `td` lie at `addresses`; a control TD has a TRB for each of its stages. -/
structure Spans (ring : ProducerRing) (kind : TransferKind) (addresses : List UInt64) (td : Td) :
    Prop where
  length_eq : addresses.length = td.trbCount
  address_eq : ∀ (p : Nat) (a : UInt64), addresses[p]? = some a →
    a = ring.addressAt ((td.firstIndex + p) % ring.capacity)
  stages : kind = .control → td.trbCount = if td.hasData then 3 else 2

theorem Spans.congr {ring ring' : ProducerRing} {kind : TransferKind} {addresses : List UInt64}
    {td : Td} (hbase : ring'.base = ring.base) (hcapacity : ring'.capacity = ring.capacity)
    (h : Spans ring kind addresses td) : Spans ring' kind addresses td where
  length_eq := h.length_eq
  address_eq p a ha := by
    rw [h.address_eq p a ha, ProducerRing.addressAt, ProducerRing.addressAt, hbase, hcapacity]
  stages := h.stages

end Td

namespace ProducerRing

theorem addressesOf_cons {ring : ProducerRing} (hr : ring.WellFormed) (t : Trb) (trbs : List Trb)
    (hroom : ring.outstanding < ring.capacity - 1) :
    ring.addressesOf (t :: trbs) =
      ring.addressAt ring.enqueueIndex :: (ring.accept t).addressesOf trbs := by
  have hfull : ¬ ring.isFull = true := by
    rw [isFull_iff hr]
    omega
  rw [addressesOf, enqueue_eq hr, if_neg hfull]

theorem length_addressesOf {ring : ProducerRing} (hr : ring.WellFormed) {trbs : List Trb}
    (hroom : ring.outstanding + trbs.length ≤ ring.capacity - 1) :
    (ring.addressesOf trbs).length = trbs.length := by
  induction trbs generalizing ring with
  | nil => rfl
  | cons t trbs ih =>
    rw [List.length_cons] at hroom
    rw [addressesOf_cons hr t trbs (by omega), List.length_cons, List.length_cons,
      ih (hr.accept t) (room_accept hr hroom t)]

/-- TRBs are put at consecutive places, from the enqueueing end on. -/
theorem getElem?_addressesOf {ring : ProducerRing} (hr : ring.WellFormed) {trbs : List Trb}
    (hroom : ring.outstanding + trbs.length ≤ ring.capacity - 1) {p : Nat} {a : UInt64}
    (ha : (ring.addressesOf trbs)[p]? = some a) :
    a = ring.addressAt ((ring.enqueueIndex + p) % ring.capacity) := by
  induction trbs generalizing ring p with
  | nil => simp [addressesOf] at ha
  | cons t trbs ih =>
    rw [List.length_cons] at hroom
    rw [addressesOf_cons hr t trbs (by omega)] at ha
    cases p with
    | zero =>
      rw [Nat.add_zero, Nat.mod_eq_of_lt hr.enqueue_lt]
      simpa using ha.symm
    | succ p =>
      have hrest := ih (hr.accept t) (room_accept hr hroom t)
        (by rwa [List.getElem?_cons_succ] at ha)
      simp only [addressAt_accept, capacity_accept, enqueueIndex_accept hr, next,
        Nat.mod_add_mod] at hrest
      rw [hrest, Nat.add_assoc, Nat.add_comm 1 p]

end ProducerRing

namespace InFlight

variable {ρ : Type} {r : InFlight ρ}

/-- The place `p` of a TD is recovered from its address. -/
theorem position?_addressAt {ring : ProducerRing} (hr : ring.WellFormed) {p : Nat}
    (hfirst : r.firstIndex < ring.capacity) (hp : p < r.trbCount)
    (hcount : r.trbCount ≤ ring.capacity) :
    r.position? ring (ring.addressAt ((r.firstIndex + p) % ring.capacity)) = some p := by
  have hindex : (r.firstIndex + p) % ring.capacity < ring.capacity := Nat.mod_lt _ (by omega)
  -- Taking the first index off again leads back to `p`, whether or not the TD wraps around.
  have hback : ((r.firstIndex + p) % ring.capacity + ring.capacity - r.firstIndex) %
      ring.capacity = p := by
    rw [Ring.mod_eq_ite (show r.firstIndex + p < 2 * ring.capacity by omega)]
    split_ifs with hwrap
    · rw [Ring.mod_eq_ite (by omega)]
      split_ifs <;> omega
    · rw [Ring.mod_eq_ite (by omega)]
      split_ifs <;> omega
  rw [position?, ProducerRing.indexOf?_addressAt hr (Nat.le_of_lt hindex)]
  change (guard _ >>= fun _ => guard _ >>= fun _ => some _) = some p
  rw [guard_bind, if_pos hindex, guard_bind, hback, if_pos hp]

/-- A code that ends a TD of this kind at any of its TRBs. -/
def endsEarly : TransferKind → CompletionCode → Bool
  | .control, code => code ≠ .success ∧ code ≠ .shortPacket
  | .bulk, code | .interrupt, code => code ≠ .success
  | .isochronous, _ => false

/-- An event at TRB `position` out of `count` ends a TD: it is the last one, or the code does. -/
def isFinal (kind : TransferKind) (count position : Nat) (code : CompletionCode) : Bool :=
  position + 1 = count || endsEarly kind code

theorem isTransferOk_eq (code : CompletionCode) :
    code.isTransferOk = decide (code = .success ∨ code = .shortPacket) := by
  rw [CompletionCode.isTransferOk, Bool.decide_or, Bool.beq_eq_decide_eq, Bool.beq_eq_decide_eq]

theorem stageAt_cases (r : InFlight ρ) (position : Nat) :
    r.stageAt position = .setup ∨ r.stageAt position = .data ∨ r.stageAt position = .status := by
  unfold stageAt
  split_ifs
  · exact .inl rfl
  · exact .inr (.inl rfl)
  · exact .inr (.inr rfl)

/-- An event at the status stage of a control TD is one at its last TRB. -/
theorem stageAt_eq_status {position : Nat} (hposition : position < r.trbCount)
    (hstages : r.trbCount = if r.hasData then 3 else 2) :
    r.stageAt position = .status ↔ position + 1 = r.trbCount := by
  cases hdata : r.hasData <;> simp only [hdata, if_true, Bool.false_eq_true, if_false] at hstages
  · by_cases hzero : position = 0
    · simp [stageAt, hzero, hstages]
    · simp only [stageAt, hzero, hdata, if_false, Bool.false_and, Bool.false_eq_true, true_iff]
      omega
  · by_cases hzero : position = 0
    · simp [stageAt, hzero, hstages]
    · by_cases hone : position = 1
      · simp [stageAt, hone, hdata, hstages]
      · simp only [stageAt, hzero, hone, hdata, if_false, decide_false, Bool.and_false,
          Bool.false_eq_true, true_iff]
        omega

theorem isSome_advanceControl {position : Nat} (event : TransferEvent)
    (hposition : position < r.trbCount)
    (hstages : r.trbCount = if r.hasData then 3 else 2) :
    (r.advanceControl position event).2.isSome =
      isFinal .control r.trbCount position event.code := by
  have hstatus := stageAt_eq_status hposition hstages
  have hok := isTransferOk_eq event.code
  cases hcode : event.code.isTransferOk with
  | false =>
    rw [hcode, eq_comm, decide_eq_false_iff_not, not_or] at hok
    simp [advanceControl, hcode, isFinal, endsEarly, hok]
  | true =>
    rw [hcode, eq_comm, decide_eq_true_eq] at hok
    have hends : endsEarly .control event.code = false := by
      rcases hok with hok | hok <;> simp [endsEarly, hok]
    -- The code alone ends nothing here, so that only the status stage does.
    rw [isFinal, hends, Bool.or_false]
    rcases r.stageAt_cases position with hstage | hstage | hstage
    · simp [advanceControl, hcode, hstage, ← hstatus]
    · simp [advanceControl, hcode, hstage, ← hstatus]
    · simp [advanceControl, hcode, hstage, ← hstatus]

theorem isSome_bulkOutcome {kind : TransferKind} (hkind : kind = .bulk ∨ kind = .interrupt)
    (position : Nat) (event : TransferEvent) :
    (r.bulkOutcome position event).isSome = isFinal kind r.trbCount position event.code := by
  have hends : endsEarly kind event.code = decide (event.code ≠ .success) := by
    rcases hkind with rfl | rfl <;> rfl
  have hshort : CompletionCode.success ≠ .shortPacket := by decide
  rw [isFinal, hends]
  simp only [bulkOutcome, isTransferOk_eq]
  by_cases hsuccess : event.code = .success
  · by_cases hlast : position + 1 = r.trbCount <;> simp [hsuccess, hshort, hlast]
  · by_cases hpacket : event.code = .shortPacket <;> simp [hsuccess, hpacket, hshort.symm]

/-- The endpoint takes an event to end a TD exactly if it does. -/
theorem isSome_advance {kind : TransferKind} {position : Nat} (event : TransferEvent)
    (hposition : position < r.trbCount)
    (hstages : kind = .control → r.trbCount = if r.hasData then 3 else 2) :
    (r.advance kind position event).2.isSome =
      isFinal kind r.trbCount position event.code := by
  cases kind with
  | control => exact isSome_advanceControl event hposition (hstages rfl)
  | bulk => exact isSome_bulkOutcome (.inl rfl) position event
  | interrupt => exact isSome_bulkOutcome (.inr rfl) position event
  | isochronous =>
    change (r.isochronousOutcome position event).isSome = _
    rw [isochronousOutcome, isFinal, endsEarly, Bool.or_false]
    split
    · rename_i hbefore
      exact (decide_eq_false (Nat.ne_of_lt hbefore)).symm
    · exact (decide_eq_true (by omega)).symm

end InFlight

end UsbHost
