import Mathlib.Algebra.Group.Nat.Defs
import UsbHost.Proofs.Endpoint.Admission
import UsbHost.Proofs.Endpoint.Retention

/-!
Bulk and interrupt TDs. The buffer of such a request is cut into chunks of at most 64 KiB, one TRB
each, which lie end to end. An event names one of these TRBs. What has been transferred by then is
counted from its place in the TD alone, and comes to the chunks before it and what the event leaves
of its own.
-/

namespace UsbHost

variable {ρ : Type}

/-! ### Chunks as TRBs -/

namespace Trb

theorem flags_normal (buffer : UInt64) (length remaining : UInt32) (flags : Flags) :
    (normal buffer length remaining flags).flags =
      .ofBits (Kind.normal.controlBits ||| flags.bits) := rfl

/-- Bytes of data that some TRBs describe together. -/
def totalLength : List Trb → Nat
  | [] => 0
  | t :: ts => t.dataLength + totalLength ts

/-- The TRB is number `i` of a TD of `count` Normal TRBs, of which the last one reports that it is
done and the others report if they are cut short. -/
structure InChain (count i : Nat) (t : Trb) : Prop where
  kind?_eq : t.kind? = some .normal
  flags_eq : t.flags =
    if i + 1 = count then .interruptOnCompletion else .chain ||| .interruptOnShortPacket
  /-- The status word is made up of the two fields. -/
  status_eq : t.status.toNat = t.tdSize * 0x20000 + t.dataLength
  /-- The number of TRBs that follow is a word of 32 bits before it is cut to its field. -/
  tdSize_eq : t.tdSize = min ((count - i - 1) % 0x100000000) 31
  /-- Up to 256 TiB the word does not overflow. -/
  tdSize_eq_min : count ≤ 0x100000000 → t.tdSize = min (count - i - 1) 31

theorem inChain_normal {count i : Nat} {length : UInt32} (h : length.toNat ≤ maxTransfer)
    (hi : i < count) (buffer : UInt64) :
    (normal buffer length (UInt32.ofNat (count - i - 1))
      (if count - i - 1 = 0 then .interruptOnCompletion
        else .chain ||| .interruptOnShortPacket)).InChain count i := by
  have hread := (Draft.fits_normal h (Draft.flags_chunk (count - i - 1)) buffer
    (UInt32.ofNat (count - i - 1))).readIn
  have hsize := hread.tdSize_eq
  rw [Draft.remaining, UInt32.toNat_ofNat'] at hsize
  constructor
  case status_eq =>
    have hfields := congrArg₂ (· * 0x20000 + ·) hread.tdSize_eq hread.dataLength_eq
    exact (toNat_dataStatus h).trans hfields.symm
  case tdSize_eq => exact hsize
  case tdSize_eq_min =>
    intro hcount
    rwa [Nat.mod_eq_of_lt (by omega)] at hsize
  case kind?_eq => exact hread.kind?_eq
  case flags_eq =>
    rw [flags_normal]
    by_cases hlast : i + 1 = count
    · rw [if_pos (show count - i - 1 = 0 by omega), if_pos hlast]
      decide
    · rw [if_neg (show ¬ count - i - 1 = 0 by omega), if_neg hlast]
      decide

/-- The TRBs describe consecutive chunks of memory from `start` to `stop`. -/
inductive Tiles : Nat → List Trb → Nat → Prop
  | nil (stop : Nat) : Tiles stop [] stop
  | cons {start stop : Nat} {t : Trb} {ts : List Trb} (address_eq : t.parameter.toNat = start)
      (pos : 1 ≤ t.dataLength) (le : t.dataLength ≤ maxTransfer)
      (rest : Tiles (start + t.dataLength) ts stop) : Tiles start (t :: ts) stop

namespace Tiles

variable {start stop k : Nat} {t : Trb} {ts : List Trb}

theorem totalLength_eq (h : Tiles start ts stop) : start + totalLength ts = stop := by
  induction h with
  | nil => rfl
  | cons _ _ _ _ ih => rw [totalLength, ← Nat.add_assoc, ih]

/-- A chunk begins where the ones before it end. -/
theorem address_eq (h : Tiles start ts stop) (hk : ts[k]? = some t) :
    t.parameter.toNat = start + totalLength (ts.take k) := by
  induction h generalizing k with
  | nil => cases hk
  | cons haddress _ _ _ ih =>
    cases k with
    | zero =>
      cases hk
      exact haddress
    | succ k => rw [ih hk, List.take_succ_cons, totalLength, Nat.add_assoc]

/-- A chunk ends inside the memory that is described. -/
theorem end_le (h : Tiles start ts stop) (hk : ts[k]? = some t) :
    t.parameter.toNat + t.dataLength ≤ stop := by
  induction h generalizing k with
  | nil => cases hk
  | cons haddress _ _ hrest ih =>
    cases k with
    | zero =>
      cases hk
      rw [haddress, ← hrest.totalLength_eq]
      exact Nat.le_add_right _ _
    | succ k => exact ih hk

end Tiles

end Trb

/-! ### Cutting a buffer -/

namespace TdPlan

variable {r : Request ρ} {data : UInt64} {plan : TdPlan} {length i : Nat} {t : Trb}

theorem chunkCount_eq (length : Nat) : chunkCount length = (length + 0xffff) / 0x10000 := by
  rw [chunkCount, Nat.add_sub_assoc (by decide)]
  rfl

theorem mul_lt_of_lt_chunkCount (h : i < chunkCount length) : i * Trb.maxTransfer < length := by
  have hsize : Trb.maxTransfer = 65536 := rfl
  rw [chunkCount, Nat.lt_div_iff_mul_lt (by decide)] at h
  omega

theorem length_le_of_chunkCount_le (h : chunkCount length ≤ i) : length ≤ i * Trb.maxTransfer := by
  have hsize : Trb.maxTransfer = 65536 := rfl
  rw [chunkCount, Nat.div_le_iff_le_mul_add_pred (by decide), Nat.mul_comm] at h
  omega

theorem address_chunk (h : chunk data length i = .ok t) :
    t.parameter.toNat = data.toNat + i * Trb.maxTransfer := by
  obtain ⟨address, haddress, h⟩ := Fault.bind_eq_ok.1 h
  cases h
  exact toNat_busOffset haddress

theorem dataLength_chunk (h : chunk data length i = .ok t) :
    t.dataLength = chunkLength length i := by
  obtain ⟨address, -, h⟩ := Fault.bind_eq_ok.1 h
  cases h
  exact (fits_chunk address length i).readIn.dataLength_eq.trans (toNat_chunkLength length i)

theorem inChain_chunk (hi : i < chunkCount length) (h : chunk data length i = .ok t) :
    t.InChain (chunkCount length) i := by
  obtain ⟨address, -, h⟩ := Fault.bind_eq_ok.1 h
  cases h
  exact Trb.inChain_normal (chunkLength_le length i) hi address

/-- From chunk `i` on, the chunks describe the rest of the buffer. -/
theorem tiles_chunks {trbs : List Trb} (hcount : i + trbs.length = chunkCount length)
    (h : ∀ k t, trbs[k]? = some t → chunk data length (i + k) = .ok t) :
    Trb.Tiles (data.toNat + min (i * Trb.maxTransfer) length) trbs (data.toNat + length) := by
  induction trbs generalizing i with
  | nil =>
    rw [List.length_nil, Nat.add_zero] at hcount
    rw [Nat.min_eq_right (length_le_of_chunkCount_le (Nat.le_of_eq hcount.symm))]
    exact .nil _
  | cons t trbs ih =>
    rw [List.length_cons] at hcount
    have hfirst : chunk data length i = .ok t := h 0 t rfl
    have hstart : i * Trb.maxTransfer < length := mul_lt_of_lt_chunkCount (by omega)
    have hlength : t.dataLength = min (length - i * Trb.maxTransfer) Trb.maxTransfer :=
      dataLength_chunk hfirst
    have hrest : Trb.Tiles (data.toNat + min ((i + 1) * Trb.maxTransfer) length) trbs
        (data.toNat + length) := by
      refine ih (by omega) fun k t' hk => ?_
      rw [Nat.add_assoc, Nat.add_comm 1 k]
      exact h (k + 1) t' hk
    rw [Nat.succ_mul] at hrest
    have hsize : Trb.maxTransfer = 65536 := rfl
    rw [Nat.min_eq_left (Nat.le_of_lt hstart)]
    refine .cons (address_chunk hfirst) (by omega) (by omega) ?_
    have hnext : data.toNat + i * Trb.maxTransfer + t.dataLength =
        data.toNat + min (i * Trb.maxTransfer + Trb.maxTransfer) length := by omega
    rwa [hnext]

/-- The plan covers `length` bytes at `data`: with as few TRBs as can be, end to end. -/
structure Covers (plan : TdPlan) (data : UInt64) (length : Nat) : Prop where
  length_eq : plan.trbs.length = (length + 0xffff) / 0x10000
  tiles : Trb.Tiles data.toNat plan.trbs (data.toNat + length)
  inChain : ∀ (i : Nat) (t : Trb), plan.trbs[i]? = some t → t.InChain plan.trbs.length i

theorem bulk_eq_ok (h : (bulk r data).run = .ok (.ok plan)) :
    plan.trbs.length = chunkCount r.bufferLength ∧ plan.dataLength = r.bufferLength ∧
    ∀ i t, plan.trbs[i]? = some t → chunk data r.bufferLength i = .ok t := by
  obtain ⟨trbs, htrbs, -, rfl⟩ := bulk_ok h
  refine ⟨(Fault.length_mapM htrbs).trans List.length_range, rfl, fun i t hi => ?_⟩
  obtain ⟨j, hj, hchunk⟩ := Fault.getElem?_mapM htrbs hi
  obtain ⟨hlt, hget⟩ := List.getElem?_eq_some_iff.1 hj
  rwa [← hget, List.getElem_range] at hchunk

theorem covers_bulk (h : (bulk r data).run = .ok (.ok plan)) :
    plan.Covers data r.bufferLength := by
  obtain ⟨hcount, -, hchunk⟩ := bulk_eq_ok h
  refine ⟨hcount.trans (chunkCount_eq _), ?_, fun i t hi => ?_⟩
  · have htiles : Trb.Tiles (data.toNat + min (0 * Trb.maxTransfer) r.bufferLength) plan.trbs
        (data.toNat + r.bufferLength) := by
      refine tiles_chunks ((Nat.zero_add _).trans hcount) fun k t hk => ?_
      rw [Nat.zero_add]
      exact hchunk k t hk
    rwa [Nat.zero_mul, Nat.zero_min] at htiles
  · have hlt : i < plan.trbs.length := (List.getElem?_eq_some_iff.1 hi).1
    rw [hcount] at hlt ⊢
    exact inChain_chunk hlt (hchunk i t hi)

/-- What ends within the address space has a plan. -/
theorem bulk_total (hpos : 1 ≤ r.bufferLength)
    (hfits : data.toNat + r.bufferLength ≤ UInt64.size) :
    ∃ plan, (bulk r data).run = .ok (.ok plan) := by
  have hchunks : ∀ i ∈ List.range (chunkCount r.bufferLength), ∃ t,
      chunk data r.bufferLength i = .ok t := by
    intro i hi
    have hstart := mul_lt_of_lt_chunkCount (List.mem_range.1 hi)
    refine ⟨_, Fault.bind_eq_ok.2 ⟨data + UInt64.ofNat (i * Trb.maxTransfer), ?_, rfl⟩⟩
    rw [Dma.busOffset, if_pos (by omega)]
  obtain ⟨trbs, htrbs⟩ := Fault.exists_mapM hchunks
  have hne : r.bufferLength ≠ 0 := by omega
  refine ⟨⟨trbs, true, r.bufferLength⟩, ?_⟩
  unfold bulk
  simp only [if_neg hne]
  exact Attempt.run_bind_eq_ok.2 ⟨trbs, Attempt.run_liftM_eq_ok.2 htrbs, rfl⟩

/-- The chunks before TRB `k` are full. -/
theorem totalLength_take_bulk (h : (bulk r data).run = .ok (.ok plan)) {k : Nat}
    (hk : plan.trbs[k]? = some t) :
    Trb.totalLength (plan.trbs.take k) = k * Trb.maxTransfer := by
  have haddress := address_chunk ((bulk_eq_ok h).2.2 k t hk)
  rw [(covers_bulk h).tiles.address_eq hk] at haddress
  omega

end TdPlan

/-! ### Counting what has been transferred -/

/-- Bytes that a TD has transferred when an event leaves `residual` bytes of TRB `k`, which is `t`:
the chunks before it, and what is not left of its own. -/
def Trb.transferred (trbs : List Trb) (k : Nat) (t : Trb) (residual : Nat) : Nat :=
  totalLength (trbs.take k) + (t.dataLength - residual)

/-- A code that is reported at TRB `k` of `count` ends the TD. -/
def CompletionCode.EndsAt (code : CompletionCode) (count k : Nat) : Prop :=
  code.isTransferOk = false ∨ code = .shortPacket ∨ k + 1 = count

theorem InFlight.bulkOutcome_ends {record : InFlight ρ} {k : Nat} {event : TransferEvent}
    (h : event.code.EndsAt record.trbCount k) :
    record.bulkOutcome k event = some (.ofCode event.code (k * Trb.maxTransfer +
      (TdPlan.chunkLength record.dataLength k - event.residual.toNat))) := by
  refine if_pos ?_
  rcases h with h | h | h <;> simp [h]

theorem InFlight.bulkOutcome_goesOn {record : InFlight ρ} {k : Nat} {event : TransferEvent}
    (h : ¬ event.code.EndsAt record.trbCount k) : record.bulkOutcome k event = none := by
  simp only [CompletionCode.EndsAt, not_or, Bool.not_eq_false] at h
  obtain ⟨hok, hshort, hlast⟩ := h
  exact if_neg (by simp [hok, hshort, hlast])

namespace Endpoint

variable {e : Endpoint ρ} {record : InFlight ρ} {rest : List (InFlight ρ)}

/-- What becomes of an event at TRB `k` of the oldest TD, when this TRB is `t` and the TD is for
`length` bytes. -/
structure Counts (e : Endpoint ρ) (record : InFlight ρ) (rest : List (InFlight ρ))
    (trbs : List Trb) (length k : Nat) (t : Trb) (event : TransferEvent) : Prop where
  ends : event.code.EndsAt trbs.length k → (record.advance e.kind k event).2 =
    some (.ofCode event.code (Trb.transferred trbs k t event.residual.toNat))
  goesOn : ¬ event.code.EndsAt trbs.length k → record.advance e.kind k event = (record, none)
  le : Trb.transferred trbs k t event.residual.toNat ≤ length
  /-- The request comes back with what is counted. -/
  delivers : event.code.isRingReport = false → event.code.EndsAt trbs.length k →
    ∀ request notify, record.cargo = .live request notify →
      ∃ outcome e', (record.advance e.kind k event).2 = some outcome ∧
        e.transferEvent event =
          .ok (some ⟨notify, request.finish outcome.status outcome.length⟩, e') ∧
        e'.inFlight = rest

/-- The event that ends the TD of a live request gives the request back. -/
theorem applied_live {k : Nat} {event : TransferEvent} {outcome : Outcome} {request : Request ρ}
    {notify : Notify} (hadvance : (record.advance e.kind k event).2 = some outcome)
    (hlive : record.cargo = .live request notify) :
    e.applied record rest k event =
      (some ⟨notify, request.finish outcome.status outcome.length⟩,
        { e with ring := e.ring.drop record.trbCount, inFlight := rest }) := by
  rw [applied_of_some hadvance, deliveries_live hlive, List.head?_cons]

theorem advance_of_bulk (hkind : e.kind = .bulk ∨ e.kind = .interrupt) (k : Nat)
    (event : TransferEvent) :
    record.advance e.kind k event = (record, record.bulkOutcome k event) := by
  rcases hkind with hkind | hkind <;> rw [hkind] <;> rfl

theorem ofRequest_of_bulk {kind : TransferKind} (hkind : kind = .bulk ∨ kind = .interrupt)
    (r : Request ρ) (data : UInt64) : TdPlan.ofRequest kind r data = TdPlan.bulk r data := by
  rcases hkind with rfl | rfl <;> rfl

theorem counts_of_bulk {p : Placement ρ} (haligned : e.Aligned)
    (hlist : e.inFlight = record :: rest) (hp : p.Of e.ring e.kind record)
    (hkind : e.kind = .bulk ∨ e.kind = .interrupt) {k : Nat} {t : Trb}
    (hk : p.plan.trbs[k]? = some t) {event : TransferEvent}
    (hat : p.addresses[k]? = some event.address) :
    e.Counts record rest p.plan.trbs p.request.bufferLength k t event := by
  have hplan := hp.planned
  rw [ofRequest_of_bulk hkind] at hplan
  obtain ⟨-, hlength, hchunk⟩ := TdPlan.bulk_eq_ok hplan
  have hcounted : Trb.transferred p.plan.trbs k t event.residual.toNat = k * Trb.maxTransfer +
      (TdPlan.chunkLength record.dataLength k - event.residual.toNat) := by
    rw [Trb.transferred, TdPlan.totalLength_take_bulk hplan hk, hp.dataLength_eq, hlength,
      TdPlan.dataLength_chunk (hchunk k t hk)]
  have hends : event.code.EndsAt p.plan.trbs.length k → record.advance e.kind k event =
      (record, some (.ofCode event.code
        (Trb.transferred p.plan.trbs k t event.residual.toNat))) := by
    intro hends
    rw [← hp.trbCount_eq] at hends
    rw [advance_of_bulk hkind, InFlight.bulkOutcome_ends hends, hcounted]
  refine ⟨fun h => congrArg Prod.snd (hends h), ?goesOn, ?le, ?delivers⟩
  case goesOn =>
    intro hgoesOn
    rw [← hp.trbCount_eq] at hgoesOn
    rw [advance_of_bulk hkind, InFlight.bulkOutcome_goesOn hgoesOn]
  case le =>
    have htiles := (TdPlan.covers_bulk hplan).tiles
    have hend := htiles.end_le hk
    rw [htiles.address_eq hk] at hend
    rw [Trb.transferred]
    omega
  case delivers =>
    intro hreport hend request notify hlive
    have hposition := (position?_eq_iff haligned hlist hp event.address k).2 hat
    have hadvance := congrArg Prod.snd (hends hend)
    refine ⟨_, { e with ring := e.ring.drop record.trbCount, inFlight := rest }, hadvance, ?_, rfl⟩
    rw [transferEvent_applied haligned hlist hreport hposition, applied_live hadvance hlive]

/-- The TD of a bulk or interrupt request covers its buffer end to end, and an event that ends it
reports the chunks before its TRB and what it leaves of the TRB's own. How many TRBs follow is
counted in a word of 32 bits. In a TD of at most 2³² TRBs, which is enough for 256 TiB, each TRB
tells the number of those behind it, or 31 if there are more; in a longer one the word begins again
at zero (`Trb.InChain`). -/
theorem buffer_is_covered_and_counted {kind : TransferKind}
    (hkind : kind = .bulk ∨ kind = .interrupt) :
    (∀ (r : Request ρ) (data : UInt64), 1 ≤ r.bufferLength →
      data.toNat + r.bufferLength ≤ UInt64.size →
      ∃ plan, (TdPlan.ofRequest kind r data).run = .ok (.ok plan) ∧
        plan.Covers data r.bufferLength) ∧
    ∀ (ps : List (Placement ρ)) (e : Endpoint ρ) (record : InFlight ρ)
      (rest : List (InFlight ρ)), Placed ps e → e.kind = kind → e.inFlight = record :: rest →
      ∃ gone p younger, ps = gone ++ p :: younger ∧ p.Of e.ring e.kind record ∧
        p.plan.Covers p.data p.request.bufferLength ∧
        ∀ k t event, p.plan.trbs[k]? = some t → p.addresses[k]? = some event.address →
          e.Counts record rest p.plan.trbs p.request.bufferLength k t event := by
  refine ⟨?plan, ?events⟩
  case plan =>
    intro r data hpos hfits
    obtain ⟨plan, hplan⟩ := TdPlan.bulk_total hpos hfits
    rw [ofRequest_of_bulk hkind]
    exact ⟨plan, hplan, TdPlan.covers_bulk hplan⟩
  case events =>
    rintro ps e record rest hplaced rfl hlist
    have hsound := hplaced.tallies.sound
    have haligned := hsound.aligned (hsound.valid_of_inFlight hlist)
    obtain ⟨gone, p, younger, hps, hp, -⟩ := hplaced.tallies.oldest hlist
    have hplan := hp.planned
    rw [ofRequest_of_bulk hkind] at hplan
    exact ⟨gone, p, younger, hps, hp, TdPlan.covers_bulk hplan,
      fun k t event hk hat => counts_of_bulk haligned hlist hp hkind hk hat⟩

/-- A request for a buffer of `size` bytes. -/
def requestFor (size : Nat) : Request Unit := { buffer := some (.zeroed ⟨0⟩ size) }

theorem bufferLength_requestFor (size : Nat) : (requestFor size).bufferLength = size :=
  Array.size_replicate

/-- A small endpoint takes a request for one byte more than 64 KiB, with two TRBs. -/
theorem exists_two_chunks : ∃ ps, ∃ e : Endpoint Unit, ∃ record, Placed ps e ∧ e.kind = .bulk ∧
    e.inFlight = [record] ∧ record.cargo = .live (requestFor 0x10001) .routine ∧
    record.trbCount = 2 := by
  have hlength := bufferLength_requestFor 0x10001
  have hfits : (0x2000 : UInt64).toNat + (requestFor 0x10001).bufferLength ≤ UInt64.size := by
    rw [hlength]
    decide
  obtain ⟨plan, hplan⟩ := TdPlan.bulk_total (r := requestFor 0x10001) (by omega) hfits
  have hcount : plan.trbs.length = 2 := by rw [(TdPlan.covers_bulk hplan).length_eq, hlength]
  rw [← ofRequest_of_bulk (.inl (Eq.refl TransferKind.bulk))] at hplan
  obtain ⟨result, e, hsubmit, hjudges⟩ :=
    (sound_of_fresh fresh_smallBulk).judges hplan .routine none
  have hadmits : smallBulk.Admits plan := ⟨rfl, by decide, by rw [hcount]; decide⟩
  obtain ⟨id, rfl⟩ := hjudges.accepted_iff.2 ⟨plan, rfl, hadmits⟩
  cases hjudges with
  | accepted _ _ _ hadds =>
    obtain ⟨record, hlist, -, hlive, -, htrbs, -⟩ := hadds.inFlight_eq
    have hstep : smallBulk.step (.submit (requestFor 0x10001) 0x2000 .routine none) =
        .ok ((.submitted (.ok ⟨smallBulk.nextRequest⟩), []), e) := by
      rw [step, hsubmit]
      rfl
    have hkind : e.kind = .bulk := by
      rw [hadds.eq]
      rfl
    exact ⟨_, e, record, .step (.fresh fresh_smallBulk) hstep, hkind, hlist, hlive,
      htrbs.trans hcount⟩

/-- One byte more than 64 KiB takes two TRBs, and once the second one has been reported as done, all
bytes are. -/
theorem buffer_is_covered_and_counted_two_chunks :
    (∃ plan, (TdPlan.ofRequest .bulk (requestFor 0x10001) 0x2000).run = .ok (.ok plan) ∧
      plan.trbs.length = 2) ∧
    ∃ ps, ∃ e : Endpoint Unit, ∃ event delivery e', Placed ps e ∧
      e.transferEvent event = .ok (some delivery, e') ∧
      delivery.request.resultLength = 0x10001 := by
  obtain ⟨hplans, hevents⟩ :=
    buffer_is_covered_and_counted (ρ := Unit) (.inl (Eq.refl TransferKind.bulk))
  have hlength := bufferLength_requestFor 0x10001
  refine ⟨?plan, ?event⟩
  case plan =>
    have hfits : (0x2000 : UInt64).toNat + (requestFor 0x10001).bufferLength ≤ UInt64.size := by
      rw [hlength]
      decide
    obtain ⟨plan, hplan, hcovers⟩ := hplans (requestFor 0x10001) 0x2000 (by omega) hfits
    exact ⟨plan, hplan, by rw [hcovers.length_eq, hlength]⟩
  case event =>
    obtain ⟨ps, e, record, hplaced, hkind, hlist, hlive, htrbs⟩ := exists_two_chunks
    obtain ⟨gone, p, younger, -, hp, hcovers, hcounts⟩ := hevents ps e record [] hplaced hkind hlist
    obtain ⟨first, second, hboth⟩ : ∃ first second, p.plan.trbs = [first, second] :=
      List.length_eq_two.1 (by rw [← hp.trbCount_eq, htrbs])
    obtain ⟨_, address, haddresses⟩ : ∃ a b, p.addresses = [a, b] :=
      List.length_eq_two.1 (by rw [hp.length_eq, hboth]; rfl)
    have hsecond := hcounts 1 second ⟨.success, 0, 1, 3, address⟩ (by rw [hboth]; rfl)
      (by rw [haddresses]; rfl)
    have hends : CompletionCode.success.EndsAt p.plan.trbs.length 1 := by
      rw [hboth]
      exact .inr (.inr rfl)
    obtain ⟨outcome, e', houtcome, hevent, -⟩ := hsecond.delivers rfl hends _ _ hlive
    rw [hsecond.ends hends] at houtcome
    cases houtcome
    refine ⟨ps, e, _, _, e', hplaced, hevent, ?_⟩
    -- nothing is left of the second chunk, and the two chunks make up the buffer
    have htotal := hcovers.tiles.totalLength_eq
    rw [hboth, ← hp.live_eq _ _ hlive, hlength] at htotal
    have hchunks : first.dataLength + second.dataLength = 0x10001 := Nat.add_left_cancel htotal
    change Trb.transferred p.plan.trbs 1 second 0 = _
    rw [hboth, Trb.transferred, Nat.sub_zero]
    exact hchunks

end Endpoint

end UsbHost
