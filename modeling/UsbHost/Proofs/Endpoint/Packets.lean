import Mathlib.Algebra.BigOperators.Fin
import Mathlib.Algebra.Order.BigOperators.Group.Finset
import UsbHost.Proofs.Endpoint.Hearing

/-!
Counting isochronous data. The TD of an isochronous request has one TRB per packet. Only the report
on the last packet ends it, and what is counted then is all packets less what this report leaves. A
report on an earlier packet changes nothing at all, so the bytes that it leaves are lost from the
account: they are counted as transferred.
-/

namespace UsbHost

open Endpoint (deliveries Heard)

variable {ρ : Type}

/-- Bytes of all packets of an isochronous request. -/
def Request.packetBytes (r : Request ρ) : Nat := (r.packets.map UInt16.toNat).sum

/-- Bytes that the notices report as not transferred. -/
def Notice.missing (ns : List Notice) : Nat := (ns.map fun n => n.event.residual.toNat).sum

/-- Each packet is reported once at most, and no report leaves more than its packet. -/
structure Notice.PerPacket (packets : List UInt16) (ns : List Notice) : Prop where
  nodup : (ns.map Notice.position).Nodup
  residual_le : ∀ n ∈ ns, ∃ size, packets[n.position]? = some size ∧
    n.event.residual.toNat ≤ size.toNat

/-- Items at distinct places make up a part of the total. -/
theorem sum_getD_le {sizes : List Nat} {places : List Nat} (h : places.Nodup) :
    (places.map fun i => sizes.getD i 0).sum ≤ sizes.sum := by
  have hinside : ∀ i ∈ places.toFinset, i ∉ Finset.range sizes.length → sizes.getD i 0 = 0 := by
    intro i _ hi
    rw [Finset.mem_range, Nat.not_lt] at hi
    rw [List.getD_eq_getElem?_getD, List.getElem?_eq_none hi, Option.getD_none]
  calc (places.map fun i => sizes.getD i 0).sum
      = ∑ i ∈ places.toFinset, sizes.getD i 0 := (List.sum_toFinset _ h).symm
    _ ≤ ∑ i ∈ Finset.range sizes.length, sizes.getD i 0 :=
        Finset.sum_le_sum_of_ne_zero fun i hi hne => by_contra fun hout => hne (hinside i hi hout)
    _ = sizes.sum := by
        rw [Finset.sum_range, ← Fin.sum_univ_getElem sizes]
        refine Finset.sum_congr rfl fun i _ => ?_
        rw [List.getD_eq_getElem?_getD, List.getElem?_eq_getElem i.isLt, Option.getD_some]

/-- What is missing is part of the packets. -/
theorem Notice.PerPacket.missing_le {packets : List UInt16} {ns : List Notice}
    (h : PerPacket packets ns) : missing ns ≤ (packets.map UInt16.toNat).sum := by
  calc missing ns
      ≤ (ns.map fun n => (packets.map UInt16.toNat).getD n.position 0).sum := by
        refine List.sum_le_sum fun n hn => ?_
        obtain ⟨size, hsize, hle⟩ := h.residual_le n hn
        simpa [List.getD_eq_getElem?_getD, hsize] using hle
    _ = ((ns.map Notice.position).map fun i => (packets.map UInt16.toNat).getD i 0).sum := by
        rw [List.map_map]
        rfl
    _ ≤ (packets.map UInt16.toNat).sum := sum_getD_le h.nodup

namespace TdPlan

variable {r : Request ρ} {data : UInt64} {plan : TdPlan}

theorem length_packetTrbs {offset : Nat} {sizes : List UInt16} {trbs : List Trb}
    (h : packetTrbs data offset sizes = .ok trbs) : trbs.length = sizes.length := by
  induction sizes generalizing offset trbs with
  | nil =>
    cases h
    rfl
  | cons size sizes ih =>
    obtain ⟨address, -, h⟩ := Fault.bind_eq_ok.1 h
    obtain ⟨rest, hrest, h⟩ := Fault.bind_eq_ok.1 h
    cases h
    rw [List.length_cons, List.length_cons, ih hrest]

theorem isochronous_eq_ok (h : (isochronous r data).run = .ok (.ok plan)) :
    plan.trbs.length = r.packets.length ∧ plan.dataLength = r.packetBytes ∧ r.packets ≠ [] ∧
      r.packetBytes ≤ r.bufferLength := by
  have htotal : r.packets.foldr (fun packet total => packet.toNat + total) 0 = r.packetBytes := by
    rw [Request.packetBytes, List.sum_eq_foldr, List.foldr_map]
  obtain ⟨trbs, htrbs, hpackets, hlength, rfl⟩ := isochronous_ok h
  exact ⟨length_packetTrbs htrbs, htotal, hpackets, htotal ▸ hlength⟩

end TdPlan

namespace Endpoint

/-- How the oldest isochronous transfer stands, when it has been told `ns`. -/
structure Streams (e : Endpoint ρ) (ns : List Notice) (record : InFlight ρ)
    (rest : List (InFlight ρ)) (p : Placement ρ) : Prop where
  head_of : p.Of e.ring e.kind record
  length_eq : p.plan.trbs.length = p.request.packets.length
  packetBytes_le : p.request.packetBytes ≤ p.request.bufferLength
  /-- It has been told of earlier packets only. -/
  told : ∀ n ∈ ns, n.position + 1 < p.plan.trbs.length
  /-- A report on an earlier packet leaves the endpoint as it is. -/
  goesOn : ∀ k event, p.addresses[k]? = some event.address → event.code.isRingReport = false →
    k + 1 < p.plan.trbs.length → e.transferEvent event = .ok (none, e)
  /-- The report on the last packet gives the request back, and only what it leaves is taken off. -/
  ends : ∀ k event, p.addresses[k]? = some event.address → event.code.isRingReport = false →
    k + 1 = p.plan.trbs.length → e.transferEvent event =
      .ok ((deliveries record (.ofCode event.code
        (p.request.packetBytes - event.residual.toNat))).head?,
        { e with ring := e.ring.drop p.plan.trbs.length, inFlight := rest })
  /-- What the earlier reports have left is counted as transferred. -/
  excess : ∀ k event, Notice.PerPacket p.request.packets (ns ++ [⟨k, event⟩]) →
    p.request.packetBytes - event.residual.toNat =
      p.request.packetBytes - Notice.missing (ns ++ [⟨k, event⟩]) + Notice.missing ns

section Streams

variable {ps : List (Placement ρ)} {ns : List Notice} {e : Endpoint ρ} {record : InFlight ρ}
  {rest : List (InFlight ρ)} {p : Placement ρ}

theorem streams (haligned : e.Aligned) (hkind : e.kind = .isochronous)
    (hlist : e.inFlight = record :: rest) (hp : p.Of e.ring e.kind record)
    (h : Informed e.kind ns (e.inFlight.map InFlight.progress)) :
    e.Streams ns record rest p := by
  have hplan := hp.planned
  rw [hkind] at hplan
  obtain ⟨hcount, hlength, -, hle⟩ := TdPlan.isochronous_eq_ok hplan
  rw [hlist] at h
  have hadvance : ∀ k event,
      record.advance e.kind k event = (record, record.isochronousOutcome k event) := by
    intro k event
    rw [hkind]
    rfl
  refine ⟨hp, hcount, hle, ?told, ?goesOn, ?ends, ?excess⟩
  case told =>
    intro n hn
    obtain ⟨hposition, hfinal⟩ := h.1.goesOn n hn
    rw [hkind, InFlight.isFinal, InFlight.endsEarly, Bool.or_false,
      decide_eq_false_iff_not] at hfinal
    change n.position < record.trbCount at hposition
    change ¬ n.position + 1 = record.trbCount at hfinal
    rw [hp.trbCount_eq] at hposition hfinal
    omega
  case goesOn =>
    intro k event hat hreport hbefore
    have hfound := (position?_eq_iff haligned hlist hp event.address k).2 hat
    rw [← hp.trbCount_eq] at hbefore
    rw [transferEvent_applied haligned hlist hreport hfound, applied_of_none, ← hlist]
    rw [hadvance, InFlight.isochronousOutcome, if_pos hbefore]
  case ends =>
    intro k event hat hreport hlast
    have hfound := (position?_eq_iff haligned hlist hp event.address k).2 hat
    rw [← hp.trbCount_eq] at hlast ⊢
    rw [transferEvent_applied haligned hlist hreport hfound, applied_of_some]
    rw [hadvance, InFlight.isochronousOutcome, if_neg (by omega), hp.dataLength_eq, hlength]
  case excess =>
    intro k event hreports
    have hmissing := hreports.missing_le
    have hsum : Notice.missing (ns ++ [⟨k, event⟩]) =
        Notice.missing ns + event.residual.toNat := by
      simp [Notice.missing]
    change _ ≤ p.request.packetBytes at hmissing
    omega

/-- When an isochronous transfer ends, what is reported is all of its packets, less what the report
on the last one has left. If other packets have been reported before, each packet once at most, then
this is more than what has been transferred, by all the bytes that those reports have left. -/
theorem isochronous_counts_last_report (h : Heard ps ns e) (hkind : e.kind = .isochronous)
    (hlist : e.inFlight = record :: rest) :
    ∃ p, oldest? ps e = some p ∧ e.Streams ns record rest p := by
  have htallies := h.placed.tallies
  obtain ⟨p, hp, hof⟩ := htallies.oldest?_eq hlist
  have haligned := htallies.sound.aligned (htallies.sound.valid_of_inFlight hlist)
  exact ⟨p, hp, streams haligned hkind hlist hof h.informed⟩

end Streams

/-- An isochronous endpoint on the smallest ring. -/
def smallStream : Endpoint Unit :=
  .create default { (default : EndpointTraits) with kind := .isochronous }
    { transferRingSize := Config.minRingSize } (.create .transfer Config.minRingSize 0x1000)

theorem fresh_smallStream : Fresh smallStream :=
  .create _ _ _ _ Ring.layout_minRingSize (by decide)

/-- A request for three packets of eight bytes. -/
def threePackets : Request Unit where
  buffer := some (.zeroed ⟨0⟩ 24)
  packets := [8, 8, 8]
  packets_le := by decide

/-- The second of three packets fails altogether. -/
def secondFails : TransferEvent := ⟨⟨4⟩, 8, 1, 3, 0x1010⟩

/-- The third of three packets is done. -/
def thirdSucceeds : TransferEvent := ⟨.success, 0, 1, 3, 0x1020⟩

theorem perPacket_threePackets :
    Notice.PerPacket threePackets.packets [⟨1, secondFails⟩, ⟨2, thirdSucceeds⟩] := by
  refine ⟨by decide, fun n hn => ?_⟩
  rcases List.mem_pair.1 hn with rfl | rfl
  · exact ⟨8, rfl, by decide⟩
  · exact ⟨8, rfl, by decide⟩

/-- The three packets are in flight, and the second one has been reported. -/
theorem exists_second_failed : ∃ (ps : List (Placement Unit)) (e : Endpoint Unit)
    (record : InFlight Unit) (p : Placement Unit), Heard ps [⟨1, secondFails⟩] e ∧
      e.kind = .isochronous ∧ e.inFlight = [record] ∧ oldest? ps e = some p ∧
      p.request = threePackets ∧ p.addresses[2]? = some thirdSucceeds.address ∧
      ∃ d e', e.transferEvent thirdSucceeds = .ok (some d, e') ∧ d.request.resultLength = 24 :=
  ⟨_, _, _, _, @Heard.step _ _ _ _ _ (.event secondFails) _ _
    (@Heard.step _ _ _ _ _ (.submit threePackets 0x2000 .routine none) _ _
      (.fresh fresh_smallStream) rfl) rfl,
    rfl, rfl, rfl, rfl, rfl, _, _, rfl, rfl⟩

/-- Nothing has arrived of the second packet, and eight bytes too many are counted. -/
theorem isochronous_counts_last_report_failed : ∃ (ps : List (Placement Unit))
    (ns : List Notice) (e : Endpoint Unit) (record : InFlight Unit) (p : Placement Unit),
    Heard ps ns e ∧ e.kind = .isochronous ∧ e.inFlight = [record] ∧ oldest? ps e = some p ∧
      e.Streams ns record [] p ∧ p.request.packetBytes - thirdSucceeds.residual.toNat =
        p.request.packetBytes - Notice.missing (ns ++ [⟨2, thirdSucceeds⟩]) + 8 := by
  obtain ⟨ps, e, record, p, hheard, hkind, hlist, hp, hrequest, -⟩ := exists_second_failed
  obtain ⟨p', hp', hstreams⟩ := isochronous_counts_last_report hheard hkind hlist
  obtain rfl : p' = p := Option.some.inj (hp'.symm.trans hp)
  exact ⟨ps, _, e, record, p', hheard, hkind, hlist, hp, hstreams,
    hstreams.excess 2 thirdSucceeds (by rw [hrequest]; exact perPacket_threePackets)⟩

/-- It is not so that all the reports on the packets are counted: of three packets one has not
arrived, and the bytes of all three are given back. -/
theorem missing_packet_is_counted : ∃ (ps : List (Placement Unit)) (ns : List Notice)
    (e e' : Endpoint Unit) (p : Placement Unit) (d : Delivery Unit), Heard ps ns e ∧
      e.kind = .isochronous ∧ oldest? ps e = some p ∧
      Notice.PerPacket p.request.packets (ns ++ [⟨2, thirdSucceeds⟩]) ∧
      p.addresses[2]? = some thirdSucceeds.address ∧
      e.transferEvent thirdSucceeds = .ok (some d, e') ∧ d.request.resultLength = 24 ∧
      p.request.packetBytes - Notice.missing (ns ++ [⟨2, thirdSucceeds⟩]) = 16 := by
  obtain ⟨ps, e, record, p, hheard, hkind, -, hp, hrequest, haddress, d, e', hevent, hlength⟩ :=
    exists_second_failed
  refine ⟨ps, _, e, e', p, d, hheard, hkind, hp, ?_, haddress, hevent, hlength, ?_⟩
  · rw [hrequest]
    exact perPacket_threePackets
  · rw [hrequest]
    rfl

end Endpoint

end UsbHost
