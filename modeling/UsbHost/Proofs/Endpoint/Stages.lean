import UsbHost.Proofs.Endpoint.Hearing
import UsbHost.Proofs.Endpoint.Retention

/-!
Control transfers go stage by stage. The TD of a control request has a Setup TRB, a Data TRB if
there are data, and a Status TRB, and each of them reports. The transfer ends at the first failure
or at the Status TRB, whichever is reported first, and at nothing else; what it has transferred is
what the last report on the data stage has left. Until then the latest report decides which stage
the endpoint shows, whatever came before it and in whatever order.
-/

namespace UsbHost

open Endpoint (deliveries Heard)

variable {ρ : Type}

/-- Types of the TRBs of a control TD. -/
def ControlStage.trbKinds (hasData : Bool) : List Trb.Kind :=
  if hasData then [.setupStage, .dataStage, .statusStage] else [.setupStage, .statusStage]

theorem TdPlan.control_eq_ok {r : Request ρ} {data : UInt64} {plan : TdPlan}
    (h : (control r data).run = .ok (.ok plan)) :
    plan.trbs.map Trb.kind? = (ControlStage.trbKinds plan.hasData).map some ∧
      (plan.hasData = true ↔ 0 < r.bufferLength) ∧ plan.dataLength = r.bufferLength := by
  obtain ⟨setup, hmax, ⟨hzero, rfl⟩ | ⟨hpos, rfl⟩⟩ := control_ok h
  · refine ⟨Trb.Draft.map_kind?_build [.setupStage setup _ _, .statusStage true _] ?_,
      by simp [hzero], hzero.symm⟩
    simp only [List.forall_mem_cons]
    exact ⟨Trb.Draft.fits_setupStage _ (by decide), Trb.Draft.fits_statusStage _, nofun⟩
  · refine ⟨Trb.Draft.map_kind?_build [.setupStage setup _ _, .dataStage data _ _ _,
      .statusStage (!setup.isIn) _] ?_, by simp [Nat.pos_iff_ne_zero, hpos], rfl⟩
    simp only [List.forall_mem_cons]
    refine ⟨Trb.Draft.fits_setupStage _ ?_, Trb.Draft.fits_dataStage hmax _ _,
      Trb.Draft.fits_statusStage _, nofun⟩
    cases setup.isIn <;> decide

/-- A code ends a control transfer at TRB `k` out of `count`: it is a failure, or this is the Status
TRB. -/
def CompletionCode.EndsControl (code : CompletionCode) (count k : Nat) : Prop :=
  code.isTransferOk = false ∨ k + 1 = count

namespace InFlight

variable {r : InFlight ρ} {k : Nat} {event : TransferEvent}

theorem isFinal_control (count k : Nat) (code : CompletionCode) :
    isFinal .control count k code = true ↔ code.EndsControl count k := by
  rw [CompletionCode.EndsControl, isTransferOk_eq, decide_eq_false_iff_not, not_or, or_comm]
  simp [isFinal, endsEarly]

theorem advanceControl_ends (hk : k < r.trbCount)
    (hstages : r.trbCount = if r.hasData then 3 else 2)
    (h : event.code.EndsControl r.trbCount k) :
    (r.advanceControl k event).2 = some (.ofCode event.code r.transferred) := by
  cases hok : event.code.isTransferOk with
  | false => simp [advanceControl, hok]
  | true =>
    have hlast : k + 1 = r.trbCount := h.resolve_left (by simp [hok])
    have hstatus := (stageAt_eq_status hk hstages).2 hlast
    simp [advanceControl, hok, hstatus, Outcome.ofCode]

end InFlight

/-- A record and its plan agree on the data stage, since they do on the number of TRBs. -/
theorem Placement.Of.hasData_eq {ring : ProducerRing} {p : Placement ρ} {r : InFlight ρ}
    (h : p.Of ring .control r) (hstages : r.trbCount = if r.hasData then 3 else 2) :
    r.hasData = p.plan.hasData := by
  rw [h.trbCount_eq, TdPlan.length_control h.planned] at hstages
  cases hr : r.hasData <;> cases hd : p.plan.hasData <;> simp [hr, hd] at hstages ⊢

/-- What the record of a control transfer says of it, when it has been told `ns`. -/
structure InFlight.Recounts (r : InFlight ρ) (p : Placement ρ) (ns : List Notice) : Prop where
  stages : r.trbCount = if r.hasData then 3 else 2
  hasData_eq : r.hasData = p.plan.hasData
  stage_eq : r.stage = .after p.plan.hasData ns
  transferred_eq : r.transferred = Notice.counted p.plan.hasData p.request.bufferLength ns

theorem Placement.Of.recounts {ring : ProducerRing} {p : Placement ρ} {r : InFlight ρ}
    {ns : List Notice} (hp : p.Of ring .control r) (h : r.progress.Knows .control ns) :
    r.Recounts p ns := by
  have hstages : r.trbCount = if r.hasData then 3 else 2 := h.stages rfl
  have hdata := hp.hasData_eq hstages
  obtain ⟨-, -, hlength⟩ := TdPlan.control_eq_ok hp.planned
  refine ⟨hstages, hdata, hdata ▸ h.stage_eq rfl, ?_⟩
  rw [← hdata, ← hlength, ← hp.dataLength_eq]
  exact h.transferred_eq rfl

namespace Endpoint

/-- How the oldest control transfer stands, when it has been told `ns`. -/
structure Staged (e : Endpoint ρ) (ns : List Notice) (record : InFlight ρ)
    (rest : List (InFlight ρ)) (p : Placement ρ) : Prop where
  head_of : p.Of e.ring e.kind record
  kinds_eq : p.plan.trbs.map Trb.kind? = (ControlStage.trbKinds p.plan.hasData).map some
  hasData_iff : p.plan.hasData = true ↔ 0 < p.request.bufferLength
  /-- It has been told of successes in its setup and data stage only. -/
  told : ∀ n ∈ ns, ¬ n.event.code.EndsControl p.plan.trbs.length n.position
  stage_eq : e.controlStage = .after p.plan.hasData ns
  counted_le :
    Notice.counted p.plan.hasData p.request.bufferLength ns ≤ p.request.bufferLength
  /-- The TD is given back with all its TRBs, and the next transfer is at its start. -/
  ends : ∀ k event, p.addresses[k]? = some event.address → event.code.isRingReport = false →
    event.code.EndsControl p.plan.trbs.length k → ∃ e',
      e.transferEvent event = .ok ((deliveries record (.ofCode event.code
        (Notice.counted p.plan.hasData p.request.bufferLength ns))).head?, e') ∧
      e'.inFlight = rest ∧ e'.ring = e.ring.drop p.plan.trbs.length ∧
      e'.ring.outstanding + p.plan.trbs.length = e.ring.outstanding ∧
      e'.controlStage = if rest = [] then .idle else .setup
  goesOn : ∀ k event, p.addresses[k]? = some event.address → event.code.isRingReport = false →
    ¬ event.code.EndsControl p.plan.trbs.length k → ∃ record',
      e.transferEvent event = .ok (none, { e with inFlight := record' :: rest }) ∧
      record'.td = record.td ∧ record'.cargo = record.cargo ∧
      record'.stage = .after p.plan.hasData (ns ++ [⟨k, event⟩])

section Staged

variable {ps : List (Placement ρ)} {ns : List Notice} {e : Endpoint ρ} {record : InFlight ρ}
  {rest : List (InFlight ρ)} {p : Placement ρ}

/-- The next transfer has not been told anything. -/
theorem stage_of_rest {ring : ProducerRing} (hkind : e.kind = .control)
    (h : ∀ s ∈ rest.map InFlight.progress, s.Knows e.kind []) :
    ({ e with ring := ring, inFlight := rest } : Endpoint ρ).controlStage =
      if rest = [] then .idle else .setup := by
  cases rest with
  | nil => rfl
  | cons next rest => exact (h next.progress List.mem_cons_self).stage_eq hkind

/-- The report that ends the transfer gives it back, and the next one is at its start. -/
theorem transferEvent_ends (haligned : e.Aligned) (hkind : e.kind = .control)
    (hlist : e.inFlight = record :: rest) (hp : p.Of e.ring e.kind record)
    (hrecounts : record.Recounts p ns)
    (hrest : ∀ s ∈ rest.map InFlight.progress, s.Knows e.kind []) {k : Nat} {event : TransferEvent}
    (hat : p.addresses[k]? = some event.address) (hreport : event.code.isRingReport = false)
    (hends : event.code.EndsControl record.trbCount k) : ∃ e',
      e.transferEvent event = .ok ((deliveries record (.ofCode event.code
        (Notice.counted p.plan.hasData p.request.bufferLength ns))).head?, e') ∧
      e'.inFlight = rest ∧ e'.ring = e.ring.drop record.trbCount ∧
      e'.ring.outstanding + record.trbCount = e.ring.outstanding ∧
      e'.controlStage = if rest = [] then .idle else .setup := by
  have hfound := (position?_eq_iff haligned hlist hp event.address k).2 hat
  have hadvance : (record.advance e.kind k event).2 = some (.ofCode event.code
      (Notice.counted p.plan.hasData p.request.bufferLength ns)) := by
    rw [hkind, ← hrecounts.transferred_eq]
    exact InFlight.advanceControl_ends (InFlight.position?_lt hfound) hrecounts.stages hends
  have hspan := haligned.head_span hlist
  refine ⟨{ e with ring := e.ring.drop record.trbCount, inFlight := rest }, ?_, rfl, rfl, ?_,
    stage_of_rest hkind hrest⟩
  · rw [transferEvent_applied haligned hlist hreport hfound, applied_of_some hadvance]
  · change (e.ring.drop record.trbCount).outstanding + _ = _
    rw [ProducerRing.outstanding_drop haligned.wellFormed (by omega)]
    omega

/-- Any other report leaves the transfer in flight, in the stage that the report leads to. -/
theorem transferEvent_goesOn (haligned : e.Aligned) (hkind : e.kind = .control)
    (hlist : e.inFlight = record :: rest) (hp : p.Of e.ring e.kind record)
    (hhead : record.progress.Knows e.kind ns) (hrecounts : record.Recounts p ns) {k : Nat}
    {event : TransferEvent} (hat : p.addresses[k]? = some event.address)
    (hreport : event.code.isRingReport = false)
    (hends : ¬ event.code.EndsControl record.trbCount k) : ∃ record',
      e.transferEvent event = .ok (none, { e with inFlight := record' :: rest }) ∧
      record'.td = record.td ∧ record'.cargo = record.cargo ∧
      record'.stage = .after p.plan.hasData (ns ++ [⟨k, event⟩]) := by
  have hfound := (position?_eq_iff haligned hlist hp event.address k).2 hat
  have hk := InFlight.position?_lt hfound
  rw [← InFlight.isFinal_control, Bool.not_eq_true, ← hkind] at hends
  have hsome := InFlight.isSome_advance event hk hhead.stages
  rw [hends, Option.isSome_eq_false_iff, Option.isNone_iff_eq_none] at hsome
  have hadvance : record.advance e.kind k event = ((record.advance e.kind k event).1, none) :=
    Prod.ext rfl hsome
  obtain ⟨htd, hcargo⟩ := InFlight.advance_frame_of_eq hadvance
  have hknows := (InFlight.knows_advance hhead hadvance hk).stage_eq hkind
  have hsame : (record.advance e.kind k event).1.hasData = p.plan.hasData :=
    (congrArg Td.hasData htd).trans hrecounts.hasData_eq
  refine ⟨_, ?_, htd, hcargo, hsame ▸ hknows⟩
  rw [transferEvent_applied haligned hlist hreport hfound, applied_of_none hadvance]

theorem staged (haligned : e.Aligned) (hkind : e.kind = .control)
    (hlist : e.inFlight = record :: rest) (hp : p.Of e.ring e.kind record)
    (h : Informed e.kind ns (e.inFlight.map InFlight.progress)) :
    e.Staged ns record rest p := by
  have hplan := hp.planned
  rw [hkind] at hplan
  obtain ⟨hkinds, hdata_iff, -⟩ := TdPlan.control_eq_ok hplan
  rw [hlist] at h
  obtain ⟨hhead, hrest⟩ := h
  have hrecounts : record.Recounts p ns := (hkind ▸ hp).recounts (hkind ▸ hhead)
  refine ⟨hp, hkinds, hdata_iff, ?told, ?stage, Notice.counted_le _ _ _, ?ends, ?goesOn⟩
  case told =>
    intro n hn
    have hfinal := (hhead.goesOn n hn).2
    rw [hkind] at hfinal
    rw [← hp.trbCount_eq, ← InFlight.isFinal_control, Bool.not_eq_true]
    exact hfinal
  case stage =>
    rw [controlStage, hlist]
    exact hrecounts.stage_eq
  case ends =>
    intro k event hat hreport hends
    rw [← hp.trbCount_eq] at hends ⊢
    exact transferEvent_ends haligned hkind hlist hp hrecounts hrest hat hreport hends
  case goesOn =>
    intro k event hat hreport hends
    rw [← hp.trbCount_eq] at hends
    exact transferEvent_goesOn haligned hkind hlist hp hhead hrecounts hat hreport hends

/-- After whatever steps, a control endpoint is idle, or its oldest transfer stands as it has been
told since it became the oldest: it ends at the first failure or status report, with the status and
the length that the reports call for, and until then it shows the stage that the latest report has
led to. -/
theorem control_follows_reports (h : Heard ps ns e) (hkind : e.kind = .control) :
    (e.inFlight = [] → ns = [] ∧ e.controlStage = .idle) ∧
    ∀ record rest, e.inFlight = record :: rest →
      ∃ p, oldest? ps e = some p ∧ e.Staged ns record rest p := by
  refine ⟨fun hnil => ?idle, fun record rest hlist => ?busy⟩
  case idle =>
    have hinformed := h.informed
    rw [hnil] at hinformed
    exact ⟨hinformed, by rw [controlStage, hnil]; rfl⟩
  case busy =>
    have htallies := h.placed.tallies
    obtain ⟨p, hp, hof⟩ := htallies.oldest?_eq hlist
    have haligned := htallies.sound.aligned (htallies.sound.valid_of_inFlight hlist)
    exact ⟨p, hp, staged haligned hkind hlist hof h.informed⟩

end Staged

/-- A control endpoint on the smallest ring. -/
def smallControl : Endpoint Unit :=
  .create default (.control .high)
    { transferRingSize := Config.minRingSize } (.create .transfer Config.minRingSize 0x1000)

theorem fresh_smallControl : Fresh smallControl :=
  .create _ _ _ _ Ring.layout_minRingSize (by decide)

/-- A request that reads eight bytes. -/
def readEight : Request Unit :=
  { setup := some ⟨0x80, 6, 0x100, 0, 8⟩, buffer := some (.zeroed ⟨0⟩ 8) }

/-- Eight bytes are asked for. The setup stage is reported, then the data stage with two bytes left,
and a stall at the Status TRB ends the transfer with six bytes. -/
theorem control_follows_reports_stalled : ∃ (ps : List (Placement Unit)) (ns : List Notice)
    (e : Endpoint Unit) (record : InFlight Unit) (p : Placement Unit) (d : Delivery Unit)
    (e' : Endpoint Unit), Heard ps ns e ∧ e.kind = .control ∧ e.inFlight = [record] ∧
      oldest? ps e = some p ∧ e.Staged ns record [] p ∧ e.controlStage = .status ∧
      e.transferEvent ⟨⟨6⟩, 0, 1, 1, 0x1020⟩ = .ok (some d, e') ∧
      d.request.status = .failed .stall ∧ d.request.resultLength = 6 ∧ e'.controlStage = .idle := by
  obtain ⟨ps, ns, e, record, hheard, hkind, hlist, hlive, hstatus, p, hp, hcounted, haddress⟩ :
      ∃ (ps : List (Placement Unit)) (ns : List Notice) (e : Endpoint Unit)
        (record : InFlight Unit), Heard ps ns e ∧ e.kind = .control ∧ e.inFlight = [record] ∧
        record.cargo = .live readEight .routine ∧ e.controlStage = .status ∧
        ∃ p, oldest? ps e = some p ∧
          Notice.counted p.plan.hasData p.request.bufferLength ns = 6 ∧
          p.addresses[2]? = some 0x1020 :=
    ⟨_, _, _, _, @Heard.step _ _ _ _ _ (.event ⟨.success, 2, 1, 1, 0x1010⟩) _ _
      (@Heard.step _ _ _ _ _ (.event ⟨.success, 0, 1, 1, 0x1000⟩) _ _
        (@Heard.step _ _ _ _ _ (.submit readEight 0x2000 .routine none) _ _
          (.fresh fresh_smallControl) rfl) rfl) rfl,
      rfl, rfl, rfl, rfl, _, rfl, rfl, rfl⟩
  obtain ⟨p', hp', hstaged⟩ := (control_follows_reports hheard hkind).2 record [] hlist
  obtain rfl : p' = p := Option.some.inj (hp'.symm.trans hp)
  obtain ⟨e', hevent, -, -, -, hstage⟩ :=
    hstaged.ends 2 ⟨⟨6⟩, 0, 1, 1, 0x1020⟩ haddress rfl (.inl rfl)
  rw [hcounted, deliveries_live hlive] at hevent
  exact ⟨ps, ns, e, record, p', _, e', hheard, hkind, hlist, hp, hstaged, hstatus, hevent, rfl, rfl,
    hstage⟩

end Endpoint

end UsbHost
