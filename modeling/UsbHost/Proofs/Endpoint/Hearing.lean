import UsbHost.Proofs.Endpoint.Addressing

/-!
What the oldest TD has been told. Beside an endpoint and the history of its ring a list is kept of
the events that have named a TRB of the oldest TD since it has become the oldest, each with the
place of that TRB. Whatever else happens meanwhile, the record of the TD knows what this list
tells, and the records behind it are as they were when their requests were accepted.
-/

namespace UsbHost

open Endpoint (Op Reply Fresh Placed Tallies Transition)

variable {ρ : Type}

/-- An event about the TRB at a place of a TD. -/
structure Notice where
  position : Nat
  event : TransferEvent

/-- What an operation tells the TD of `p`: it is told of an event at one of its addresses, unless
this is a report on the ring. -/
def Placement.told (p : Placement ρ) : Op ρ → List Notice
  | .event event =>
    if event.code.isRingReport then
      []
    else
      (p.addresses.idxOf? event.address).toList.map fun position => ⟨position, event⟩
  | _ => []

namespace Endpoint

/-- The oldest TD in flight, when `ps` are all that have been put on the ring. -/
def oldest? (ps : List (Placement ρ)) (e : Endpoint ρ) : Option (Placement ρ) :=
  ps[ps.length - e.inFlight.length]?

/-- What the oldest TD has been told after a step to `e'`. When a TD goes, the next one has not been
told anything. -/
def hearing (ps : List (Placement ρ)) (e : Endpoint ρ) (ns : List Notice) (op : Op ρ)
    (e' : Endpoint ρ) : List Notice :=
  if e'.inFlight.length < e.inFlight.length then [] else ns ++ (oldest? ps e).elim [] (·.told op)

/-- Endpoints that steps lead to from a new one, each with all that has been put on its ring, and
all that its oldest TD has been told. In between the packet size may have been set. -/
inductive Heard : List (Placement ρ) → List Notice → Endpoint ρ → Prop
  | fresh {e : Endpoint ρ} (h : Fresh e) : Heard [] [] e
  | step {ps : List (Placement ρ)} {ns : List Notice} {e e' : Endpoint ρ} {op : Op ρ}
      {reply : Reply} {ds : List (Delivery ρ)} (h : Heard ps ns e)
      (hstep : e.step op = .ok ((reply, ds), e')) :
      Heard (ps ++ e.placed op reply) (hearing ps e ns op e') e'
  | packetSize {ps : List (Placement ρ)} {ns : List Notice} {e : Endpoint ρ} (h : Heard ps ns e)
      (size : UInt16) : Heard ps ns { e with maxPacketSize := size }

theorem Heard.placed {ps : List (Placement ρ)} {ns : List Notice} {e : Endpoint ρ}
    (h : Heard ps ns e) : Placed ps e := by
  induction h with
  | fresh h => exact .fresh h
  | step _ hstep ih => exact .step ih hstep
  | packetSize _ size ih => exact .packetSize ih size

/-! ### The oldest TD -/

section Oldest

variable {ps : List (Placement ρ)} {e : Endpoint ρ} {record : InFlight ρ}
  {rest : List (InFlight ρ)} {p : Placement ρ} {event : TransferEvent}

theorem oldest?_of_idle (h : e.inFlight = []) (ps : List (Placement ρ)) : oldest? ps e = none := by
  rw [oldest?, h]
  exact List.getElem?_eq_none (Nat.le_refl _)

theorem Tallies.oldest?_eq (h : Tallies ps e) (hlist : e.inFlight = record :: rest) :
    ∃ p, oldest? ps e = some p ∧ p.Of e.ring e.kind record := by
  obtain ⟨gone, p, younger, rfl, hp, hyounger⟩ := h.oldest hlist
  refine ⟨p, ?_, hp⟩
  have hlength := hyounger.length_eq
  rw [oldest?, hlist, List.getElem?_append_right]
  · simp [hlength]
  · simp [hlength]

/-- The TD is told of an event at one of its TRBs. -/
theorem told_of_position (haligned : e.Aligned) (hlist : e.inFlight = record :: rest)
    (hp : p.Of e.ring e.kind record) (hreport : event.code.isRingReport = false) {k : Nat}
    (hposition : record.position? e.ring event.address = some k) :
    p.told (.event event) = [⟨k, event⟩] := by
  have hiff := position?_eq_iff haligned hlist hp event.address
  have hindex : p.addresses.idxOf? event.address = some k := by
    cases hfound : p.addresses.idxOf? event.address with
    | none =>
      exact absurd (List.mem_of_getElem? ((hiff k).1 hposition)) (List.idxOf?_eq_none_iff.1 hfound)
    | some j =>
      obtain ⟨hj, hat, -⟩ := List.idxOf?_eq_some_iff.1 hfound
      rw [← (hiff j).2 (List.getElem?_eq_some_iff.2 ⟨hj, hat⟩), hposition]
  simp [Placement.told, hreport, hindex]

theorem told_of_stale (haligned : e.Aligned) (hlist : e.inFlight = record :: rest)
    (hp : p.Of e.ring e.kind record) (hstale : event.code.isRingReport = true ∨
      record.position? e.ring event.address = none) : p.told (.event event) = [] := by
  rw [Placement.told]
  rcases hstale with hreport | hposition
  · rw [if_pos hreport]
  · have hindex : p.addresses.idxOf? event.address = none := by
      refine List.idxOf?_eq_none_iff.2 fun hmem => ?_
      obtain ⟨k, hk, hat⟩ := List.mem_iff_getElem.1 hmem
      have hfound := (position?_eq_iff haligned hlist hp event.address k).2
        (List.getElem?_eq_some_iff.2 ⟨hk, hat⟩)
      rw [hposition] at hfound
      cases hfound
    rw [hindex]
    split <;> rfl

end Oldest

end Endpoint

/-! ### What a record knows -/

/-- What events change in a record, and what this depends on. -/
structure Progress where
  td : Td
  dataLength : Nat
  stage : ControlStage
  transferred : Nat

def InFlight.progress (r : InFlight ρ) : Progress := ⟨r.td, r.dataLength, r.stage, r.transferred⟩

/-- Stage of a control transfer that has been told `ns`: the last notice decides. -/
def ControlStage.after (hasData : Bool) (ns : List Notice) : ControlStage :=
  match ns.getLast? with
  | none => .setup
  | some n => if hasData && n.position = 0 then .data else .status

/-- Bytes that the data stage of a control transfer has transferred: its last notice counts. -/
def Notice.counted (hasData : Bool) (length : Nat) (ns : List Notice) : Nat :=
  ((ns.filter fun n => hasData && n.position = 1).getLast?).elim 0 fun n =>
    length - n.event.residual.toNat

/-- The record knows of the notices `ns`, none of which has ended its TD. -/
structure Progress.Knows (kind : TransferKind) (ns : List Notice) (s : Progress) : Prop where
  /-- A control TD has a TRB for each of its stages. -/
  stages : kind = .control → s.td.trbCount = if s.td.hasData then 3 else 2
  goesOn : ∀ n ∈ ns, n.position < s.td.trbCount ∧
    InFlight.isFinal kind s.td.trbCount n.position n.event.code = false
  stage_eq : kind = .control → s.stage = .after s.td.hasData ns
  transferred_eq : kind = .control → s.transferred = Notice.counted s.td.hasData s.dataLength ns

theorem Notice.counted_concat (hasData : Bool) (length : Nat) (ns : List Notice) (n : Notice) :
    counted hasData length (ns ++ [n]) = if hasData && n.position = 1 then
      length - n.event.residual.toNat else counted hasData length ns := by
  rw [counted, List.filter_append, List.filter_singleton]
  cases hdata : hasData && n.position = 1 with
  | true => rw [cond_true, List.getLast?_concat, Option.elim_some, if_pos rfl]
  | false => rw [cond_false, List.append_nil, counted, if_neg Bool.false_ne_true]

theorem Notice.counted_le (hasData : Bool) (length : Nat) (ns : List Notice) :
    counted hasData length ns ≤ length := by
  rw [counted]
  cases (ns.filter fun n => hasData && n.position = 1).getLast? with
  | none => exact Nat.zero_le _
  | some n => exact Nat.sub_le _ _

theorem ControlStage.after_concat (hasData : Bool) (ns : List Notice) (n : Notice) :
    after hasData (ns ++ [n]) = if hasData && n.position = 0 then .data else .status := by
  rw [after, List.getLast?_concat]

namespace InFlight

variable {r r' : InFlight ρ} {kind : TransferKind} {ns : List Notice} {k : Nat}
  {event : TransferEvent}

/-- A record of a request that has just been accepted. -/
theorem knows_record {e : Endpoint ρ} {request : Request ρ} {data : UInt64} {plan : TdPlan}
    (hplan : (TdPlan.ofRequest e.kind request data).run = .ok (.ok plan)) (notify : Notify)
    (deadline : Option UInt64) (lastTrb : UInt64) :
    (e.record plan request notify deadline lastTrb).progress.Knows e.kind [] where
  stages hkind := by
    rw [hkind] at hplan
    exact TdPlan.length_control hplan
  goesOn := nofun
  stage_eq hkind := if_pos hkind
  transferred_eq _ := rfl

/-- An event that does not end a control TD is the success of its setup or data stage. -/
theorem advanceControl_goesOn (h : r.advanceControl k event = (r', none)) :
    event.code.isTransferOk = true ∧ r'.td = r.td ∧ r'.dataLength = r.dataLength ∧
      ((k = 0 ∧ r'.stage = (if r.hasData then .data else .status) ∧
          r'.transferred = r.transferred) ∨
        (k = 1 ∧ r.hasData = true ∧ r'.stage = .status ∧
          r'.transferred = r.dataLength - event.residual.toNat)) := by
  simp only [advanceControl] at h
  cases hok : event.code.isTransferOk with
  | false => simp [hok] at h
  | true =>
    simp only [hok, Bool.not_true, Bool.false_eq_true, if_false, stageAt] at h
    refine ⟨rfl, ?_⟩
    by_cases hzero : k = 0
    · simp only [hzero, if_true] at h
      cases h
      exact ⟨rfl, rfl, .inl ⟨hzero, rfl, rfl⟩⟩
    · by_cases hdata : (r.hasData && k = 1) = true
      · simp only [hzero, if_false, hdata, if_true] at h
        cases h
        simp only [Bool.and_eq_true, decide_eq_true_eq] at hdata
        exact ⟨rfl, rfl, .inr ⟨hdata.2, hdata.1, rfl, rfl⟩⟩
      · simp [hzero, hdata] at h

theorem position?_lt {ring : ProducerRing} {address : UInt64}
    (h : r.position? ring address = some k) : k < r.trbCount := by
  obtain ⟨index, -, h⟩ := Option.bind_eq_some_iff.1 h
  rw [guard_bind, Option.ite_none_right_eq_some, guard_bind, Option.ite_none_right_eq_some] at h
  obtain ⟨-, hlt, h⟩ := h
  cases h
  exact hlt

/-- A TD that goes on knows of the event. -/
theorem knows_advance (h : r.progress.Knows kind ns)
    (hadvance : r.advance kind k event = (r', none)) (hk : k < r.trbCount) :
    r'.progress.Knows kind (ns ++ [⟨k, event⟩]) := by
  have htd := (advance_frame_of_eq hadvance).1
  have hcount : r'.trbCount = r.trbCount := congrArg Td.trbCount htd
  have hdata : r'.hasData = r.hasData := congrArg Td.hasData htd
  have hfinal := isSome_advance event hk h.stages
  rw [hadvance] at hfinal
  constructor
  case stages =>
    change kind = .control → r'.trbCount = if r'.hasData then 3 else 2
    rw [hcount, hdata]
    exact h.stages
  case goesOn =>
    intro n hn
    change n.position < r'.trbCount ∧ isFinal kind r'.trbCount n.position n.event.code = false
    rw [hcount]
    rcases List.mem_append.1 hn with hn | hn
    · exact h.goesOn n hn
    · rw [List.mem_singleton.1 hn]
      exact ⟨hk, hfinal.symm⟩
  case stage_eq =>
    rintro rfl
    obtain ⟨-, -, -, hcases⟩ := advanceControl_goesOn hadvance
    change r'.stage = .after r'.hasData _
    rw [ControlStage.after_concat, hdata]
    rcases hcases with ⟨rfl, hstage, -⟩ | ⟨rfl, -, hstage, -⟩
    · simpa using hstage
    · simpa using hstage
  case transferred_eq =>
    rintro rfl
    have hbefore : r.transferred = Notice.counted r.hasData r.dataLength ns := h.transferred_eq rfl
    obtain ⟨-, -, hlength, hcases⟩ := advanceControl_goesOn hadvance
    change r'.transferred = Notice.counted r'.hasData r'.dataLength _
    rw [Notice.counted_concat, hdata, hlength]
    rcases hcases with ⟨rfl, -, htransferred⟩ | ⟨rfl, hhas, -, htransferred⟩
    · simpa [hbefore] using htransferred
    · simpa [hhas] using htransferred

@[simp] theorem progress_bury (r : InFlight ρ) (failure : TransferFailure) :
    (r.bury failure).2.progress = r.progress := by
  cases hcargo : r.cargo with
  | live request notify => rw [bury_live hcargo]; rfl
  | tombstone retained => simp [hcargo]

end InFlight

namespace Endpoint

/-- Burying records makes no progress. -/
theorem progress_of_buries {failure : TransferFailure} {due : InFlight ρ → Prop}
    {rs rs' : List (InFlight ρ)} {ds : List (Delivery ρ)} (h : Buries failure due rs ds rs') :
    rs'.map InFlight.progress = rs.map InFlight.progress :=
  h.map_eq fun r deadline => InFlight.progress_bury { r with deadline := deadline } failure

/-! ### What is known along a run -/

/-- The oldest record knows what it has been told, and the others have been told nothing. -/
def Informed (kind : TransferKind) (ns : List Notice) : List Progress → Prop
  | [] => ns = []
  | s :: ss => s.Knows kind ns ∧ ∀ s' ∈ ss, s'.Knows kind []

theorem Informed.tail {kind : TransferKind} {ns : List Notice} {s : Progress} {ss : List Progress}
    (h : Informed kind ns (s :: ss)) : Informed kind [] ss := by
  cases ss with
  | nil => exact Eq.refl []
  | cons s' ss =>
    obtain ⟨h', hrest⟩ := List.forall_mem_cons.1 h.2
    exact ⟨h', hrest⟩

theorem Informed.concat {kind : TransferKind} {ns : List Notice} {ss : List Progress} {s : Progress}
    (h : Informed kind ns ss) (hs : s.Knows kind []) : Informed kind ns (ss ++ [s]) := by
  cases ss with
  | nil =>
    obtain rfl : ns = [] := h
    exact ⟨hs, nofun⟩
  | cons s' ss =>
    refine ⟨h.1, fun u hu => ?_⟩
    rcases List.mem_append.1 hu with hu | hu
    · exact h.2 u hu
    · exact List.mem_singleton.1 hu ▸ hs

section Run

variable {ps : List (Placement ρ)} {ns : List Notice} {e e' : Endpoint ρ} {op : Op ρ}
  {reply : Reply} {ds : List (Delivery ρ)}

/-- An operation that is no event tells nothing. -/
theorem hearing_eq_self (hlength : e.inFlight.length ≤ e'.inFlight.length)
    (htold : ∀ p, oldest? ps e = some p → p.told op = []) : hearing ps e ns op e' = ns := by
  rw [hearing, if_neg (by omega)]
  cases holdest : oldest? ps e with
  | none => exact List.append_nil ns
  | some p => rw [Option.elim_some, htold p holdest, List.append_nil]

/-- A step that makes no progress and tells nothing leaves everybody informed. -/
theorem informed_of_same_progress (h : Informed e.kind ns (e.inFlight.map InFlight.progress))
    (hkind : e'.kind = e.kind)
    (hprogress : e'.inFlight.map InFlight.progress = e.inFlight.map InFlight.progress)
    (htold : ∀ p, oldest? ps e = some p → p.told op = []) :
    Informed e'.kind (hearing ps e ns op e') (e'.inFlight.map InFlight.progress) := by
  have hlength := congrArg List.length hprogress
  rw [List.length_map, List.length_map] at hlength
  rw [hearing_eq_self (Nat.le_of_eq hlength.symm) htold, hkind, hprogress]
  exact h

/-- The step leads to an endpoint whose records know what they have been told. -/
theorem informed_of_transition (htallies : Tallies ps e)
    (h : Informed e.kind ns (e.inFlight.map InFlight.progress))
    (ht : Transition e op reply ds e') :
    Informed e'.kind (hearing ps e ns op e') (e'.inFlight.map InFlight.progress) := by
  cases ht with
  | unplanned => exact informed_of_same_progress h rfl rfl fun _ _ => rfl
  | refused => exact informed_of_same_progress h rfl rfl fun _ _ => rfl
  | accepted plan lastTrb ring hplan =>
    rw [hearing_eq_self (by simp) fun _ _ => rfl]
    simp only [List.map_append, List.map_singleton]
    exact h.concat (InFlight.knows_record hplan _ _ _)
  | stale event hstale =>
    refine informed_of_same_progress h rfl rfl fun p hp => ?_
    cases hlist : e.inFlight with
    | nil =>
      rw [oldest?_of_idle hlist] at hp
      cases hp
    | cons record rest =>
      obtain ⟨p', hp', hof⟩ := htallies.oldest?_eq hlist
      obtain rfl : p' = p := Option.some.inj (hp'.symm.trans hp)
      have haligned := htallies.sound.aligned (htallies.sound.valid_of_inFlight hlist)
      exact told_of_stale haligned hlist hof (hstale.imp_right fun h => h record (by simp [hlist]))
  | advanced event record record' rest position hreport hlist hposition hadvance =>
    obtain ⟨p, hp, hof⟩ := htallies.oldest?_eq hlist
    have haligned := htallies.sound.aligned (htallies.sound.valid_of_inFlight hlist)
    have hk := (InFlight.position?_lt hposition)
    rw [hlist] at h
    rw [hearing, if_neg (by simp [hlist]), hp, Option.elim_some,
      told_of_position haligned hlist hof hreport hposition]
    exact ⟨InFlight.knows_advance h.1 hadvance hk, h.2⟩
  | finished event record record' rest position released outcome ring _ hlist =>
    rw [hlist] at h
    rw [hearing, if_pos (by simp [hlist])]
    exact h.tail
  | givenBack id failure =>
    have hsame := progress_of_buries (buries_buryFirst id failure e.inFlight)
    exact informed_of_same_progress h rfl hsame fun _ _ => rfl
  | expired now =>
    have hsame := progress_of_buries (buries_buryExpired now e.inFlight)
    exact informed_of_same_progress h rfl hsame fun _ _ => rfl
  | invalidated =>
    change hearing ps e ns .invalidate e.invalidate.2 = []
    cases hlist : e.inFlight with
    | nil =>
      rw [hlist] at h
      rw [hearing_eq_self (by simp [hlist]) fun _ _ => rfl]
      exact h
    | cons record rest => exact if_pos (by simp [hlist, invalidate])

theorem Heard.informed (h : Heard ps ns e) :
    Informed e.kind ns (e.inFlight.map InFlight.progress) := by
  induction h with
  | fresh h =>
    obtain ⟨owner, traits, config, base, -, -⟩ := h
    exact Eq.refl []
  | step h hstep ih => exact informed_of_transition h.placed.tallies ih (transition_of_step hstep)
  | packetSize _ _ ih => exact ih

end Run

end Endpoint

end UsbHost
