import UsbHost.Proofs.Endpoint.Alignment
import UsbHost.Proofs.Ring.Pending
import UsbHost.Proofs.Trb.Drafts

/-!
Buffers in flight. As long as an endpoint is valid, each outstanding TRB of its ring refers to
memory that the endpoint owns: the buffer of the request whose TD it belongs to, or the buffer that
the tombstone of this request has kept. Giving a request back moves its buffer from the one place
to the other; a buffer leaves with the record of its TD, when all TRBs of the TD are released.
-/

namespace UsbHost

variable {ρ : Type}

/-- Bus address and length of the memory that a TRB lets the controller use for data. -/
def Trb.dataSpan? (t : Trb) : Option (UInt64 × Nat) :=
  match t.kind? with
  | some .normal | some .isoch | some .dataStage =>
    if t.dataLength = 0 then none else some (t.parameter, t.dataLength)
  | _ => none

/-- A span of bus addresses lies inside the buffer. -/
def Dma.Buffer.Covers (b : Dma.Buffer) (address? : Dma.BufferId → Option UInt64)
    (span : UInt64 × Nat) : Prop :=
  ∃ base, address? b.id = some base ∧ base.toNat ≤ span.1.toNat ∧
    span.1.toNat + span.2 ≤ base.toNat + b.length

/-- The data buffer that the endpoint holds for a record. -/
def Cargo.buffer? : Cargo ρ → Option Dma.Buffer
  | live request _ => request.buffer
  | tombstone retained => retained

/-- What a TRB lets the controller use is the buffer of the record. -/
def Cargo.Backs (cargo : Cargo ρ) (address? : Dma.BufferId → Option UInt64) (t : Trb) : Prop :=
  ∀ span, t.dataSpan? = some span → ∃ b, cargo.buffer? = some b ∧ b.Covers address? span

theorem Trb.dataSpan?_eq_some {t : Trb} {span : UInt64 × Nat} (h : t.dataSpan? = some span) :
    span = (t.parameter, t.dataLength) ∧ 0 < t.dataLength := by
  unfold dataSpan? at h
  split at h
  case h_4 => cases h
  all_goals
    split at h
    · cases h
    · rename_i hlength
      exact ⟨(Option.some.inj h).symm, Nat.pos_of_ne_zero hlength⟩

@[simp] theorem Trb.dataSpan?_withCycle (t : Trb) (on : Bool) :
    (t.withCycle on).dataSpan? = t.dataSpan? := by
  simp only [dataSpan?, kind?_withCycle]
  rfl

/-! ### The TRBs of a transfer descriptor -/

/-- What the TRB refers to, if anything, is part of the `length` bytes at `data`. -/
def Trb.Within (t : Trb) (data : UInt64) (length : Nat) : Prop :=
  t.dataSpan? = none ∨
    data.toNat ≤ t.parameter.toNat ∧ t.parameter.toNat + t.dataLength ≤ data.toNat + length

/-- The TRB comes from a draft that fits, and that hands no data to the controller or part of the
`length` bytes at `data`. -/
def Trb.Drafted (t : Trb) (data : UInt64) (length : Nat) : Prop :=
  ∃ d : Draft, d.Fits ∧ d.build = t ∧
    ((d.kind = .setupStage ∨ d.kind = .statusStage) ∨
      data.toNat ≤ d.parameter.toNat ∧ d.parameter.toNat + d.length.toNat ≤ data.toNat + length)

/-- What the draft says is what the controller finds. -/
theorem Trb.Drafted.within {t : Trb} {data : UInt64} {length : Nat}
    (h : t.Drafted data length) : t.Within data length := by
  obtain ⟨d, hfits, rfl, hkind | hinside⟩ := h
  · left
    rw [dataSpan?, hfits.readIn.kind?_eq]
    rcases hkind with hkind | hkind <;> rw [hkind]
  · right
    rwa [hfits.readIn.parameter_eq, hfits.readIn.dataLength_eq]

namespace TdPlan

variable {r : Request ρ} {data : UInt64} {plan : TdPlan}

theorem drafted_setupStage (setup : Setup) {stage : UInt32} (h : stage < 4) (data : UInt64)
    (length : Nat) : (Trb.setupStage setup stage .interruptOnCompletion).Drafted data length :=
  ⟨_, Trb.Draft.fits_setupStage setup h, rfl, .inl (.inl rfl)⟩

theorem drafted_statusStage (isIn : Bool) (data : UInt64) (length : Nat) :
    (Trb.statusStage isIn .interruptOnCompletion).Drafted data length :=
  ⟨_, Trb.Draft.fits_statusStage isIn, rfl, .inl (.inr rfl)⟩

theorem drafted_dataStage {length : Nat} (h : length ≤ Trb.maxTransfer) (data : UInt64)
    (isIn : Bool) :
    (Trb.dataStage data (.ofNat length) isIn .interruptOnCompletion).Drafted data length := by
  refine ⟨_, Trb.Draft.fits_dataStage h data isIn, rfl, .inr ⟨Nat.le_refl _, ?_⟩⟩
  refine Nat.add_le_add_left ?_ _
  rw [Trb.Draft.length, UInt32.toNat_ofNat']
  exact Nat.mod_le _ _

theorem drafted_of_control (h : (control r data).run = .ok (.ok plan)) :
    ∀ t ∈ plan.trbs, t.Drafted data r.bufferLength := by
  obtain ⟨setup, hmax, ⟨-, rfl⟩ | ⟨-, rfl⟩⟩ := control_ok h
  · simp only [List.forall_mem_cons]
    exact ⟨drafted_setupStage _ (by decide) _ _, drafted_statusStage _ _ _, nofun⟩
  · simp only [List.forall_mem_cons]
    refine ⟨drafted_setupStage _ ?_ _ _, drafted_dataStage hmax _ _, drafted_statusStage _ _ _,
      nofun⟩
    cases setup.isIn <;> decide

/-- A bus offset that does not leave the address space is a sum. -/
theorem toNat_busOffset {base address : UInt64} {offset : Nat}
    (h : Dma.busOffset base offset = .ok address) : address.toNat = base.toNat + offset := by
  unfold Dma.busOffset at h
  split at h
  · rename_i hlt
    cases h
    rw [UInt64.toNat_add, UInt64.toNat_ofNat', Nat.add_mod_mod, Nat.mod_eq_of_lt hlt]
  · cases h

theorem toNat_chunkLength (length i : Nat) :
    (UInt32.ofNat (chunkLength length i)).toNat = chunkLength length i := by
  have hmax : chunkLength length i ≤ Trb.maxTransfer := Nat.min_le_right _ _
  rw [UInt32.toNat_ofNat']
  exact Nat.mod_eq_of_lt (Nat.lt_of_le_of_lt hmax (by decide))

theorem chunkLength_le (length i : Nat) :
    (UInt32.ofNat (chunkLength length i)).toNat ≤ Trb.maxTransfer := by
  rw [toNat_chunkLength]
  exact Nat.min_le_right _ _

theorem fits_chunk (address : UInt64) (length i : Nat) :
    (Trb.Draft.normal address (.ofNat (chunkLength length i))
      (.ofNat (chunkCount length - i - 1))
      (if chunkCount length - i - 1 = 0 then .interruptOnCompletion
        else .chain ||| .interruptOnShortPacket)).Fits :=
  Trb.Draft.fits_normal (chunkLength_le length i) (Trb.Draft.flags_chunk _) _ _

theorem drafted_of_chunk {length i : Nat} {t : Trb} (hi : i < chunkCount length)
    (h : chunk data length i = .ok t) : t.Drafted data length := by
  unfold chunk at h
  obtain ⟨address, haddress, h⟩ := Fault.bind_eq_ok.1 h
  cases h
  have hlow := toNat_busOffset haddress
  have hinside : i * Trb.maxTransfer < length := by
    have hsize : Trb.maxTransfer = 65536 := rfl
    rw [chunkCount, Nat.lt_div_iff_mul_lt (by decide)] at hi
    omega
  have hchunk : chunkLength length i ≤ length - i * Trb.maxTransfer := Nat.min_le_left _ _
  refine ⟨_, fits_chunk address length i, rfl, .inr ?_⟩
  rw [Trb.Draft.parameter, Trb.Draft.length, toNat_chunkLength]
  omega

theorem drafted_of_bulk (h : (bulk r data).run = .ok (.ok plan)) :
    ∀ t ∈ plan.trbs, t.Drafted data r.bufferLength := by
  obtain ⟨trbs, htrbs, -, rfl⟩ := bulk_ok h
  intro t ht
  obtain ⟨i, hi, hchunk⟩ := Fault.mem_mapM htrbs ht
  exact drafted_of_chunk (List.mem_range.1 hi) hchunk

theorem drafted_of_packetTrbs {length offset : Nat} {sizes : List UInt16} {trbs : List Trb}
    (h : packetTrbs data offset sizes = .ok trbs)
    (hfits : offset + sizes.foldr (fun size total => size.toNat + total) 0 ≤ length) :
    ∀ t ∈ trbs, t.Drafted data length := by
  induction sizes generalizing offset trbs with
  | nil =>
    cases h
    exact nofun
  | cons size sizes ih =>
    obtain ⟨address, haddress, h⟩ := Fault.bind_eq_ok.1 h
    obtain ⟨rest, hrest, h⟩ := Fault.bind_eq_ok.1 h
    cases h
    rw [List.foldr_cons] at hfits
    have hlow := toNat_busOffset haddress
    refine List.forall_mem_cons.2
      ⟨⟨_, Trb.Draft.fits_isoch size ?_ address _, rfl, .inr ?_⟩, ih hrest (by omega)⟩
    · split <;> decide
    · rw [Trb.Draft.parameter, Trb.Draft.length, UInt16.toNat_toUInt32]
      omega

theorem drafted_of_isochronous (h : (isochronous r data).run = .ok (.ok plan)) :
    ∀ t ∈ plan.trbs, t.Drafted data r.bufferLength := by
  obtain ⟨trbs, htrbs, -, hlength, rfl⟩ := isochronous_ok h
  exact drafted_of_packetTrbs htrbs (by omega)

/-- Every TRB of a TD comes from a draft that fits, and refers to no memory but the buffer of the
request. -/
theorem drafted_of_ofRequest {kind : TransferKind}
    (h : (ofRequest kind r data).run = .ok (.ok plan)) :
    ∀ t ∈ plan.trbs, t.Drafted data r.bufferLength := by
  cases kind with
  | control => exact drafted_of_control h
  | bulk | interrupt => exact drafted_of_bulk h
  | isochronous => exact drafted_of_isochronous h

end TdPlan

/-! ### Records and their TRBs -/

section Records

variable {address? address?' : Dma.BufferId → Option UInt64}

theorem Dma.Buffer.Covers.mono {b : Dma.Buffer} {span : UInt64 × Nat}
    (hextends : ∀ id address, address? id = some address → address?' id = some address)
    (h : b.Covers address? span) : b.Covers address?' span := by
  obtain ⟨base, hbase, hinside⟩ := h
  exact ⟨base, hextends _ _ hbase, hinside⟩

theorem Cargo.Backs.mono {cargo : Cargo ρ} {t : Trb}
    (hextends : ∀ id address, address? id = some address → address?' id = some address)
    (h : cargo.Backs address? t) : cargo.Backs address?' t := by
  intro span hspan
  obtain ⟨b, hb, hcovers⟩ := h span hspan
  exact ⟨b, hb, hcovers.mono hextends⟩

theorem Cargo.backs_withCycle {cargo : Cargo ρ} {t : Trb} (h : cargo.Backs address? t)
    (on : Bool) : cargo.Backs address? (t.withCycle on) := by
  intro span hspan
  rw [Trb.dataSpan?_withCycle] at hspan
  exact h span hspan

/-- A request whose buffer lies at `data` backs what lies within the buffer. -/
theorem Cargo.backs_live {request : Request ρ} {notify : Notify} {data : UInt64} {t : Trb}
    (hdata : ∀ b ∈ request.buffer, address? b.id = some data)
    (h : t.Within data request.bufferLength) : (live request notify).Backs address? t := by
  intro span hspan
  obtain ⟨rfl, hpos⟩ := Trb.dataSpan?_eq_some hspan
  obtain ⟨hlow, hhigh⟩ := h.resolve_left (by simp [hspan])
  cases hbuffer : request.buffer with
  | none =>
    rw [Request.bufferLength, hbuffer] at hhigh
    simp only [Option.elim_none] at hhigh
    omega
  | some b =>
    rw [Request.bufferLength, hbuffer] at hhigh
    exact ⟨b, hbuffer, data, hdata b hbuffer, hlow, hhigh⟩

/-- The TRBs of a list belong to the records in their order, and each record backs its own. -/
inductive Backed (address? : Dma.BufferId → Option UInt64) : List (InFlight ρ) → List Trb → Prop
  | nil : Backed address? [] []
  | cons {r : InFlight ρ} {rs : List (InFlight ρ)} {ts us : List Trb}
      (hcount : ts.length = r.trbCount) (hback : ∀ t ∈ ts, r.cargo.Backs address? t)
      (rest : Backed address? rs us) : Backed address? (r :: rs) (ts ++ us)

namespace Backed

variable {r : InFlight ρ} {rs rs' : List (InFlight ρ)} {ts us : List Trb}

theorem concat (h : Backed address? rs us) (hcount : ts.length = r.trbCount)
    (hback : ∀ t ∈ ts, r.cargo.Backs address? t) : Backed address? (rs ++ [r]) (us ++ ts) := by
  induction h with
  | nil => simpa using cons hcount hback .nil
  | cons hcount' hback' _ ih =>
    rw [List.cons_append, List.append_assoc]
    exact cons hcount' hback' ih

theorem tail (h : Backed address? (r :: rs) us) : Backed address? rs (us.drop r.trbCount) := by
  cases h with
  | cons hcount _ rest => rwa [← hcount, List.drop_left]

theorem mono (hextends : ∀ id address, address? id = some address → address?' id = some address)
    (h : Backed address? rs us) : Backed address?' rs us := by
  induction h with
  | nil => exact .nil
  | cons hcount hback _ ih => exact .cons hcount (fun t ht => (hback t ht).mono hextends) ih

theorem exists_of_mem (h : Backed address? rs us) {t : Trb} (ht : t ∈ us) :
    ∃ r ∈ rs, r.cargo.Backs address? t := by
  induction h with
  | nil => cases ht
  | cons _ hback _ ih =>
    rcases List.mem_append.1 ht with ht | ht
    · exact ⟨_, List.mem_cons_self, hback t ht⟩
    · obtain ⟨r, hr, hback⟩ := ih ht
      exact ⟨r, List.mem_cons_of_mem _ hr, hback⟩

/-- A record may change as long as its TD and its buffer do not. -/
theorem head {r' : InFlight ρ} (h : Backed address? (r :: rs) us) (htd : r'.td = r.td)
    (hcargo : r'.cargo.buffer? = r.cargo.buffer?) : Backed address? (r' :: rs) us := by
  cases h with
  | cons hcount hback rest =>
    have htrbs : r'.trbCount = r.trbCount := congrArg Td.trbCount htd
    refine cons (hcount.trans htrbs.symm) (fun t ht span hspan => ?_) rest
    rw [hcargo]
    exact hback t ht span hspan

/-- A request that is given back early leaves its buffer behind. -/
theorem withdraws {failure : TransferFailure} {due : InFlight ρ → Prop} {ds : List (Delivery ρ)}
    (h : Backed address? rs us) (hwithdraws : Endpoint.Withdraws failure due rs ds rs') :
    Backed address? rs' us := by
  induction hwithdraws generalizing us with
  | nil => exact h
  | keep htd hcargo _ ih =>
    cases h with
    | cons hcount hback rest => exact (cons hcount hback (ih rest)).head htd (by rw [hcargo])
  | bury _ hlive htd hcargo _ ih =>
    cases h with
    | cons hcount hback rest =>
      exact (cons hcount hback (ih rest)).head htd (by rw [hcargo, hlive]; rfl)

end Backed

end Records

/-! ### Endpoints -/

namespace Endpoint

open ProducerRing

variable {e e' : Endpoint ρ} {address? address?' : Dma.BufferId → Option UInt64}

/-- The endpoint has a buffer around these bytes in its hands. -/
def Holds (e : Endpoint ρ) (address? : Dma.BufferId → Option UInt64) (span : UInt64 × Nat) : Prop :=
  ∃ r ∈ e.inFlight, ∃ b, r.cargo.buffer? = some b ∧ b.Covers address? span

/-- The endpoint is in order and, while it is valid, has the data of its outstanding TRBs. -/
structure Retaining (address? : Dma.BufferId → Option UInt64) (e : Endpoint ρ) : Prop where
  sound : e.Sound
  backed : e.valid = true → Backed address? e.inFlight e.ring.pending

theorem retaining_of_fresh (h : Fresh e) : e.Retaining address? := by
  refine ⟨sound_of_fresh h, fun _ => ?_⟩
  obtain ⟨owner, traits, config, base, hlayout, hfits⟩ := h
  have hcount := (Ring.layout_bounds hlayout).1
  change Backed address? [] (ProducerRing.create .transfer config.transferRingSize base).pending
  rw [pending_create .transfer (Nat.le_trans (by decide) hcount) hfits]
  exact .nil

theorem Retaining.mono (h : e.Retaining address?)
    (hextends : ∀ id address, address? id = some address → address?' id = some address) :
    e.Retaining address?' :=
  ⟨h.sound, fun hvalid => (h.backed hvalid).mono hextends⟩

/-- The TRBs of an accepted request join the others, and its record holds their data. -/
theorem Retaining.accept (h : e.Retaining address?) {request : Request ρ} {data : UInt64}
    {notify : Notify} {deadline : Option UInt64} {plan : TdPlan} {lastTrb : UInt64}
    {ring : ProducerRing} (hplan : (TdPlan.ofRequest e.kind request data).run = .ok (.ok plan))
    (hroom : e.refusal? plan = none)
    (henqueue : enqueueAll e.ring 0 plan.trbs = .ok (lastTrb, ring))
    (hdata : ∀ b ∈ request.buffer, address? b.id = some data) :
    Backed address? (e.inFlight ++ [e.record plan request notify deadline lastTrb])
      ring.pending := by
  have hvalid := valid_of_refusal? hroom
  have hr := (h.sound.aligned hvalid).wellFormed
  have hfits := (room_of_refusal? hr hroom).2
  rw [enqueueAll_eq hr hfits, Except.ok.injEq, Prod.mk.injEq] at henqueue
  rw [← henqueue.2, pending_acceptAll hr hfits]
  refine (h.backed hvalid).concat (List.length_map _) fun t ht => ?_
  obtain ⟨u, hu, rfl⟩ := List.mem_map.1 ht
  have hwithin := (TdPlan.drafted_of_ofRequest hplan u hu).within
  exact Cargo.backs_withCycle (Cargo.backs_live hdata hwithin) false

theorem Retaining.transition (h : e.Retaining address?) {op : Op ρ} {reply : Reply}
    {ds : List (Delivery ρ)} (ht : Transition e op reply ds e') (hop : op.Addressed address?) :
    e'.Retaining address? := by
  refine ⟨h.sound.transition ht, fun hvalid' => ?_⟩
  cases ht with
  | unplanned => exact h.backed hvalid'
  | refused => exact h.backed hvalid'
  | accepted plan lastTrb ring hplan hroom henqueue => exact h.accept hplan hroom henqueue hop
  | stale => exact h.backed hvalid'
  | advanced event record record' rest position _ hlist _ hadvance =>
    obtain ⟨htd, hcargo⟩ := InFlight.advance_frame_of_eq hadvance
    have hbacked := h.backed hvalid'
    rw [hlist] at hbacked
    exact hbacked.head htd (by rw [hcargo])
  | finished event record record' rest position released outcome ring _ hlist _ _ hrelease =>
    -- The TRBs of the oldest TD are those that go.
    have haligned := h.sound.aligned hvalid'
    obtain rfl := haligned.eq_drop_of_release hlist hrelease
    have hspan := haligned.head_span hlist
    have hbacked := h.backed hvalid'
    rw [hlist] at hbacked
    change Backed address? rest (e.ring.drop record.trbCount).pending
    rw [pending_drop haligned.wellFormed (by omega)]
    exact hbacked.tail
  | givenBack id failure => exact (h.backed hvalid').withdraws (withdraws_giveBack e id failure)
  | expired now => exact (h.backed hvalid').withdraws (withdraws_expire e now)
  | invalidated => cases hvalid'

/-- The memory that an outstanding TRB refers to is in the hands of the endpoint exactly as long
as the endpoint is valid. -/
theorem Retaining.holds_iff (h : e.Retaining address?) {i : Nat}
    (hi : e.ring.isOutstanding i = true) {span : UInt64 × Nat}
    (hspan : (e.ring.trbAt i).dataSpan? = some span) :
    e.Holds address? span ↔ e.valid = true := by
  constructor
  · rintro ⟨r, hr, -⟩
    rw [← Bool.not_eq_false]
    intro hinvalid
    rw [h.sound.inFlight_eq_nil hinvalid] at hr
    cases hr
  · intro hvalid
    have hmem := mem_pending (h.sound.aligned hvalid).wellFormed hi
    obtain ⟨r, hr, hback⟩ := (h.backed hvalid).exists_of_mem hmem
    rw [← Trb.dataSpan?_withCycle _ false] at hspan
    exact ⟨r, hr, hback span hspan⟩

/-! ### What is handed back -/

theorem buffer_of_bury {r : InFlight ρ} {failure : TransferFailure} {d : Delivery ρ}
    (h : (r.bury failure).1 = some d) : d.request.buffer = none := by
  cases hr : r.cargo with
  | live request notify =>
    rw [InFlight.bury_live hr] at h
    cases h
    rfl
  | tombstone retained =>
    rw [InFlight.bury_tombstone hr] at h
    cases h

theorem Withdraws.buffer_eq_none {failure : TransferFailure} {due : InFlight ρ → Prop}
    {rs rs' : List (InFlight ρ)} {ds : List (Delivery ρ)} (h : Withdraws failure due rs ds rs') :
    ∀ d ∈ ds, d.request.buffer = none := by
  induction h with
  | nil => exact List.forall_mem_nil _
  | keep _ _ _ ih => exact ih
  | bury _ _ _ _ _ ih => exact List.forall_mem_cons.2 ⟨rfl, ih⟩

/-- Nothing but the event that ends a TD gives a buffer back. -/
theorem Transition.buffer_eq_none {op : Op ρ} {reply : Reply} {ds : List (Delivery ρ)}
    (ht : Transition e op reply ds e') (hop : ∀ event, op ≠ .event event) :
    ∀ d ∈ ds, d.request.buffer = none := by
  cases ht with
  | unplanned => exact List.forall_mem_nil _
  | refused => exact List.forall_mem_nil _
  | accepted => exact List.forall_mem_nil _
  | stale event => exact absurd rfl (hop event)
  | advanced event => exact absurd rfl (hop event)
  | finished event => exact absurd rfl (hop event)
  | givenBack id failure => exact (withdraws_giveBack e id failure).buffer_eq_none
  | expired now => exact (withdraws_expire e now).buffer_eq_none
  | invalidated =>
    intro d hd
    obtain ⟨hd, -⟩ := List.mem_filter.1 hd
    obtain ⟨r, -, hr⟩ := List.mem_filterMap.1 hd
    exact buffer_of_bury hr

end Endpoint

end UsbHost
