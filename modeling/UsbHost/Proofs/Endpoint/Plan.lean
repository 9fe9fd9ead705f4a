import UsbHost.Endpoint.Plan
import UsbHost.Proofs.Attempt

/-!
The shape of transfer descriptors. Every request that is not refused takes at least one TRB. A
control request takes one TRB per stage, so that the number of TRBs tells whether there is a data
stage, and the position of a TRB tells the stage.
-/

namespace UsbHost.TdPlan

variable {ρ : Type} {r : Request ρ} {data : UInt64} {plan : TdPlan}

theorem refuse_bind_ne_ok {α β : Type} {reason : String} {f : α → Attempt β} {b : β} :
    (refuse reason >>= f).run ≠ .ok (.ok b) := by
  intro h
  obtain ⟨_, hrefused, -⟩ := Attempt.run_bind_eq_ok.1 h
  cases hrefused

/-! ### Plans read off a successful run -/

theorem control_ok (h : (control r data).run = .ok (.ok plan)) :
    ∃ setup, r.bufferLength ≤ Trb.maxTransfer ∧
      (r.bufferLength = 0 ∧ plan = ⟨[.setupStage setup Trb.noDataStage .interruptOnCompletion,
          .statusStage true .interruptOnCompletion], false, 0⟩ ∨
        r.bufferLength ≠ 0 ∧ plan = ⟨[.setupStage setup
            (if setup.isIn then Trb.inDataStage else Trb.outDataStage) .interruptOnCompletion,
          .dataStage data (UInt32.ofNat r.bufferLength) setup.isIn .interruptOnCompletion,
          .statusStage (!setup.isIn) .interruptOnCompletion], true, r.bufferLength⟩) := by
  unfold control at h
  simp only at h
  split at h
  · rename_i setup _
    split at h
    · exact absurd h refuse_bind_ne_ok
    · rename_i hmax
      refine ⟨setup, Nat.le_of_not_lt hmax, ?_⟩
      split at h
      · exact absurd h refuse_bind_ne_ok
      · split at h
        · rename_i hzero
          cases h
          exact .inl ⟨hzero, rfl⟩
        · rename_i hpos
          cases h
          exact .inr ⟨hpos, rfl⟩
  · cases h

theorem bulk_ok (h : (bulk r data).run = .ok (.ok plan)) :
    ∃ trbs, (List.range (chunkCount r.bufferLength)).mapM (chunk data r.bufferLength) = .ok trbs ∧
      r.bufferLength ≠ 0 ∧ plan = ⟨trbs, true, r.bufferLength⟩ := by
  unfold bulk at h
  simp only at h
  split at h
  · exact absurd h refuse_bind_ne_ok
  · rename_i hlength
    obtain ⟨trbs, htrbs, h⟩ := Attempt.run_bind_eq_ok.1 h
    cases h
    exact ⟨trbs, Attempt.run_liftM_eq_ok.1 htrbs, hlength, rfl⟩

theorem isochronous_ok (h : (isochronous r data).run = .ok (.ok plan)) :
    ∃ trbs, packetTrbs data 0 r.packets = .ok trbs ∧ r.packets ≠ [] ∧
      r.packets.foldr (fun packet total => packet.toNat + total) 0 ≤ r.bufferLength ∧
      plan = ⟨trbs, true, r.packets.foldr (fun packet total => packet.toNat + total) 0⟩ := by
  unfold isochronous at h
  simp only at h
  split at h
  · exact absurd h refuse_bind_ne_ok
  · rename_i hpackets
    split at h
    · exact absurd h refuse_bind_ne_ok
    · rename_i hlength
      obtain ⟨trbs, htrbs, h⟩ := Attempt.run_bind_eq_ok.1 h
      cases h
      exact ⟨trbs, Attempt.run_liftM_eq_ok.1 htrbs, by simpa using hpackets,
        Nat.le_of_not_lt hlength, rfl⟩

/-! ### The number of TRBs -/

theorem length_control (h : (control r data).run = .ok (.ok plan)) :
    plan.trbs.length = if plan.hasData then 3 else 2 := by
  obtain ⟨setup, -, ⟨-, rfl⟩ | ⟨-, rfl⟩⟩ := control_ok h <;> rfl

theorem one_le_chunkCount {length : Nat} (h : length ≠ 0) : 1 ≤ chunkCount length := by
  rw [chunkCount, Nat.le_div_iff_mul_le (by decide)]
  omega

theorem bulk_ne_nil (h : (bulk r data).run = .ok (.ok plan)) : plan.trbs ≠ [] := by
  obtain ⟨trbs, htrbs, hlength, rfl⟩ := bulk_ok h
  have hcount := Fault.length_mapM htrbs
  have := one_le_chunkCount hlength
  rw [List.length_range] at hcount
  rintro rfl
  rw [List.length_nil] at hcount
  omega

theorem packetTrbs_ne_nil {offset : Nat} {size : UInt16} {rest : List UInt16} {trbs : List Trb}
    (h : packetTrbs data offset (size :: rest) = .ok trbs) : trbs ≠ [] := by
  obtain ⟨_, -, h⟩ := Fault.bind_eq_ok.1 h
  obtain ⟨_, -, h⟩ := Fault.bind_eq_ok.1 h
  cases h
  exact List.cons_ne_nil _ _

theorem isochronous_ne_nil (h : (isochronous r data).run = .ok (.ok plan)) : plan.trbs ≠ [] := by
  obtain ⟨trbs, htrbs, hpackets, -, rfl⟩ := isochronous_ok h
  obtain ⟨size, rest, hlist⟩ := List.exists_cons_of_ne_nil hpackets
  rw [hlist] at htrbs
  exact packetTrbs_ne_nil htrbs

/-- A request that can be expressed takes a TRB at least. -/
theorem trbs_ne_nil {kind : TransferKind} (h : (ofRequest kind r data).run = .ok (.ok plan)) :
    plan.trbs ≠ [] := by
  cases kind with
  | control =>
    have hlength := length_control h
    rintro hnil
    rw [hnil] at hlength
    split at hlength <;> cases hlength
  | bulk => exact bulk_ne_nil h
  | interrupt => exact bulk_ne_nil h
  | isochronous => exact isochronous_ne_nil h

end UsbHost.TdPlan
