import UsbHost.Proofs.Endpoint.Chunks

/-!
Planning does not fault. A request whose data lies within the address space has a transfer
descriptor, or a reason why it has none.
-/

namespace UsbHost.TdPlan

variable {ρ : Type} {r : Request ρ} {data : UInt64}

theorem control_total (r : Request ρ) (data : UInt64) :
    ∃ planned, (control r data).run = .ok planned := by
  unfold control
  simp only
  split
  · split
    · exact ⟨_, rfl⟩
    · split
      · exact ⟨_, rfl⟩
      · split <;> exact ⟨_, rfl⟩
  · exact ⟨_, rfl⟩

theorem packetTrbs_total {offset : Nat} {sizes : List UInt16}
    (hfits : data.toNat + (offset + (sizes.foldr (fun size total => size.toNat + total) 0)) <
      UInt64.size) : ∃ trbs, packetTrbs data offset sizes = .ok trbs := by
  induction sizes generalizing offset with
  | nil => exact ⟨[], rfl⟩
  | cons size sizes ih =>
    rw [List.foldr_cons] at hfits
    have hrest : data.toNat + (offset + size.toNat +
        sizes.foldr (fun size total => size.toNat + total) 0) < UInt64.size := by omega
    obtain ⟨trbs, htrbs⟩ := ih hrest
    have hoffset : Dma.busOffset data offset = .ok (data + UInt64.ofNat offset) := by
      rw [Dma.busOffset, if_pos (by omega)]
    refine ⟨_, Fault.bind_eq_ok.2 ⟨_, hoffset, Fault.bind_eq_ok.2 ⟨trbs, htrbs, rfl⟩⟩⟩

theorem isochronous_total (hfits : data.toNat + r.bufferLength < UInt64.size) :
    ∃ planned, (isochronous r data).run = .ok planned := by
  unfold isochronous
  simp only
  split
  · exact ⟨_, rfl⟩
  · split
    · exact ⟨_, rfl⟩
    · have hpackets : data.toNat + (0 +
          r.packets.foldr (fun size total => size.toNat + total) 0) < UInt64.size := by omega
      obtain ⟨trbs, htrbs⟩ := packetTrbs_total hpackets
      exact ⟨_, Attempt.run_bind_eq_ok.2 ⟨trbs, Attempt.run_liftM_eq_ok.2 htrbs, rfl⟩⟩

theorem ofRequest_total (kind : TransferKind)
    (hfits : data.toNat + r.bufferLength < UInt64.size) :
    ∃ planned, (ofRequest kind r data).run = .ok planned := by
  have hbulk : ∃ planned, (bulk r data).run = .ok planned := by
    by_cases hzero : r.bufferLength = 0
    · refine ⟨.error (.invalidArgument "urb" "transfer without data buffer"), ?_⟩
      unfold bulk
      simp only [hzero, if_true]
      rfl
    · obtain ⟨plan, hplan⟩ := bulk_total (Nat.pos_iff_ne_zero.2 hzero) (Nat.le_of_lt hfits)
      exact ⟨_, hplan⟩
  cases kind with
  | control => exact control_total r data
  | bulk => exact hbulk
  | interrupt => exact hbulk
  | isochronous => exact isochronous_total hfits

end UsbHost.TdPlan
