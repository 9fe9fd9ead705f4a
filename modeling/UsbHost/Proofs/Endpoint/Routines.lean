import UsbHost.Proofs.Endpoint.Steps

/-!
Completion routines on their way through an endpoint. A routine comes in with a request that is
submitted, waits in flight, and goes out with the delivery. No step makes one up.
-/

namespace UsbHost

variable {ρ : Type}

/-- The routine that runs when the request is finished, if nobody waits for it. -/
def Delivery.routine? (d : Delivery ρ) : Option ρ :=
  match d.notify with
  | .routine => d.request.routine
  | .waiter _ => none

def InFlight.routine? (r : InFlight ρ) : Option ρ :=
  match r.cargo with
  | .live request .routine => request.routine
  | _ => none

theorem InFlight.routine?_live {r : InFlight ρ} {request : Request ρ} {notify : Notify}
    (h : r.cargo = .live request notify) :
    r.routine? = (Delivery.mk notify request).routine? := by
  rw [routine?, h]
  cases notify <;> rfl

theorem InFlight.routine?_tombstone {r : InFlight ρ} {retained : Option Dma.Buffer}
    (h : r.cargo = .tombstone retained) : r.routine? = none := by
  rw [routine?, h]

theorem InFlight.routine?_congr {r r' : InFlight ρ} (h : r'.cargo = r.cargo) :
    r'.routine? = r.routine? := by
  rw [routine?, routine?, h]

namespace Endpoint

variable {e e' : Endpoint ρ} {op : Op ρ} {reply : Reply} {ds : List (Delivery ρ)}

/-- The routines of the requests in flight. -/
def routines (e : Endpoint ρ) : List ρ := e.inFlight.filterMap InFlight.routine?

/-- The routine that a submitted request brings along. -/
def Op.routines : Op ρ → List ρ
  | .submit request _ .routine _ => request.routine.toList
  | _ => []

theorem Withdraws.routines {failure : TransferFailure} {due : InFlight ρ → Prop}
    {rs rs' : List (InFlight ρ)} (h : Withdraws failure due rs ds rs') :
    rs'.filterMap InFlight.routine? ⊆ rs.filterMap InFlight.routine? ∧
      ds.filterMap Delivery.routine? ⊆ rs.filterMap InFlight.routine? := by
  induction h with
  | nil => exact ⟨List.Subset.refl _, List.Subset.refl _⟩
  | @keep r _ _ _ _ _ hcargo _ ih =>
    rw [List.filterMap_cons, List.filterMap_cons, InFlight.routine?_congr hcargo]
    cases r.routine? with
    | none => exact ih
    | some x =>
      exact ⟨List.cons_subset_cons x ih.1, fun y hy => List.mem_cons_of_mem x (ih.2 hy)⟩
  | @bury _ _ _ _ _ request notify _ hlive _ hcargo _ ih =>
    have hsame : (Delivery.mk notify (request.takeBuffer.2.finish (.failed failure) 0)).routine? =
        (Delivery.mk notify request).routine? := by
      cases notify <;> rfl
    rw [List.filterMap_cons, List.filterMap_cons, List.filterMap_cons,
      InFlight.routine?_tombstone hcargo, InFlight.routine?_live hlive, hsame]
    cases (Delivery.mk notify request).routine? with
    | none => exact ih
    | some x =>
      exact ⟨fun y hy => List.mem_cons_of_mem x (ih.1 hy), List.cons_subset_cons x ih.2⟩

theorem routines_deliveries (record : InFlight ρ) (outcome : Outcome) :
    (deliveries record outcome).filterMap Delivery.routine? ⊆ record.routine?.toList := by
  cases hcargo : record.cargo with
  | tombstone retained =>
    simp [hcargo]
  | live request notify =>
    rw [deliveries_live hcargo, InFlight.routine?_live hcargo]
    cases notify with
    | waiter id => exact List.nil_subset _
    | routine =>
      cases hroutine : request.routine with
      | none => simp [Delivery.routine?, Request.finish, hroutine]
      | some x => simp [Delivery.routine?, Request.finish, hroutine]

/-- Routines in flight have been there before or come with the step, and those that go out have been
in flight. -/
theorem Transition.routines (ht : Transition e op reply ds e') :
    e'.routines ⊆ e.routines ++ op.routines ∧ ds.filterMap Delivery.routine? ⊆ e.routines := by
  have hkeep : e.routines ⊆ e.routines ++ op.routines := List.subset_append_left _ _
  have hnone : ([] : List (Delivery ρ)).filterMap Delivery.routine? ⊆ e.routines :=
    List.nil_subset _
  cases ht with
  | unplanned => exact ⟨hkeep, hnone⟩
  | refused => exact ⟨hkeep, hnone⟩
  | @accepted request data notify deadline plan lastTrb ring _ _ _ =>
    refine ⟨?_, hnone⟩
    rw [Endpoint.routines, List.filterMap_append]
    refine List.append_subset.2 ⟨hkeep, List.subset_append_of_subset_right _ ?_⟩
    cases notify with
    | waiter id => exact List.nil_subset _
    | routine =>
      cases hroutine : request.routine with
      | none => simp [record, InFlight.routine?, hroutine]
      | some x => simp [record, InFlight.routine?, Op.routines, hroutine]
  | stale => exact ⟨hkeep, hnone⟩
  | advanced event record record' rest position _ hlist _ hadvance =>
    refine ⟨List.subset_append_of_subset_left _ ?_, hnone⟩
    rw [Endpoint.routines, Endpoint.routines, hlist, List.filterMap_cons, List.filterMap_cons,
      InFlight.routine?_congr (InFlight.advance_frame_of_eq hadvance).2]
    exact List.Subset.refl _
  | finished event record record' rest position released outcome ring _ hlist _ hadvance =>
    have hall : e.routines = record.routine?.toList ++ rest.filterMap InFlight.routine? := by
      rw [Endpoint.routines, hlist, List.filterMap_cons]
      cases record.routine? <;> rfl
    rw [hall]
    exact ⟨List.subset_append_of_subset_left _ (List.subset_append_right _ _),
      List.subset_append_of_subset_left _ (routines_deliveries record outcome)⟩
  | givenBack id failure =>
    obtain ⟨hrecords, hds⟩ := (withdraws_giveBack e id failure).routines
    exact ⟨List.Subset.trans hrecords hkeep, hds⟩
  | expired now =>
    obtain ⟨hrecords, hds⟩ := (withdraws_expire e now).routines
    exact ⟨List.Subset.trans hrecords hkeep, hds⟩
  | invalidated =>
    refine ⟨List.nil_subset _, fun x hx => ?_⟩
    obtain ⟨d, hd, hdx⟩ := List.mem_filterMap.1 hx
    have hwaits : d.notify ≠ .routine := by simpa using (List.mem_filter.1 hd).2
    cases hnotify : d.notify with
    | routine => exact absurd hnotify hwaits
    | waiter id =>
      rw [Delivery.routine?, hnotify] at hdx
      cases hdx

end Endpoint

end UsbHost
