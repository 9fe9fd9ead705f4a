import UsbHost.Proofs.Host.Traffic
import UsbHost.Proofs.Host.Twins

/-!
Twin hosts in lockstep. Every operation of a host but the removal of a device leads twins to twins,
if what goes on around a blocked task does. Devices, endpoints and settings differ in nothing but
the mode, and the mode is looked at only where a finished request is handed on.
-/

namespace UsbHost

variable {σ ρ α β : Type} {depth : Nat}

/-! ### Steps that do not concern the mode -/

namespace Endpoint

/-- A step ends alike in both modes, and the endpoint keeps its owner. -/
inductive Agree (owner : Owner) :
    Except Fault (α × Endpoint ρ) → Except Fault (α × Endpoint ρ) → Prop
  | ok (a : α) {e : Endpoint ρ} (howner : e.owner = owner) :
      Agree owner (.ok (a, e)) (.ok (a, e.immediate))
  | fault (fault : Fault) : Agree owner (.error fault) (.error fault)

/-- The step does not look at the mode. -/
def Impartial (step : Endpoint ρ → Except Fault (α × Endpoint ρ)) : Prop :=
  ∀ e, Agree e.owner (step e) (step e.immediate)

namespace Impartial

theorem giveBack (id : RequestId) (failure : TransferFailure) :
    Impartial fun e : Endpoint ρ => .ok (e.giveBack id failure) :=
  fun e => .ok (e.giveBack id failure).1 (e := (e.giveBack id failure).2) rfl

theorem expire (now : UInt64) : Impartial fun e : Endpoint ρ => .ok (e.expire now) :=
  fun e => .ok (e.expire now).1 (e := (e.expire now).2) rfl

theorem invalidate : Impartial fun e : Endpoint ρ => .ok e.invalidate :=
  fun e => .ok e.invalidate.1 (e := e.invalidate.2) rfl

theorem submit (plan : TdPlan) (request : Request ρ) (notify : Notify)
    (deadline : Option UInt64) : Impartial fun e => e.submit plan request notify deadline := by
  rintro ⟨owner, traits, window, defaultTimeout, next, ring, inFlight, valid, packetSize⟩
  simp only [Endpoint.submit, immediate]
  have hrefusal : (⟨owner.immediate, traits, window, defaultTimeout, next + 1, ring, inFlight,
      valid, packetSize⟩ : Endpoint ρ).refusal? plan = (⟨owner, traits, window, defaultTimeout,
      next + 1, ring, inFlight, valid, packetSize⟩ : Endpoint ρ).refusal? plan := rfl
  rw [hrefusal]
  cases (⟨owner, traits, window, defaultTimeout, next + 1, ring, inFlight, valid, packetSize⟩ :
      Endpoint ρ).refusal? plan with
  | some error => exact .ok _ rfl
  | none =>
    cases enqueueAll ring 0 plan.trbs with
    | error fault => exact .fault fault
    | ok placed => exact .ok _ rfl

theorem transferEvent (event : TransferEvent) :
    Impartial fun e : Endpoint ρ => e.transferEvent event := by
  rintro ⟨owner, traits, window, defaultTimeout, next, ring, inFlight, valid, packetSize⟩
  simp only [Endpoint.transferEvent, immediate, kind]
  split
  · exact .ok _ rfl
  cases inFlight with
  | nil => exact .ok _ rfl
  | cons record rest =>
    dsimp only
    cases record.position? ring event.address with
    | none => exact .ok _ rfl
    | some position =>
      dsimp only
      generalize record.advance traits.kind position event = advanced
      obtain ⟨record', outcome⟩ := advanced
      cases outcome with
      | none => exact .ok _ rfl
      | some outcome =>
        dsimp only
        cases ring.releaseThrough record'.lastTrb with
        | error fault => exact .fault fault
        | ok released =>
          cases hcargo : record'.cargo with
          | live request notify => exact .ok _ rfl
          | tombstone retained => exact .ok _ rfl

theorem setMaxPacketSize (size : UInt16) :
    Impartial fun e : Endpoint ρ => e.setMaxPacketSize size := by
  intro e
  have hid : e.immediate.id = e.id := rfl
  have hspeed : e.immediate.owner.speed = e.owner.speed := rfl
  simp only [Endpoint.setMaxPacketSize, hid, hspeed]
  split_ifs
  · exact .fault _
  all_goals exact .ok _ rfl

end Impartial

end Endpoint

namespace BusM

/-- The bus of a platform with other notes. -/
def noted (b : Bus (Noting σ ρ)) (notes : List (Note ρ)) : Bus (Noting σ ρ) :=
  { b with platform.notes := notes }

/-- Two runs beneath the host that differ in the notes taken end alike, and take none. -/
inductive Agree (notes : List (Note ρ)) (taken : List (Note ρ)) :
    EStateM.Result Fault (Bus (Noting σ ρ)) α → EStateM.Result Fault (Bus (Noting σ ρ)) α → Prop
  | ok (a : α) {b : Bus (Noting σ ρ)} (htaken : b.platform.notes = taken) :
      Agree notes taken (.ok a b) (.ok a (noted b notes))
  | error (fault : Fault) {b : Bus (Noting σ ρ)} (htaken : b.platform.notes = taken) :
      Agree notes taken (.error fault b) (.error fault (noted b notes))

/-- The operation neither looks at notes nor takes any. -/
def Noteless (op : BusM (Noting σ ρ) α) : Prop :=
  ∀ b notes, Agree notes b.platform.notes (op b) (op (noted b notes))

namespace Noteless

theorem pure (a : α) : Noteless (pure a : BusM (Noting σ ρ) α) := fun _ _ => .ok a rfl

theorem throw (fault : Fault) : Noteless (throw fault : BusM (Noting σ ρ) α) :=
  fun _ _ => .error fault rfl

theorem bind {op : BusM (Noting σ ρ) α} {f : α → BusM (Noting σ ρ) β} (hop : Noteless op)
    (hf : ∀ a, Noteless (f a)) : Noteless (op >>= f) := by
  intro b notes
  have hagree := hop b notes
  change Agree notes _ (EStateM.bind op f b) (EStateM.bind op f (noted b notes))
  unfold EStateM.bind
  generalize op b = x, op (noted b notes) = y at hagree
  cases hagree with
  | ok a htaken => exact htaken ▸ hf a _ notes
  | error fault htaken => exact .error fault htaken

theorem attempt_bind {op : BusAttempt (Noting σ ρ) α} {f : α → BusAttempt (Noting σ ρ) β}
    (hop : Noteless op.run) (hf : ∀ a, Noteless (f a).run) : Noteless (op >>= f).run := by
  rw [ExceptT.run_bind]
  refine hop.bind fun result => ?_
  cases result with
  | ok a => exact hf a
  | error error => exact .pure _

theorem ofAttempt (attempt : Attempt α) :
    Noteless (BusAttempt.ofAttempt attempt : BusAttempt (Noting σ ρ) α).run := by
  unfold BusAttempt.ofAttempt
  cases attempt.run with
  | error fault => exact .throw fault
  | ok result => exact .pure result

theorem allocate : Noteless (BusM.allocate : BusM (Noting σ ρ) Dma.BufferId) :=
  fun _ _ => .ok _ rfl

theorem translate (p : Platform σ) (id : Dma.BufferId) :
    Noteless (BusM.translate p.noting id : BusM (Noting σ ρ) UInt64) :=
  fun _ _ => .ok _ rfl

theorem onPlatform (f : σ → σ) :
    Noteless (BusM.onPlatform fun s : Noting σ ρ => { s with base := f s.base }) :=
  fun _ _ => .ok _ rfl

theorem structureBuffer (size : Nat) :
    Noteless (BusAttempt.structureBuffer size : BusAttempt (Noting σ ρ) Dma.BufferId).run :=
  .attempt_bind (.ofAttempt _) fun _ => .bind .allocate fun _ => .pure _

theorem producerRing (p : Platform σ) (kind : Ring.Kind) (count : Nat) :
    Noteless (BusAttempt.producerRing p.noting kind count :
      BusAttempt (Noting σ ρ) ProducerRing).run := by
  refine .attempt_bind (.attempt_bind (.ofAttempt _) fun _ => ?_) fun _ => .pure _
  exact .attempt_bind (.bind .allocate fun id => .pure _) fun id =>
    .bind (.translate p id) fun _ => .pure _

end Noteless

end BusM

namespace HostM

/-! ### What is looked at -/

end HostM

end UsbHost
