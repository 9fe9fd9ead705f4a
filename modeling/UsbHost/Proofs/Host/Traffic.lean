import UsbHost.Proofs.Host.Moves
import UsbHost.Proofs.Host.Rounds

/-!
Waiting and transfers, in moves. While a task waits, only its surroundings act; and of the objects
of the host a transfer changes nothing but its endpoint, by one step at a time.
-/

namespace UsbHost

variable {σ ρ α : Type} {m : AddressMap σ} {managing : Bool}

/-- Surroundings that do only moves. -/
structure Env.OnlyMoves (m : AddressMap σ) (managing : Bool) (env : Env σ ρ) : Prop
    extends env.Obeys (.moves m managing) where
  platform : env.toPlatform.Respects m

/-! ### What leaves the objects of the host alone -/

theorem World.Aside.refl (w : World σ ρ) : w.Aside m w :=
  ⟨rfl, rfl, rfl, rfl, rfl, Nat.le_refl _, .refl m _⟩

namespace Host

variable {env : Env σ ρ}

theorem moves_onPlatform {f : σ → σ} (hf : ∀ s, m.Extends s (f s)) :
    (HostM.onPlatform f : HostM σ ρ Unit).Obeys (.moves m managing) :=
  fun _ => .aside ⟨rfl, rfl, rfl, rfl, rfl, Nat.le_refl _, hf _⟩

/-! ### Handing requests on -/

theorem moves_handOn (henv : env.OnlyMoves m managing) (owner : Owner)
    (ds : List (Delivery ρ)) : (handOn env owner ds).Obeys (.moves m managing) :=
  HostM.Obeys.handOn (c := .moves m managing) henv.complete
    (fun _ _ => .aside ⟨rfl, rfl, rfl, rfl, rfl, Nat.le_refl _, .refl m _⟩) owner
    fun _ _ _ _ _ => .aside ⟨rfl, rfl, rfl, rfl, rfl, Nat.le_refl _, .refl m _⟩

/-! ### Steps of endpoints -/

theorem device_eq {w : World σ ρ} {d : DeviceRef} {device : Device}
    (hw : w.devices[d.index]? = some device) :
    (HostM.device d : HostM σ ρ Device) w = .ok device w := by
  have hget : (get : HostM σ ρ _) w = .ok w w := rfl
  rw [HostM.device, HostM.bind_of_ok hget]
  simp only [hw]
  rfl

theorem device_none {w : World σ ρ} {d : DeviceRef} (hw : w.devices[d.index]? = none) :
    (HostM.device d : HostM σ ρ Device) w = .error .outOfBounds w := by
  have hget : (get : HostM σ ρ _) w = .ok w w := rfl
  rw [HostM.device, HostM.bind_of_ok hget]
  simp only [hw]
  rfl

theorem moves_admitsStep (henv : env.OnlyMoves m managing) (r : EndpointRef)
    {op : Endpoint.Op ρ} (haddressed : ∀ address?, op.Addressed address?)
    (hop : managing = true ∨ op ≠ .invalidate) :
    (Conduct.moves m managing).AdmitsStep env r op :=
  fun _ e _ _ ds hw hstep =>
    (Moves.step hw hstep (haddressed _) hop).before (moves_handOn henv e.owner ds _)

theorem moves_transferEvent (henv : env.OnlyMoves m managing) (r : EndpointRef)
    (event : TransferEvent) : (transferEvent env r event).Obeys (.moves m managing) :=
  HostM.Obeys.transferEvent (moves_admitsStep henv r (fun _ => trivial) (.inr nofun))

theorem moves_cancel (henv : env.OnlyMoves m managing) (r : EndpointRef) (id : RequestId) :
    (cancel env r id).Obeys (.moves m managing) :=
  HostM.Obeys.cancel (moves_admitsStep henv r (fun _ => trivial) (.inr nofun))

theorem moves_pollEndpoint (henv : env.OnlyMoves m managing) (now : UInt64)
    (r : EndpointRef) : (pollEndpoint env now r).Obeys (.moves m managing) :=
  HostM.Obeys.pollEndpoint (moves_admitsStep henv r (fun _ => trivial) (.inr nofun))

theorem moves_invalidate (henv : env.OnlyMoves m managing) (hmanaging : managing = true)
    (r : EndpointRef) : (invalidate env r).Obeys (.moves m managing) :=
  HostM.Obeys.invalidate (moves_admitsStep henv r (fun _ => trivial) (.inl hmanaging))

/-! ### Submission -/

/-- The data of a request is looked up where the platform has put it, and nothing else changes. -/
theorem located_known (henv : env.toPlatform.Respects m) (w : World σ ρ) (request : Request ρ) :
    w.Aside m (located env request w).2 ∧
      ∀ b ∈ request.buffer,
        (located env request w).2.address? m b.id = some (located env request w).1 := by
  unfold located
  cases request.buffer with
  | none => exact ⟨.refl w, nofun⟩
  | some buffer =>
    have hextends := henv.busAddress buffer.id w.bus.platform
    refine ⟨⟨rfl, rfl, rfl, rfl, rfl, Nat.le_refl _, hextends⟩, ?_⟩
    rintro b ⟨⟩
    exact henv.busAddress_eq buffer.id w.bus.platform

theorem moves_submit (henv : env.OnlyMoves m managing) (r : EndpointRef) (request : Request ρ)
    (notify : Notify) (deadline : Option UInt64) :
    (submit env r request notify deadline).Obeys (.moves m managing) := by
  intro w
  obtain ⟨haside, haddress⟩ := located_known henv.platform w request
  exact submit_ends (c := .moves m managing)
    (fun slot target => moves_onPlatform (henv.platform.doorbell slot target)) (.aside haside)
    fun e e' result hw₁ hstep => .step hw₁ hstep haddress (.inr nofun)

theorem moves_entrust (henv : env.OnlyMoves m managing) (r : EndpointRef)
    (request : Request ρ) (notify : Notify) (deadline : Option UInt64) :
    (entrust env r request notify deadline).Obeys (.moves m managing) :=
  fun w => entrust_ends (c := .moves m managing) (moves_submit henv r request notify deadline w)

theorem moves_transferAsync (henv : env.OnlyMoves m managing) (r : EndpointRef)
    (request : Request ρ) (timeout : UInt64) :
    (transferAsync env r request timeout).Obeys (.moves m managing) :=
  HostM.Obeys.transferAsync (c := .moves m managing) (moves_entrust henv r request .routine)

/-! ### Synchronous transfers -/

theorem moves_awaitRequest (henv : env.OnlyMoves m managing) (r : EndpointRef)
    (id : RequestId) (waiter : WaiterId) (timeout : UInt64) :
    (awaitRequest env r id waiter timeout).Obeys (.moves m managing) :=
  HostM.Obeys.awaitRequest (c := .moves m managing)
    (fun _ _ => .aside ⟨rfl, rfl, rfl, rfl, rfl, Nat.le_refl _, .refl m _⟩) henv.yieldNow
    (fun _ _ _ _ _ hw hstep => .step hw hstep trivial (.inr nofun)) timeout

theorem moves_transfer (henv : env.OnlyMoves m managing) (r : EndpointRef)
    (request : Request ρ) (timeout : UInt64) :
    (transfer env r request timeout).Obeys (.moves m managing) := by
  intro w
  have hseat : Moves m managing w { w with waiters := w.waiters.push {} } :=
    .aside ⟨rfl, rfl, rfl, rfl, rfl, Nat.le_refl _, .refl m _⟩
  exact transfer_ends (c := .moves m managing)
    (hseat.before (moves_entrust henv r _ _ none _))
    fun id timeout => moves_awaitRequest henv r id _ timeout

end Host

end UsbHost
