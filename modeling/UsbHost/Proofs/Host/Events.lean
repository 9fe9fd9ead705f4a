import UsbHost.Host.Interrupt
import UsbHost.Proofs.Host.Rounds
import UsbHost.Proofs.Ring.Posting

/-!
Events on their way from the controller to those whom they are for. The controller may post events
at any time, also while one is being handed on, as long as there is room in the ring. Whoever an
event is for, it is handed on without a look at the ring; hence what surroundings do to the ring
meanwhile is all that happens to it.
-/

namespace UsbHost

variable {σ ρ α : Type}

/-- The cycle bit of an event belongs to the ring and says nothing of the event. -/
@[simp] theorem Event.ofTrb_withCycle (t : Trb) (on : Bool) : ofTrb (t.withCycle on) = ofTrb t := by
  have hslot : (t.withCycle on).slot = t.slot := by
    rw [Trb.slot, t.shiftRight_withCycle on (.inr rfl), Trb.slot]
  have hendpoint : (t.withCycle on).endpoint = t.endpoint := by
    rw [Trb.endpoint, t.shiftRight_withCycle on (.inl rfl), Trb.endpoint]
  have htransfer : TransferEvent.ofTrb (t.withCycle on) = TransferEvent.ofTrb t := by
    rw [TransferEvent.ofTrb, hslot, hendpoint]
    rfl
  rw [ofTrb, ofTrb, Trb.kind?_withCycle, htransfer, hslot]
  rfl

/-! ### The writing side -/

/-- What a platform knows of its controller's events. -/
structure EventJournal (σ : Type) where
  /-- Where the controller writes next. -/
  source : σ → EventSource
  /-- The events posted so far, oldest first. -/
  posted : σ → List Trb
  /-- The dequeue pointers that the controller has been told, oldest first. -/
  pointers : σ → List UInt64

/-- A dequeue pointer that is written goes into the journal, and nothing else does. -/
structure EventJournal.Notes (j : EventJournal σ) (platform : Platform σ) : Prop where
  source_eq : ∀ address s, j.source (platform.writeEventDequeue address s) = j.source s
  posted_eq : ∀ address s, j.posted (platform.writeEventDequeue address s) = j.posted s
  pointers_eq : ∀ address s,
    j.pointers (platform.writeEventDequeue address s) = j.pointers s ++ [address]

namespace World

variable (j : EventJournal σ)

/-- The events posted so far. -/
def posted (w : World σ ρ) : List Trb := j.posted w.bus.platform

/-- The dequeue pointers written so far. -/
def pointers (w : World σ ρ) : List UInt64 := j.pointers w.bus.platform

/-- The event ring of `count` TRBs at `base`, after `taken` events have been taken off. -/
structure Serves (base : UInt64) (count taken : Nat) (w : World σ ρ) : Prop where
  base_eq : w.controller.events.ring.base = base
  size_eq : w.controller.events.ring.trbs.size = count
  fits : Ring.Fits base count
  follows : w.controller.events.ring.Follows (j.source w.bus.platform) (w.posted j) taken

/-- While `taken` events have been taken off, the controller posts events, and nothing else happens
to the event ring. -/
inductive Feeds (taken : Nat) : World σ ρ → World σ ρ → Prop
  | elsewhere {w w' : World σ ρ} (hevents : w'.controller.events = w.controller.events)
      (hsource : j.source w'.bus.platform = j.source w.bus.platform)
      (hposted : w'.posted j = w.posted j) (hpointers : w'.pointers j = w.pointers j) :
      Feeds taken w w'
  | post {w w' : World σ ρ} (t : Trb)
      (hroom : (w.posted j).length < taken + w.controller.events.ring.trbs.size)
      (hevents : w'.controller.events = { w.controller.events with
        ring := ((j.source w.bus.platform).post w.controller.events.ring t).2 })
      (hsource : j.source w'.bus.platform =
        ((j.source w.bus.platform).post w.controller.events.ring t).1)
      (hposted : w'.posted j = w.posted j ++ [t]) (hpointers : w'.pointers j = w.pointers j) :
      Feeds taken w w'
  | trans {w w₁ w₂ : World σ ρ} (h : Feeds taken w w₁) (h' : Feeds taken w₁ w₂) :
      Feeds taken w w₂

variable {j} {w w' : World σ ρ} {base : UInt64} {count taken : Nat}

theorem Feeds.refl (w : World σ ρ) : w.Feeds j taken w := .elsewhere rfl rfl rfl rfl

/-- Posting keeps the ring in order. -/
theorem Feeds.serves (h : w.Feeds j taken w') (hw : w.Serves j base count taken) :
    w'.Serves j base count taken := by
  induction h with
  | elsewhere hevents hsource hposted _ =>
    refine ⟨?_, ?_, hw.fits, ?_⟩
    · rw [hevents, hw.base_eq]
    · rw [hevents, hw.size_eq]
    · rw [hevents, hsource, hposted]
      exact hw.follows
  | post t hroom hevents hsource hposted _ =>
    have hfollows := hw.follows.post hroom t
    refine ⟨?_, ?_, hw.fits, ?_⟩
    · rw [hevents, EventRing.snd_post]
      exact hw.base_eq
    · simpa [hevents] using hw.size_eq
    · rw [hevents, hsource, hposted]
      exact hfollows
  | trans _ _ ih ih' => exact ih' (ih hw)

/-- Events that have been posted stay posted, and no dequeue pointer is written. -/
theorem Feeds.frame (h : w.Feeds j taken w') : w.posted j <+: w'.posted j ∧
    w'.pointers j = w.pointers j := by
  induction h with
  | elsewhere _ _ hposted hpointers =>
    exact ⟨by simp only [hposted, List.prefix_rfl], hpointers⟩
  | post t _ _ _ hposted hpointers =>
    exact ⟨by rw [hposted]; exact List.prefix_append _ _, hpointers⟩
  | trans _ _ ih ih' => exact ⟨ih.1.trans ih'.1, ih'.2.trans ih.2⟩

/-- Events are there to be handled exactly if fewer have been taken than posted. -/
theorem Serves.hasPending_iff (h : w.Serves j base count taken) :
    w.controller.events.hasPending = true ↔ taken < (w.posted j).length := by
  rw [EventQueue.hasPending, h.follows.peek?_eq, Option.isSome_map, isSome_getElem?]

end World

/-- As long as `taken` events have been taken off, computations may only post. -/
def Conduct.feeding (j : EventJournal σ) (base : UInt64) (count taken : Nat) : Conduct σ ρ where
  Leads w w' := w.Serves j base count taken → w.Feeds j taken w'
  refl w _ := .refl w
  trans h h' hw := (h hw).trans (h' ((h hw).serves hw))

/-- Surroundings in which events are posted, but none is handled. -/
structure Env.Feeds (j : EventJournal σ) (base : UInt64) (count : Nat) (env : Env σ ρ) :
    Prop where
  notes : j.Notes env.toPlatform
  complete : ∀ taken routine request,
    (env.complete routine request).Obeys (.feeding j base count taken)
  portChanged : ∀ taken port, (env.portChanged port).Obeys (.feeding j base count taken)

namespace Host

variable {env : Env σ ρ} {j : EventJournal σ} {base : UInt64} {count taken : Nat}

/-! ### Handing one event on -/

theorem feeds_commandCompleted (taken : Nat) (address : UInt64) (code : CompletionCode)
    (slot : UInt8) :
    (commandCompleted address code slot : HostM σ ρ Unit).Obeys (.feeding j base count taken) :=
  HostM.Obeys.controller.bind fun _ => (HostM.Obeys.ofExcept _).bind fun _ =>
    .modify fun _ _ => .elsewhere rfl rfl rfl rfl

section Dispatch

variable (henv : env.Feeds j base count)
include henv

theorem feeds_handOn (taken : Nat) (owner : Owner) (ds : List (Delivery ρ)) :
    (handOn env owner ds).Obeys (.feeding j base count taken) :=
  .handOn (henv.complete taken) (fun _ _ _ => .elsewhere rfl rfl rfl rfl) owner fun _ _ _ _ =>
    .modify fun _ _ => .elsewhere rfl rfl rfl rfl

theorem feeds_transferEvent (taken : Nat) (r : EndpointRef) (event : TransferEvent) :
    (transferEvent env r event).Obeys (.feeding j base count taken) := by
  refine .transferEvent fun w e e' _ ds _ _ => ?_
  have hput : (Conduct.feeding j base count taken).Leads w (w.put r e') :=
    fun _ => .elsewhere rfl rfl rfl rfl
  exact (feeds_handOn henv taken e.owner ds).continued hput

/-- Whoever an event is for, it is handed on without a look at the event ring. -/
theorem feeds_dispatch (taken : Nat) (listening : Bool) (event : Event) :
    (dispatch env listening event).Obeys (.feeding j base count taken) :=
  .dispatch (.slotEvent (feeds_transferEvent henv taken)) (feeds_commandCompleted taken)
    (henv.portChanged taken) listening event

end Dispatch

end Host

end UsbHost
