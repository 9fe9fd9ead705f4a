import UsbHost.Proofs.Host.Reachable

/-!
A host on the bench. Its controller is a board that reports each kind of command as it has been
told to, whenever a task waits for one. A kind that it has not been told about is never reported;
ten seconds pass instead, which is longer than any command is waited for. Buffers lie 64 KiB apart.
-/

namespace UsbHost

theorem Host.Creates.of_success {σ ρ : Type} {env : Env σ ρ} {config : Config} {s : σ}
    {start : World σ ρ}
    (hsuccess : (HostAttempt.success? (create env config) { platform := s }).isSome = true)
    (hstart : ∀ w bus, (create env config).run { platform := s } = .ok (.ok w) bus →
      start = { w with bus := bus }) : Creates env config s start := by
  obtain ⟨w, bus, h⟩ := HostAttempt.exists_of_success? hsuccess
  exact ⟨w, bus, h, hstart w bus h⟩

structure Board where
  clock : UInt64 := 0
  answer : Trb.Kind → Option CommandReport := fun _ => none
  deriving Inhabited

namespace Board

/-- The bus address of a buffer. -/
def place (id : Dma.BufferId) : UInt64 := 0x10000 * UInt64.ofNat (id.index % 0x1000 + 1)

def addresses : AddressMap Board := ⟨fun _ id => some (place id)⟩

def platform : Platform Board where
  now b := b.clock
  busAddress id b := (place id, b)
  doorbell _ _ b := b
  setCommandRing _ _ b := b
  setEventRing _ _ _ b := b
  writeEventDequeue _ b := b
  setContextArray _ _ b := b

theorem toNat_place (id : Dma.BufferId) :
    (place id).toNat = 0x10000 * (id.index % 0x1000 + 1) := by
  have hlt : id.index % 0x1000 < 0x1000 := Nat.mod_lt _ (by decide)
  have hsmall : id.index % 0x1000 + 1 < UInt64.size := by
    change _ < 2 ^ 64
    omega
  rw [place, UInt64.toNat_mul, UInt64.toNat_ofNat_of_lt' hsmall]
  refine Nat.mod_eq_of_lt ?_
  change 0x10000 * (id.index % 0x1000 + 1) < 2 ^ 64
  omega

/-- Where buffers lie at these places, whatever has happened, the platform is in order. -/
theorem respects_of_place {σ : Type} {p : Platform σ} {m : AddressMap σ}
    (haddress : ∀ s id, m.address? s id = some (place id))
    (hbus : ∀ id s, (p.busAddress id s).1 = place id) : p.Respects m := by
  have hextends : ∀ s s', m.Extends s s' := fun s s' id address h => by
    rwa [haddress, ← haddress s]
  have hfits : ∀ id, (place id).toNat + Dma.structureBoundary ≤ UInt64.size := fun id => by
    have hlt : id.index % 0x1000 < 0x1000 := Nat.mod_lt _ (by decide)
    change (place id).toNat + 0x10000 ≤ 2 ^ 64
    rw [toNat_place]
    omega
  exact ⟨fun id s => by rw [haddress, hbus], fun id s => hbus id s ▸ hfits id,
    fun _ _ => hextends _ _, fun _ _ _ => hextends _ _, fun _ _ _ => hextends _ _,
    fun _ _ _ _ => hextends _ _, fun _ _ => hextends _ _, fun _ _ _ => hextends _ _⟩

/-- The place of a buffer does not depend on the state of the board. -/
theorem addresses_extends (b b' : Board) : addresses.Extends b b' := fun _ _ h => h

theorem respects : platform.Respects addresses := respects_of_place (fun _ _ => rfl) fun _ _ => rfl

/-- Report the command that is waited for, or let time pass. -/
def react : HostM Board Unit Unit := do
  let w ← get
  match w.controller.commands.underway? with
  | none => pure ()
  | some (address, t) =>
    match t.kind?.bind w.bus.platform.answer with
    | some report => Host.commandCompleted address report.code report.slot
    | none => HostM.onPlatform fun b => { b with clock := b.clock + 10000 }

/-- Surroundings in which nothing happens. -/
def still : Env Board Unit where
  toPlatform := platform
  yieldNow := pure ()
  complete _ _ := pure ()
  portChanged _ := pure ()
  patience := 4

/-- The surroundings of a host on the bench. A task that yields meets the board. -/
def env : Env Board Unit := { still with yieldNow := react }

theorem acts_still (managing : Bool) : still.Acts addresses managing where
  platform := respects
  yieldNow := .pure ()
  complete _ _ := .pure ()
  portChanged _ := .pure ()

theorem program_react (managing : Bool) : Program addresses managing react := by
  refine .bind .look fun w => ?_
  split
  · exact .pure ()
  · rename_i address t _
    split
    · rename_i report _
      -- Taking in a report does not depend on the surroundings.
      exact (acts_still managing).call (.commandCompleted address report.code report.slot)
        (.inr rfl)
    · exact .platform _ fun b => addresses_extends b _

theorem acts (managing : Bool) : env.Acts addresses managing where
  platform := respects
  yieldNow := program_react managing
  complete _ _ := .pure ()
  portChanged _ := .pure ()

/-! ### A host with two slots -/

def config : Config where
  commandRingSize := 16
  transferRingSize := 16
  eventRingSize := 16
  maxSlots := 2

/-- A new host. -/
def start : World Board Unit :=
  match (Host.create env config).run { platform := default } with
  | .ok (.ok w) bus => { w with bus := bus }
  | _ => default

theorem creates_start : Host.Creates env config default start :=
  .of_success (by decide +kernel) fun _ _ h => by rw [start, h]

theorem reachable_start : start.Reachable addresses := .of_creates respects creates_start

theorem unused_start : start.Unused := by
  obtain ⟨w, bus, h, hstart⟩ := creates_start
  have hplatform : env.toPlatform.Respects addresses := respects
  rw [hstart]
  exact (World.unused_of_create hplatform h).onBus bus

/-- Tell the board how to report commands from now on. -/
def tell (answer : Trb.Kind → Option CommandReport) (w : World Board Unit) : World Board Unit :=
  w.after (HostM.onPlatform fun b => { b with answer := answer })

variable {w : World Board Unit}

theorem reachable_tell (h : w.Reachable addresses) (answer : Trb.Kind → Option CommandReport) :
    (tell answer w).Reachable addresses :=
  h.run (.platform _ fun b => addresses_extends b _)

theorem reachable_call {α : Type} (h : w.Reachable addresses) (c : Call Unit α) :
    (w.after (c.run env)).Reachable addresses :=
  h.run ((acts true).call c (.inl rfl))

/-- Every command succeeds; a slot that is asked for is `slot`. -/
def obliging (slot : UInt8) : Trb.Kind → Option CommandReport := fun _ => some ⟨.success, slot⟩

/-- A device has been attached in slot 1. -/
def attached : World Board Unit :=
  (tell (obliging 1) start).after ((Call.attach 1 .high none).run env)

theorem reachable_attached : attached.Reachable addresses :=
  reachable_call (reachable_tell reachable_start _) _

example : attached.controller.slots.device? 1 = some ⟨0⟩ := by decide +kernel

/-- Eight bytes are on their way to the attached device. -/
def sending : World Board Unit :=
  attached.after ((Call.transferAsync ⟨0⟩
    { setup := some ⟨0, 9, 1, 0, 8⟩, buffer := some (.zeroed ⟨0x800⟩ 8) } 0).run env)

theorem reachable_sending : sending.Reachable addresses := reachable_call reachable_attached _

/-- The error that an operation is refused with, if it is. -/
def refusal? {α : Type} (p : HostM Board Unit (Except Error α)) (w : World Board Unit) :
    Option Error :=
  match p w with
  | .ok (.error error) _ => some error
  | _ => none

theorem run_of_refusal? {α : Type} {p : HostM Board Unit (Except Error α)} {error : Error}
    (h : refusal? p w = some error) : p w = .ok (.error error) (w.after p) := by
  unfold refusal? at h
  split at h
  · rename_i error' w' hrun
    cases h
    rw [hrun, World.after_of_ok hrun]
  · cases h

end Board

end UsbHost
