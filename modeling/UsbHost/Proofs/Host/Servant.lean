import UsbHost.Proofs.Host.Service

/-!
A bench with a controller at work. Whenever a task yields, the controller carries out the command
that is waited for and reports it with the next code of its plan, or with success if nothing is
planned. Buffers lie where they lie on the bench without one.
-/

namespace UsbHost

structure Servant where
  plan : List CompletionCode := []
  jobs : List Job := []
  deriving Inhabited

namespace Servant

def journal : JobJournal Servant := ⟨jobs⟩

def addresses : AddressMap Servant := ⟨fun _ id => some (Board.place id)⟩

/-- The report of the next command. All devices go to the first slot. -/
def report (s : Servant) : CommandReport := ⟨s.plan.headD .success, 1⟩

/-- Write the output context of a device, if there is one. -/
def write (d : Option DeviceRef) (f : Context.Device → Context.Device) :
    HostM Servant Unit Unit :=
  d.elim (pure ()) fun d => HostM.writeContext d f

/-- Carry out the command that is waited for, unless it has been reported. -/
def react : HostM Servant Unit Unit := do
  let w ← get
  let report := w.bus.platform.report
  match w.controller.commands.underway?, w.controller.commands.report with
  | some (address, t), none =>
    match w.controller.commands.complete address report with
    | .error _ => pure ()
    | .ok commands =>
      if commands.report = some report then
        let job := w.jobFor addresses t report.code
        Host.commandCompleted address report.code report.slot
        write (w.controller.slots.device? t.slot) job.copy
        HostM.onPlatform fun s => ⟨s.plan.tail, s.jobs ++ [job]⟩
      else pure ()
  | _, _ => pure ()

def platform : Platform Servant where
  now _ := 0
  busAddress id s := (Board.place id, s)
  doorbell _ _ s := s
  setCommandRing _ _ s := s
  setEventRing _ _ _ s := s
  writeEventDequeue _ s := s
  setContextArray _ _ s := s

def env : Env Servant Unit where
  toPlatform := platform
  yieldNow := react
  complete _ _ := pure ()
  portChanged _ := pure ()
  patience := 4

theorem addresses_extends (s s' : Servant) : addresses.Extends s s' := fun _ _ h => h

theorem respects : platform.Respects addresses :=
  Board.respects_of_place (fun _ _ => rfl) fun _ _ => rfl

/-- Surroundings in which nothing happens. -/
def still : Env Servant Unit := { env with yieldNow := pure () }

theorem acts_still (managing : Bool) : still.Acts addresses managing where
  platform := respects
  yieldNow := .pure ()
  complete _ _ := .pure ()
  portChanged _ := .pure ()

theorem program_write (managing : Bool) (d : Option DeviceRef)
    (f : Context.Device → Context.Device) : Program addresses managing (write d f) := by
  cases d with
  | none => exact .pure ()
  | some d => exact .context d f

theorem program_react (managing : Bool) : Program addresses managing react := by
  refine .bind .look fun w => ?_
  dsimp only
  split
  · rename_i address t _ _
    split
    · exact .pure ()
    · split
      · -- Taking in a report does not depend on the surroundings.
        refine .bind ((acts_still managing).call (.commandCompleted address
          w.bus.platform.report.code w.bus.platform.report.slot) (.inr rfl)) fun _ => ?_
        exact .bind (program_write managing _ _) fun _ => .platform _ fun s => addresses_extends s _
      · exact .pure ()
  · exact .pure ()

theorem acts (managing : Bool) : env.Acts addresses managing where
  platform := respects
  yieldNow := program_react managing
  complete _ _ := .pure ()
  portChanged _ := .pure ()

theorem write_run (w : World Servant Unit) (slot : UInt8) (f : Context.Device → Context.Device) :
    write (w.controller.slots.device? slot) f w = .ok () (w.writeOutput slot f) := by
  rw [write, World.writeOutput]
  cases w.controller.slots.device? slot with
  | none => rfl
  | some d => rfl

theorem serves : env.Serves journal addresses Job.Copies where
  platform := respects
  yieldNow w := by
    have hstay : (Conduct.serving journal addresses Job.Copies).Leads w w := Conduct.refl _ w
    have hlook : (get : HostM Servant Unit _) w = .ok w w := rfl
    refine HostM.ends_bind_of_ok hlook ?_
    dsimp only
    split
    · rename_i address t hunderway hreport
      split
      · exact hstay
      · rename_i commands hcomplete
        split
        · rename_i hreported
          refine HostM.ends_bind_of_ok (Host.commandCompleted_run hcomplete)
            (HostM.ends_bind_of_ok (write_run (w.setCommands commands) _ _) ?_)
          refine HostM.ends_of_ok rfl fun _ => ?_
          have hbus := (World.writeOutput_frame (w.setCommands commands) t.slot
            (w.jobFor addresses t w.bus.platform.report.code).copy).1
          refine .carryOut hunderway hreport hcomplete hreported rfl
            ⟨rfl, rfl, rfl, id, rfl, rfl, rfl, .of_eq rfl, addresses_extends _ _⟩ ?_
          change _ ++ _ = _
          rw [hbus]
          rfl
        · exact hstay
    · exact hstay
  busAddress _ _ := rfl
  doorbell _ _ _ := rfl

/-! ### A host with a full-speed device -/

/-- A new host. -/
def start : World Servant Unit :=
  match (Host.create env Board.config).run { platform := default } with
  | .ok (.ok w) bus => { w with bus := bus }
  | _ => default

theorem creates_start : Host.Creates env Board.config default start :=
  .of_success (by decide +kernel) fun _ _ h => by rw [start, h]

theorem reachable_start : start.Reachable addresses := .of_creates respects creates_start

/-- A full-speed device has been attached. -/
def attached : World Servant Unit := start.after ((Call.attach 1 .full none).run env)

theorem reachable_attached : attached.Reachable addresses :=
  reachable_start.run ((acts true).call (.attach 1 .full none) (.inl rfl))

/-- Plan the codes of the next commands. -/
def instruct (codes : List CompletionCode) (w : World Servant Unit) : World Servant Unit :=
  w.after (HostM.onPlatform fun s => { s with plan := codes })

theorem reachable_instruct {w : World Servant Unit} (h : w.Reachable addresses)
    (codes : List CompletionCode) : (instruct codes w).Reachable addresses :=
  h.run (.platform _ fun s => addresses_extends s _)

/-- What an operation comes to, unless it ends in a fault. -/
def outcome? {α : Type} (p : HostM Servant Unit α) (w : World Servant Unit) : Option α :=
  match p w with
  | .ok a _ => some a
  | .error .. => none

theorem run_of_outcome {α : Type} {p : HostM Servant Unit α} {w : World Servant Unit} {a : α}
    (h : outcome? p w = some a) : p w = .ok a (w.after p) := by
  unfold outcome? at h
  split at h
  · rename_i a' w' hrun
    cases h
    rw [World.after_of_ok hrun, hrun]
  · cases h

example : attached.controller.slots.device? 1 = some ⟨0⟩ := by decide +kernel

example : (attached.jobs journal).map (·.command.kind?) =
    [some .enableSlot, some .addressDevice] := by decide +kernel

end Servant

end UsbHost
