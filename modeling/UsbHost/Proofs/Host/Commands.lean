import UsbHost.Proofs.Host.Traffic
import UsbHost.Proofs.Trb.Control

/-!
Commands, in moves. A task issues a command on its turn, and gives its turn up as soon as it stops
waiting; so at the end of a command that has not ended in a fault no task has the turn. A call
that brings an input context along makes it before the command and frees it afterwards, whatever
has become of the command.
-/

namespace UsbHost

variable {σ ρ α : Type} {m : AddressMap σ} {managing : Bool}

/-- The command that is waited for, and its bus address. -/
def CommandRing.underway? (c : CommandRing) : Option (UInt64 × Trb) := do
  let address ← c.awaited
  let i ← c.ring.indexOf? address
  return (address, c.ring.trbAt i)

namespace World

/-- The world in which a task has taken its turn. -/
def hold (w : World σ ρ) : World σ ρ :=
  w.setCommands { w.controller.commands with serial.held := true }

/-- The world in which a task has given its turn up. -/
def release (w : World σ ρ) : World σ ρ :=
  w.setCommands { w.controller.commands with serial.held := false }

theorem release_hold {w : World σ ρ} (h : w.isTaken = false) : w.hold.release = w := by
  obtain ⟨bus, controller, devices, endpoints, waiters, inputs, completions⟩ := w
  obtain ⟨config, slots, commands, events, rootHub, nextDevice⟩ := controller
  obtain ⟨ring, awaited, report, completed, ⟨value, held⟩, maxSlots, timeout⟩ := commands
  change held = false at h
  subst h
  rfl

end World

/-! ### Which commands read an input context -/

namespace Command

@[simp] theorem readsInput_enableSlot : enableSlot.readsInput = false := by
  rw [Trb.readsInput, enableSlot, Trb.kind?_command _ _ _ (by decide)]

@[simp] theorem readsInput_noOp : noOp.readsInput = false := by
  rw [Trb.readsInput, noOp, Trb.kind?_command _ _ _ (by decide)]

@[simp] theorem readsInput_disableSlot (slot : UInt8) : (disableSlot slot).readsInput = false := by
  rw [Trb.readsInput, disableSlot, Trb.kind?_command _ _ _ (by decide)]

@[simp] theorem kind?_forEndpoint (t : Trb) (endpoint : UInt8) :
    (forEndpoint t endpoint).kind? = t.kind? := by
  apply Trb.kind?_or_control
  intro i hi _
  simp [hi]

@[simp] theorem readsInput_resetEndpoint (slot endpoint : UInt8) :
    (resetEndpoint slot endpoint).readsInput = false := by
  rw [Trb.readsInput, resetEndpoint, kind?_forEndpoint, Trb.kind?_command _ _ _ (by decide)]

@[simp] theorem readsInput_stopEndpoint (slot endpoint : UInt8) (suspend : Bool) :
    (stopEndpoint slot endpoint suspend).readsInput = false := by
  have hkind : (stopEndpoint slot endpoint suspend).kind? =
      (forEndpoint (.command .stopEndpoint 0 slot .none) endpoint).kind? := by
    cases suspend with
    | false => rfl
    | true => exact Trb.kind?_or_control (by decide)
  rw [Trb.readsInput, hkind, kind?_forEndpoint, Trb.kind?_command _ _ _ (by decide)]

end Command

namespace Host

open HostAttempt (lift)

variable {env : Env σ ρ} {w : World σ ρ} {t : Trb}

/-! ### Turns -/

/-- A task takes the turn if nobody has it. -/
theorem pollTurn_eq (w : World σ ρ) :
    (do return if ← takeTurn then some () else none : HostM σ ρ (Option Unit)) w =
      if w.isTaken then .ok none w else .ok (some ()) w.hold := by
  have hget : (HostM.controller : HostM σ ρ _) w = .ok w.controller w := rfl
  unfold takeTurn
  rw [bind_assoc, HostM.bind_of_ok hget]
  cases hserial : w.controller.commands.serial.held with
  | false =>
    have htake : w.controller.commands.serial.tryTake? =
        some { w.controller.commands.serial with held := true } := by
      rw [Lock.tryTake?, hserial]
      rfl
    simp only [htake, World.isTaken, hserial]
    rfl
  | true =>
    have htake : w.controller.commands.serial.tryTake? = none := by
      rw [Lock.tryTake?, hserial]
      rfl
    simp only [htake, World.isTaken, hserial]
    rfl

/-- A task gets its turn when nobody has it, or waits in vain. -/
theorem awaitTurn_ends (henv : env.OnlyMoves m managing) (patience : Nat) (w : World σ ρ) :
    HostM.Ends (awaitSome env (return if ← takeTurn then some () else none) patience) w
      (Moves m managing w)
      fun _ w' => ∃ w₁, Moves m managing w w₁ ∧ w₁.isTaken = false ∧ w' = w₁.hold := by
  induction patience generalizing w with
  | zero => exact Moves.refl w
  | succ patience ih =>
    have hpoll := pollTurn_eq w
    rw [awaitSome]
    cases hw : w.isTaken with
    | false =>
      rw [hw, if_neg Bool.false_ne_true] at hpoll
      exact HostM.ends_bind_of_ok hpoll ⟨w, .refl w, hw, rfl⟩
    | true =>
      rw [hw, if_pos rfl] at hpoll
      refine HostM.ends_bind_of_ok hpoll ((henv.yieldNow w).bind fun _ w₁ hyield => ?_)
      refine (ih w₁).mono (fun _ => hyield.trans) ?_
      rintro - w' ⟨w₂, hmoves, hfree, rfl⟩
      exact ⟨w₂, hyield.trans hmoves, hfree, rfl⟩

/-! ### Issuing a command -/

theorem issue_of_enqueue {c : CommandRing} {address : UInt64} {ring : ProducerRing}
    (h : c.ring.enqueue t = .ok (some (address, ring))) :
    c.issue t = .ok (.ok { c with
      ring := ring
      awaited := some address
      report := none
      completed := c.completed.clear }) := by
  rw [CommandRing.issue, h]
  rfl

theorem moves_takeCompleted : (takeCompleted : HostM σ ρ Bool).Obeys (.moves m managing) :=
  fun w => .signal w ⟨false⟩

/-- The rest of a command that has been issued. -/
def awaitReport (env : Env σ ρ) (timeout : UInt64) : HostAttempt σ ρ CommandReport := do
  lift (HostM.onPlatform (env.doorbell 0 0))
  let _ ← lift (awaitSignal env takeCompleted timeout)
  let (report, commands) := (← lift HostM.controller).commands.conclude
  lift (HostM.setCommands commands)
  match report with
  | some report => return report
  | none => throw (.timeout "xHCI command" commands.timeout)

/-- Unless it ends in a fault, a command is over for the task that has issued it, and only its turn
remains to be given up. -/
theorem awaitReport_ends (henv : env.OnlyMoves m managing) (timeout : UInt64) (w : World σ ρ) :
    HostAttempt.Ends (awaitReport env timeout) w (Moves m managing w)
      (fun _ w' => Moves m managing w w'.release) fun _ w' => Moves m managing w w'.release := by
  have hdoorbell : (HostM.onPlatform (env.doorbell 0 0) : HostM σ ρ Unit).Obeys
      (.moves m managing) := moves_onPlatform (henv.platform.doorbell 0 0)
  refine (HostAttempt.ends_lift (hdoorbell w)).bind fun _ w₁ hrung => ?_
  have hwait := HostM.Obeys.awaitSignal henv.yieldNow moves_takeCompleted timeout w₁
  refine (HostAttempt.ends_lift (hrung.before hwait)).bind fun _ w₂ hmoves => ?_
  have hlook : (lift HostM.controller : HostAttempt σ ρ _).run w₂ = .ok (.ok w₂.controller) w₂ :=
    rfl
  have hend : Moves m managing w
      (w₂.setCommands w₂.controller.commands.conclude.2).release := hmoves.trans (.conclude w₂)
  refine HostAttempt.ends_bind_of_ok hlook ?_
  cases hreport : w₂.controller.commands.report with
  | some report =>
    simp only [CommandRing.conclude, hreport]
    exact hend
  | none =>
    simp only [CommandRing.conclude, hreport]
    exact hend

/-- After its command a task gives its turn up, also when it has been in vain. -/
theorem runCommand_ends (henv : env.OnlyMoves m managing) (hfree : w.isTaken = false)
    (hinput : t.readsInput = true → w.HasInput m t.parameter) :
    HostAttempt.Ends (runCommand env t) w.hold (Moves m managing w)
      (fun _ w' => Moves m managing w w'.release) fun _ w' => Moves m managing w w'.release := by
  have hlook : (lift HostM.controller : HostAttempt σ ρ _).run w.hold =
      .ok (.ok w.hold.controller) w.hold := rfl
  refine HostAttempt.ends_bind_of_ok hlook ?_
  dsimp only
  cases henqueue : w.controller.commands.ring.enqueue t with
  | error fault =>
    have hissue : w.hold.controller.commands.issue t = .error fault := by
      change (w.controller.commands.ring.enqueue t >>= _) = _
      rw [henqueue]
      rfl
    rw [hissue]
    exact Moves.turn hfree
  | ok place =>
    cases place with
    | none =>
      have hissue : w.hold.controller.commands.issue t = .ok (.error (.ringFull .command)) := by
        change (w.controller.commands.ring.enqueue t >>= _) = _
        rw [henqueue]
        rfl
      rw [hissue]
      change Moves m managing w w.hold.release
      rw [World.release_hold hfree]
      exact .refl w
    | some place =>
      obtain ⟨address, ring⟩ := place
      have hissued : Moves m managing w _ := .issue hfree henqueue hinput
      have hissue : w.hold.controller.commands.issue t = _ := issue_of_enqueue henqueue
      rw [hissue]
      exact (awaitReport_ends henv _ _).mono (fun _ => hissued.trans) (fun _ _ => hissued.trans)
        fun _ _ => hissued.trans

/-- A command is made of moves, and when it is over no task has the turn. -/
theorem command_ends (henv : env.OnlyMoves m managing) (w : World σ ρ)
    (hinput : ∀ w₁, Moves m managing w w₁ → t.readsInput = true → w₁.HasInput m t.parameter) :
    HostM.Ends (command env t).run w (Moves m managing w)
      fun _ w' => Moves m managing w w' ∧ w'.isTaken = false := by
  refine HostAttempt.Ends.run (HostAttempt.Ends.bind (HostAttempt.ends_of_run ?_)
    fun _ w' hend => HostAttempt.ends_of_run hend)
  refine (awaitTurn_ends henv env.patience w).bind ?_
  rintro - - ⟨w₁, hmoves, hfree, rfl⟩
  have hcommand := (runCommand_ends henv hfree (hinput w₁ hmoves)).run
  exact (hcommand.mono (fun _ => hmoves.trans) fun _ _ => hmoves.trans).bind
    fun _ w' hend => ⟨hend, rfl⟩

/-! ### Commands without input context -/

theorem moves_command (henv : env.OnlyMoves m managing) (h : t.readsInput = false) :
    (command env t).run.Obeys (.moves m managing) :=
  fun w => (command_ends henv w fun _ _ hreads => nomatch h.symm.trans hreads).mono
    (fun _ hmoves => hmoves) fun _ _ hend => hend.1

theorem moves_checkRunning (henv : env.OnlyMoves m managing) :
    (checkRunning env).run.Obeys (.moves m managing) :=
  .attempt_discard (moves_command henv Command.readsInput_noOp)

theorem moves_enableSlot (henv : env.OnlyMoves m managing) :
    (enableSlot env).run.Obeys (.moves m managing) :=
  .enableSlot (moves_command henv Command.readsInput_enableSlot)

theorem moves_disableSlot (henv : env.OnlyMoves m managing) (slot : UInt8) :
    (disableSlot env slot).run.Obeys (.moves m managing) :=
  .attempt_discard (moves_command henv (Command.readsInput_disableSlot slot))

theorem moves_resetEndpoint (henv : env.OnlyMoves m managing) (slot endpoint : UInt8) :
    (resetEndpoint env slot endpoint).run.Obeys (.moves m managing) :=
  .attempt_discard (moves_command henv (Command.readsInput_resetEndpoint slot endpoint))

theorem moves_stopEndpoint (henv : env.OnlyMoves m managing) (slot endpoint : UInt8)
    (suspend : Bool) : (stopEndpoint env slot endpoint suspend).run.Obeys (.moves m managing) :=
  .attempt_discard
    (moves_command henv (Command.readsInput_stopEndpoint slot endpoint suspend))

theorem moves_commandCompleted (address : UInt64) (code : CompletionCode) (slot : UInt8) :
    (commandCompleted address code slot : HostM σ ρ Unit).Obeys (.moves m managing) := by
  intro w
  have hlook : (HostM.controller : HostM σ ρ _) w = .ok w.controller w := rfl
  refine HostM.ends_bind_of_ok hlook ?_
  dsimp only
  cases h : w.controller.commands.complete address ⟨code, slot⟩ with
  | error fault => exact Moves.refl w
  | ok commands => exact Moves.report h

end Host

end UsbHost
