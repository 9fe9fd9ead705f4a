import UsbHost.Proofs.Host.Commands
import UsbHost.Proofs.Host.Conduct
import UsbHost.Proofs.Host.InputContexts
import UsbHost.Proofs.Ring.Posting

/-!
Reports of commands. The controller works the command ring off in order; it may report a command
while its task waits, or later, or never. A report names its TRB by the address only, and addresses
come round again. Yet no two commands that can still be reported have the same one; so a task gets
the report of its own command, or none.
-/

namespace UsbHost

variable {σ ρ α : Type}

/-- The address of the `n`-th command, counted from 0, on a ring of `count` TRBs at `base`: the last
TRB of the ring never holds a command. -/
def CommandRing.placeOf (base : UInt64) (count n : Nat) : UInt64 :=
  base + UInt64.ofNat (n % (count - 1) * Trb.byteSize)

/-- The report of an outstanding command releases it, and all those before it. It is a result if it
is the first one for the command that is waited for. -/
theorem CommandRing.complete_eq {c : CommandRing} (hr : c.ring.WellFormed) {k : Nat}
    (hk : k < c.ring.outstanding) {address : UInt64}
    (haddress : address = c.ring.addressAt ((c.ring.dequeueIndex + k) % c.ring.capacity))
    (report : CommandReport) :
    c.complete address report = .ok { c with
      ring := c.ring.drop (k + 1)
      report := if c.awaited = some address then c.report.or (some report) else c.report
      completed :=
        if c.awaited = some address ∧ c.report = none then c.completed.raise
        else c.completed } := by
  have hrelease := ProducerRing.releaseThrough_eq hr (Nat.succ_pos k) hk
  rw [Nat.add_succ_sub_one, ← haddress] at hrelease
  obtain ⟨ring, awaited, result, completed, serial, maxSlots, timeout⟩ := c
  dsimp only at hrelease ⊢
  rw [complete]
  dsimp only
  rw [hrelease]
  by_cases hawaited : awaited = some address
  · cases result with
    | none =>
      simp only [hawaited, bind, Except.bind, pure, Except.pure]
      rfl
    | some result =>
      simp only [hawaited, bind, Except.bind, pure, Except.pure]
      simp
  · simp [hawaited, bind, Except.bind, pure, Except.pure]

/-- A report for an address off the ring changes nothing. -/
theorem CommandRing.complete_off {c : CommandRing} {address : UInt64}
    (haddress : c.ring.indexOf? address = none) (report : CommandReport) :
    c.complete address report = .ok c := by
  rw [complete, ProducerRing.releaseThrough, haddress]
  rfl

/-! ### What has become of the commands -/

/-- What a platform knows of its controller's reports. -/
structure CommandJournal (σ : Type) where
  /-- What has become of the commands, first to last: the report that has come in, or none if the
  controller has passed the command over. -/
  answers : σ → List (Option CommandReport)

namespace World

/-- The world in which a command has been issued at `address`, and `ring` has taken it. -/
def issue (w : World σ ρ) (address : UInt64) (ring : ProducerRing) : World σ ρ :=
  w.setCommands { w.controller.commands with
    ring := ring
    awaited := some address
    report := none
    completed := w.controller.commands.completed.clear }

variable (j : CommandJournal σ)

/-- What has become of the commands so far. -/
def answers (w : World σ ρ) : List (Option CommandReport) := j.answers w.bus.platform

/-- The command ring of `count` TRBs at `base` after `n` commands have been issued: those that
nothing has become of are outstanding. -/
structure Tracks (base : UInt64) (count n : Nat) (w : World σ ρ) : Prop where
  wellFormed : w.controller.commands.ring.WellFormed
  base_eq : w.controller.commands.ring.base = base
  size_eq : w.controller.commands.ring.trbs.size = count
  dequeueIndex_eq : w.controller.commands.ring.dequeueIndex =
    (w.answers j).length % (count - 1)
  outstanding_add : w.controller.commands.ring.outstanding + (w.answers j).length = n

/-- After `n` commands have been issued, the controller reports commands in the order of the ring,
each at most once. Other reports name addresses off the ring. -/
inductive Hears (base : UInt64) (count n : Nat) : World σ ρ → World σ ρ → Prop
  | elsewhere {w w' : World σ ρ} (hcommands : w'.controller.commands = w.controller.commands)
      (hanswers : w'.answers j = w.answers j) : Hears base count n w w'
  | report {w w' : World σ ρ} (skipped : Nat) (report : CommandReport)
      (hissued : (w.answers j).length + skipped < n)
      (hcomplete : w.controller.commands.complete
        (CommandRing.placeOf base count ((w.answers j).length + skipped)) report =
          .ok w'.controller.commands)
      (hanswers : w'.answers j = w.answers j ++ (List.replicate skipped none ++ [some report])) :
      Hears base count n w w'
  | stranger {w w' : World σ ρ} (address : UInt64) (report : CommandReport)
      (haddress : Ring.indexOf? base count address = none)
      (hcomplete : w.controller.commands.complete address report = .ok w'.controller.commands)
      (hanswers : w'.answers j = w.answers j) : Hears base count n w w'
  | trans {w w₁ w₂ : World σ ρ} (h : Hears base count n w w₁) (h' : Hears base count n w₁ w₂) :
      Hears base count n w w₂

/-- A task waits for command `n`, the last one issued. -/
structure Waits (base : UInt64) (count n : Nat) (timeout : UInt64) (w : World σ ρ) : Prop where
  tracks : w.Tracks j base count (n + 1)
  awaited_eq : w.controller.commands.awaited = some (CommandRing.placeOf base count n)
  report_eq : w.controller.commands.report = (w.answers j)[n]?.join
  timeout_eq : w.controller.commands.timeout = timeout

variable {j} {w w' : World σ ρ} {base timeout : UInt64} {count n : Nat}

namespace Tracks

theorem capacity_eq (h : w.Tracks j base count n) :
    w.controller.commands.ring.capacity = count - 1 := by
  rw [ProducerRing.capacity, h.size_eq]

/-- A command that can still be reported is found at its place. -/
theorem placeOf_eq (h : w.Tracks j base count n) (k : Nat) :
    CommandRing.placeOf base count ((w.answers j).length + k) =
      w.controller.commands.ring.addressAt
        ((w.controller.commands.ring.dequeueIndex + k) % w.controller.commands.ring.capacity) := by
  rw [ProducerRing.addressAt, h.base_eq, h.dequeueIndex_eq, h.capacity_eq, Nat.mod_add_mod]
  rfl

/-- Less than a turn apart, commands have different places. -/
theorem placeOf_ne (h : w.Tracks j base count n) {k l : Nat} (hlt : k < l)
    (hturn : l < k + (count - 1)) :
    CommandRing.placeOf base count k ≠ CommandRing.placeOf base count l := by
  intro hsame
  have hcapacity := h.capacity_eq
  have hpos := h.wellFormed.one_lt_capacity
  have hplace (i : Nat) : CommandRing.placeOf base count i =
      w.controller.commands.ring.addressAt (i % (count - 1)) := by
    rw [ProducerRing.addressAt, h.base_eq]
    rfl
  have hle (i : Nat) : i % (count - 1) ≤ w.controller.commands.ring.capacity := by
    rw [hcapacity]
    exact Nat.le_of_lt (Nat.mod_lt _ (by omega))
  have hindex := ProducerRing.indexOf?_addressAt h.wellFormed (hle k)
  rw [← hplace, hsame, hplace, ProducerRing.indexOf?_addressAt h.wellFormed (hle l)] at hindex
  exact Ring.place_ne hlt hturn (Option.some.inj hindex)

/-- Neither the ring nor what is known of it has changed. -/
theorem of_frame (h : w.Tracks j base count n)
    (hcommands : w'.controller.commands = w.controller.commands)
    (hanswers : w'.answers j = w.answers j) : w'.Tracks j base count n := by
  obtain ⟨hring, hbase, hsize, hdequeue, hout⟩ := h
  constructor
  all_goals rw [hcommands]
  · exact hring
  · exact hbase
  · exact hsize
  · rw [hanswers]
    exact hdequeue
  · rw [hanswers]
    exact hout

/-- What the report of an outstanding command does. -/
theorem complete_eq (h : w.Tracks j base count n) {skipped : Nat}
    (hissued : (w.answers j).length + skipped < n) (report : CommandReport) :
    w.controller.commands.complete
        (CommandRing.placeOf base count ((w.answers j).length + skipped)) report =
      .ok { w.controller.commands with
        ring := w.controller.commands.ring.drop (skipped + 1)
        report :=
          if w.controller.commands.awaited =
              some (CommandRing.placeOf base count ((w.answers j).length + skipped)) then
            w.controller.commands.report.or (some report)
          else w.controller.commands.report
        completed :=
          if w.controller.commands.awaited =
              some (CommandRing.placeOf base count ((w.answers j).length + skipped)) ∧
              w.controller.commands.report = none then
            w.controller.commands.completed.raise
          else w.controller.commands.completed } := by
  have hout := h.outstanding_add
  exact CommandRing.complete_eq h.wellFormed (by omega) (h.placeOf_eq skipped) report

/-- The ring is full once nothing has become of as many commands as it can hold. -/
theorem isFull_iff (h : w.Tracks j base count n) :
    w.controller.commands.ring.isFull = true ↔
      n = (w.answers j).length + (w.controller.commands.ring.capacity - 1) := by
  have hout := h.outstanding_add
  rw [ProducerRing.isFull_iff h.wellFormed]
  omega

/-- The next command is put at its place, unless the ring is full. -/
theorem nextAddress?_eq (h : w.Tracks j base count n) :
    w.controller.commands.ring.nextAddress? =
      .ok (if n = (w.answers j).length + (w.controller.commands.ring.capacity - 1) then none
        else some (CommandRing.placeOf base count n)) := by
  have hplace := h.placeOf_eq w.controller.commands.ring.outstanding
  rw [Nat.add_comm, h.outstanding_add, ← ProducerRing.enqueueIndex_eq h.wellFormed] at hplace
  rw [ProducerRing.nextAddress?, ProducerRing.address_eq h.wellFormed
    (Nat.le_of_lt h.wellFormed.enqueue_lt), ← hplace]
  simp only [h.isFull_iff]
  split <;> rfl

theorem enqueue_eq (h : w.Tracks j base count n) (t : Trb) :
    w.controller.commands.ring.enqueue t =
      .ok (if n = (w.answers j).length + (w.controller.commands.ring.capacity - 1) then none
        else some (CommandRing.placeOf base count n, w.controller.commands.ring.accept t)) := by
  rw [ProducerRing.enqueue, h.nextAddress?_eq]
  split <;> rfl

/-- A task waits for the command that it has issued. -/
theorem issued (h : w.Tracks j base count n)
    (hroom : n ≠ (w.answers j).length + (w.controller.commands.ring.capacity - 1)) (t : Trb) :
    (w.hold.issue (CommandRing.placeOf base count n)
      (w.controller.commands.ring.accept t)).Waits j base count n
        w.controller.commands.timeout := by
  have hout := h.outstanding_add
  have hlt := ProducerRing.outstanding_lt h.wellFormed
  have hunanswered : (w.answers j)[n]? = none := List.getElem?_eq_none (by omega)
  refine ⟨⟨h.wellFormed.accept t, (ProducerRing.base_accept t).trans h.base_eq,
    (ProducerRing.size_accept t).trans h.size_eq,
    (ProducerRing.dequeueIndex_accept t).trans h.dequeueIndex_eq, ?_⟩, rfl,
    (congrArg Option.join hunanswered).symm, rfl⟩
  change (w.controller.commands.ring.accept t).outstanding + (w.answers j).length = n + 1
  rw [ProducerRing.outstanding_accept h.wellFormed (by omega)]
  omega

/-- A report for an address off the ring is no report. -/
theorem stranger (h : w.Tracks j base count n) {address : UInt64} {report : CommandReport}
    {commands : CommandRing} (haddress : Ring.indexOf? base count address = none)
    (hcomplete : w.controller.commands.complete address report = .ok commands) :
    commands = w.controller.commands := by
  rw [← h.base_eq, ← h.size_eq] at haddress
  exact Except.ok.inj (hcomplete.symm.trans (CommandRing.complete_off haddress report))

/-- A ring from which some commands have been released, which something has become of. -/
theorem drop (h : w.Tracks j base count n) {skipped : Nat}
    (hissued : (w.answers j).length + skipped < n)
    (hring : w'.controller.commands.ring = w.controller.commands.ring.drop (skipped + 1))
    (hlength : (w'.answers j).length = (w.answers j).length + (skipped + 1)) :
    w'.Tracks j base count n := by
  have hout := h.outstanding_add
  constructor
  all_goals rw [hring]
  · exact h.wellFormed.drop _
  · exact h.base_eq
  · exact h.size_eq
  · simp [hlength, h.capacity_eq, h.dequeueIndex_eq]
  · rw [hlength, ProducerRing.outstanding_drop h.wellFormed (by omega)]
    omega

end Tracks

/-- Something has become of one more command, and of all those before it. -/
theorem length_answered (l : List (Option CommandReport)) (skipped : Nat)
    (report : CommandReport) :
    (l ++ (List.replicate skipped none ++ [some report])).length = l.length + (skipped + 1) := by
  rw [List.length_append, List.length_append, List.length_replicate, List.length_singleton]

/-- Reports keep the count of outstanding commands right, and take nobody's turn. -/
theorem Hears.tracks (h : w.Hears j base count n w') (hw : w.Tracks j base count n) :
    w'.Tracks j base count n ∧ w'.isTaken = w.isTaken := by
  induction h with
  | elsewhere hcommands hanswers =>
    exact ⟨hw.of_frame hcommands hanswers, by rw [isTaken, hcommands]; rfl⟩
  | report skipped report hissued hcomplete hanswers =>
    have hcommands := Except.ok.inj (hcomplete.symm.trans (hw.complete_eq hissued report))
    refine ⟨hw.drop hissued (by rw [hcommands]) ?_, by rw [isTaken, hcommands]; rfl⟩
    rw [hanswers, length_answered]
  | stranger address report haddress hcomplete hanswers =>
    have hcommands := hw.stranger haddress hcomplete
    exact ⟨hw.of_frame hcommands hanswers, by rw [isTaken, hcommands]; rfl⟩
  | trans _ _ ih ih' =>
    obtain ⟨hmiddle, hturn⟩ := ih hw
    obtain ⟨hend, hturn'⟩ := ih' hmiddle
    exact ⟨hend, hturn'.trans hturn⟩

theorem Waits.of_frame (h : w.Waits j base count n timeout)
    (hcommands : w'.controller.commands = w.controller.commands)
    (hanswers : w'.answers j = w.answers j) : w'.Waits j base count n timeout := by
  refine ⟨h.tracks.of_frame hcommands hanswers, ?_, ?_, ?_⟩
  all_goals rw [hcommands]
  · exact h.awaited_eq
  · rw [hanswers]
    exact h.report_eq
  · exact h.timeout_eq

/-- While a task waits, its command is the only one whose report is a result. -/
theorem Waits.of_reported (h : w.Waits j base count n timeout) {skipped : Nat}
    {report : CommandReport} (hissued : (w.answers j).length + skipped < n + 1)
    (hcomplete : w.controller.commands.complete
      (CommandRing.placeOf base count ((w.answers j).length + skipped)) report =
        .ok w'.controller.commands)
    (hanswers : w'.answers j = w.answers j ++ (List.replicate skipped none ++ [some report])) :
    w'.Waits j base count n timeout := by
  have hcommands := Except.ok.inj (hcomplete.symm.trans (h.tracks.complete_eq hissued report))
  have hlength : (w'.answers j).length = (w.answers j).length + (skipped + 1) := by
    rw [hanswers, length_answered]
  have hunanswered : (w.answers j)[n]? = none := List.getElem?_eq_none (by omega)
  refine ⟨h.tracks.drop hissued (by rw [hcommands]) hlength, by rw [hcommands, h.awaited_eq], ?_,
    by rw [hcommands, h.timeout_eq]⟩
  rw [hcommands]
  dsimp only
  rcases Nat.lt_succ_iff_lt_or_eq.1 hissued with hearlier | hown
  · -- The report is for an earlier command, which has another place as long as it is on the ring.
    have hout := h.tracks.outstanding_add
    have hlt := ProducerRing.outstanding_lt h.tracks.wellFormed
    rw [h.tracks.capacity_eq] at hlt
    have hne := h.tracks.placeOf_ne hearlier (by omega)
    rw [h.awaited_eq, if_neg (fun hsame => hne (Option.some.inj hsame).symm), h.report_eq,
      hunanswered, List.getElem?_eq_none (by omega)]
  · have hlast : (w'.answers j)[n]? = some (some report) := by
      rw [hanswers, ← hown, List.getElem?_append_right (Nat.le_add_right _ _),
        Nat.add_sub_cancel_left, List.getElem?_append_right (Nat.le_of_eq List.length_replicate),
        List.length_replicate, Nat.sub_self]
      rfl
    rw [h.awaited_eq, hown, if_pos rfl, h.report_eq, hunanswered, hlast]
    rfl

theorem Hears.waits (h : w.Hears j base count (n + 1) w') (hw : w.Waits j base count n timeout) :
    w'.Waits j base count n timeout := by
  induction h with
  | elsewhere hcommands hanswers => exact hw.of_frame hcommands hanswers
  | report skipped report hissued hcomplete hanswers =>
    exact hw.of_reported hissued hcomplete hanswers
  | stranger address report haddress hcomplete hanswers =>
    exact hw.of_frame (hw.tracks.stranger haddress hcomplete) hanswers
  | trans _ _ ih ih' => exact ih' (ih hw)

end World

/-- After `n` commands have been issued, computations may only take in reports. -/
def Conduct.hearing (j : CommandJournal σ) (base : UInt64) (count n : Nat) : Conduct σ ρ where
  Leads w w' := w.Tracks j base count n → w.Hears j base count n w'
  refl _ _ := .elsewhere rfl rfl
  trans h h' hw := (h hw).trans (h' ((h hw).tracks hw).1)

/-- Surroundings in which commands are reported, but none is issued. -/
structure Env.Hears (j : CommandJournal σ) (base : UInt64) (count : Nat) (env : Env σ ρ) :
    Prop where
  yieldNow : ∀ n, env.yieldNow.Obeys (.hearing j base count n)
  doorbell : ∀ slot target s, j.answers (env.doorbell slot target s) = j.answers s

/-- Surroundings in which time passes: letting them run comes to an end, and takes a while. -/
def Env.Passes (j : CommandJournal σ) (base : UInt64) (count : Nat) (env : Env σ ρ) : Prop :=
  ∀ n w, w.Tracks j base count n → ∃ w', env.yieldNow w = .ok () w' ∧
    min ((env.now w.bus.platform).toNat + 1) (UInt64.size - 1) ≤
      (env.now w'.bus.platform).toNat

namespace Host

variable {env : Env σ ρ} {j : CommandJournal σ} {base timeout : UInt64} {count n : Nat}
  {w : World σ ρ} {t : Trb} {failed : World σ ρ → Prop}

open HostAttempt (lift)

theorem commandCompleted_run {address : UInt64} {report : CommandReport} {commands : CommandRing}
    (hcomplete : w.controller.commands.complete address report = .ok commands) :
    (commandCompleted address report.code report.slot : HostM σ ρ Unit) w =
      .ok () (w.setCommands commands) := by
  have hlook : (HostM.controller : HostM σ ρ _) w = .ok w.controller w := rfl
  unfold commandCompleted
  rw [HostM.bind_of_ok hlook]
  change (HostM.ofExcept (w.controller.commands.complete address report) >>= _) w = _
  rw [hcomplete]
  rfl

/-! ### Waiting for the report -/

theorem waits_takeCompleted :
    (takeCompleted : HostM σ ρ Bool).Obeys (.keeping (World.Waits j base count n timeout)) := by
  intro w₁
  refine HostM.ends_of_ok rfl fun hw => ?_
  obtain ⟨⟨hring, hbase, hsize, hdequeue, hout⟩, hawaited, hreport, htimeout⟩ := hw
  exact ⟨⟨hring, hbase, hsize, hdequeue, hout⟩, hawaited, hreport, htimeout⟩

/-- Whatever the surroundings do while a task waits, it waits for its own command. -/
theorem waits_awaitSignal (henv : env.Hears j base count) (timeout' : UInt64) :
    (awaitSignal env takeCompleted timeout').Obeys
      (.keeping (World.Waits j base count n timeout)) := by
  refine HostM.Obeys.awaitSignal (fun w₁ => ?_) waits_takeCompleted timeout'
  exact (henv.yieldNow (n + 1) w₁).mono (fun _ hhears hw => (hhears hw.tracks).waits hw)
    fun _ _ hhears hw => (hhears hw.tracks).waits hw

/-- What a task is told that has waited for a command: its report, if one has come in. -/
def verdict (timeout : UInt64) : Option CommandReport → Except Error CommandReport
  | some report => .ok report
  | none => .error (.timeout "xHCI command" timeout)

/-- A task that stops waiting is told what has become of its own command. -/
theorem awaitReport_gives (henv : env.Hears j base count) (hw : w.Waits j base count n timeout)
    (hwait : ∀ w₁, w₁.Waits j base count n timeout →
      w₁.bus.platform = env.doorbell 0 0 w.bus.platform →
      HostM.Ends (awaitSignal env takeCompleted timeout) w₁ failed
        fun _ => World.Waits j base count n timeout) :
    HostM.Ends (awaitReport env timeout).run w failed fun result w' =>
      w'.Tracks j base count (n + 1) ∧ result = verdict timeout (w'.answers j)[n]?.join := by
  have hring : (lift (HostM.onPlatform (env.doorbell 0 0)) : HostAttempt σ ρ Unit).run w =
      .ok (.ok ()) { w with bus.platform := env.doorbell 0 0 w.bus.platform } := rfl
  have hrung := hwait { w with bus.platform := env.doorbell 0 0 w.bus.platform }
    (hw.of_frame rfl (henv.doorbell 0 0 w.bus.platform)) rfl
  have hreport : HostAttempt.Ends (awaitReport env timeout) w failed
      (fun error w' => w'.Tracks j base count (n + 1) ∧
        .error error = verdict timeout (w'.answers j)[n]?.join)
      (fun report w' => w'.Tracks j base count (n + 1) ∧
        .ok report = verdict timeout (w'.answers j)[n]?.join) := by
    refine HostAttempt.ends_bind_of_ok hring ((HostAttempt.ends_lift hrung).bind fun _ w₁ hw₁ => ?_)
    have hlook : (lift HostM.controller : HostAttempt σ ρ _).run w₁ =
        .ok (.ok w₁.controller) w₁ := rfl
    have hend : (w₁.setCommands w₁.controller.commands.conclude.2).Tracks j base count (n + 1) :=
      ⟨hw₁.tracks.wellFormed, hw₁.tracks.base_eq, hw₁.tracks.size_eq, hw₁.tracks.dequeueIndex_eq,
        hw₁.tracks.outstanding_add⟩
    have htold := hw₁.report_eq
    refine HostAttempt.ends_bind_of_ok hlook ?_
    cases hresult : w₁.controller.commands.report with
    | some report =>
      simp only [CommandRing.conclude, hresult]
      refine ⟨hend, ?_⟩
      change _ = verdict timeout (w₁.answers j)[n]?.join
      rw [← htold, hresult]
      rfl
    | none =>
      simp only [CommandRing.conclude, hresult]
      refine ⟨hend, ?_⟩
      change _ = verdict timeout (w₁.answers j)[n]?.join
      rw [← htold, hresult, hw₁.timeout_eq]
      rfl
  refine HostM.Ends.mono hreport (fun _ h => h) fun result w' h => ?_
  cases result with
  | ok report => exact h
  | error error => exact h

/-! ### Issuing the command -/

/-- A task takes a free turn at once, if it looks at all. -/
theorem awaitTurn_of_free (hfree : w.isTaken = false) (hstuck : env.patience = 0 → failed w) :
    HostM.Ends (awaitLock env takeTurn) w failed fun _ w₁ => w₁ = w.hold := by
  unfold awaitLock
  cases hpatience : env.patience with
  | zero => exact hstuck hpatience
  | succ patience =>
    have hpoll := pollTurn_eq w
    rw [hfree, if_neg Bool.false_ne_true] at hpoll
    rw [awaitSome]
    exact HostM.ends_bind_of_ok hpoll rfl

/-- On a full ring nothing changes. -/
theorem runCommand_of_full (h : w.controller.commands.ring.enqueue t = .ok none) :
    (runCommand env t).run w = .ok (.error (.ringFull .command)) w := by
  have hlook : (lift HostM.controller : HostAttempt σ ρ _).run w = .ok (.ok w.controller) w := rfl
  have hissue : w.controller.commands.issue t = .ok (.error (.ringFull .command)) := by
    rw [CommandRing.issue, h]
    rfl
  unfold runCommand
  rw [HostAttempt.bind_of_ok hlook]
  dsimp only
  rw [hissue]
  rfl

theorem runCommand_of_enqueue {address : UInt64} {ring : ProducerRing}
    (h : w.controller.commands.ring.enqueue t = .ok (some (address, ring))) :
    (runCommand env t).run w =
      (awaitReport env w.controller.commands.timeout).run (w.issue address ring) := by
  have hlook : (lift HostM.controller : HostAttempt σ ρ _).run w = .ok (.ok w.controller) w := rfl
  unfold runCommand
  rw [HostAttempt.bind_of_ok hlook]
  dsimp only
  rw [issue_of_enqueue h]
  rfl

/-- A command that starts as number `n` is refused by a full ring and changes nothing, or it becomes
outstanding, and its task is told what has become of it by the end of the wait. -/
theorem doCommand_ends (henv : env.Hears j base count) (hw : w.Tracks j base count n)
    (hfree : w.isTaken = false) (hstuck : env.patience = 0 → failed w)
    (hwait : ∀ w₁, w₁.Waits j base count n w.controller.commands.timeout →
      w₁.bus.platform = env.doorbell 0 0 w.bus.platform →
      HostM.Ends (awaitSignal env takeCompleted w.controller.commands.timeout) w₁ failed
        fun _ => World.Waits j base count n w.controller.commands.timeout) :
    HostM.Ends (doCommand env t).run w failed fun result w' =>
      w'.isTaken = false ∧
      if n = (w.answers j).length + (w.controller.commands.ring.capacity - 1) then
        result = .error (.ringFull .command) ∧ w' = w
      else
        w'.Tracks j base count (n + 1) ∧
        result = verdict w.controller.commands.timeout (w'.answers j)[n]?.join := by
  refine (awaitTurn_of_free hfree hstuck).bind ?_
  rintro - _ rfl
  have henqueue := hw.enqueue_eq t
  split_ifs at henqueue ⊢ with hfull
  · have hrun : (runCommand env t).run w.hold = .ok (.error (.ringFull .command)) w.hold :=
      runCommand_of_full henqueue
    refine HostM.ends_bind_of_ok hrun (HostM.ends_of_ok rfl ⟨rfl, rfl, ?_⟩)
    exact World.release_hold hfree
  · have hwaits := hw.issued hfull t
    have hrun : (runCommand env t).run w.hold =
        (awaitReport env w.controller.commands.timeout).run (w.hold.issue
          (CommandRing.placeOf base count n) (w.controller.commands.ring.accept t)) :=
      runCommand_of_enqueue henqueue
    have hcommand : HostM.Ends (runCommand env t).run w.hold failed fun result w' =>
        w'.Tracks j base count (n + 1) ∧
        result = verdict w.controller.commands.timeout (w'.answers j)[n]?.join := by
      rw [HostM.Ends, hrun]
      exact awaitReport_gives henv hwaits hwait
    refine hcommand.bind fun result w₁ hend => HostM.ends_of_ok rfl ⟨rfl, ?_, hend.2⟩
    obtain ⟨hring, hbase, hsize, hdequeue, hout⟩ := hend.1
    exact ⟨hring, hbase, hsize, hdequeue, hout⟩

/-- What is known at the end of a command that starts as number `n`. -/
abbrev CommandEnds (j : CommandJournal σ) (base : UInt64) (count n : Nat) (w : World σ ρ)
    (result : Except Error CommandReport) (w' : World σ ρ) : Prop :=
  w'.isTaken = false ∧
  if n = (w.answers j).length + (w.controller.commands.ring.capacity - 1) then
    result = .error (.ringFull .command) ∧ w' = w
  else
    w'.Tracks j base count (n + 1) ∧
    result = verdict w.controller.commands.timeout (w'.answers j)[n]?.join

/-- Also a command that ends in a fault has become outstanding, if it has been issued. -/
theorem doCommand_tracks (henv : env.Hears j base count) (hw : w.Tracks j base count n)
    (hfree : w.isTaken = false) :
    HostM.Ends (doCommand env t).run w (fun w' => w' = w ∨ w'.Tracks j base count (n + 1))
      (CommandEnds j base count n w) := by
  refine doCommand_ends henv hw hfree (fun _ => .inl rfl) fun w₁ hw₁ _ => ?_
  exact (waits_awaitSignal henv _ w₁).mono (fun _ hend => .inr (hend hw₁).tracks)
    fun _ _ hend => hend hw₁

/-- A command comes to an end if time passes. -/
theorem doCommand_returns (henv : env.Hears j base count) (hpasses : env.Passes j base count)
    (hw : w.Tracks j base count n) (hfree : w.isTaken = false)
    (hdeadline : (env.now (env.doorbell 0 0 w.bus.platform)).toNat +
      w.controller.commands.timeout.toNat < UInt64.size)
    (hpatience : w.controller.commands.timeout.toNat < env.patience) :
    HostM.Ends (doCommand env t).run w (fun _ => False) (CommandEnds j base count n w) := by
  refine doCommand_ends henv hw hfree (fun hnone => by omega) fun w₁ hw₁ hrung => ?_
  have hnow : HostM.now env w₁ = .ok (env.now w₁.bus.platform) w₁ := rfl
  refine HostM.ends_bind_of_ok hnow (awaitSignalSince_returns ?_ ?_ (by rwa [hrung])
    env.patience hw₁ (by omega) (by omega))
  · intro w₂ hw₂
    exact ⟨_, _, rfl, (waits_takeCompleted w₂).of_ok rfl hw₂, rfl⟩
  · intro w₂ hw₂
    obtain ⟨w₃, hyields, hclock⟩ := hpasses _ _ hw₂.tracks
    exact ⟨w₃, hyields, (((henv.yieldNow _ w₂).of_ok hyields) hw₂.tracks).waits hw₂, hclock⟩

theorem doCommand_ok (henv : env.Hears j base count) (hpasses : env.Passes j base count)
    (hw : w.Tracks j base count n) (hfree : w.isTaken = false)
    (hdeadline : (env.now (env.doorbell 0 0 w.bus.platform)).toNat +
      w.controller.commands.timeout.toNat < UInt64.size)
    (hpatience : w.controller.commands.timeout.toNat < env.patience) :
    ∃ result, (doCommand env t).run w = .ok result (w.after (doCommand env t).run) := by
  have hends := doCommand_returns (t := t) henv hpasses hw hfree hdeadline hpatience
  cases hrun : (doCommand env t).run w with
  | ok result w' =>
    rw [World.after_of_ok hrun]
    exact ⟨result, rfl⟩
  | error fault w' => exact (hends.of_error hrun).elim

/-! ### Runs -/

/-- The worlds of a host with a command ring of `count` TRBs at `base`, and the number of commands
issued so far. Tasks issue commands one after the other, and the controller reports them whenever it
likes. -/
inductive Commanding (j : CommandJournal σ) (base : UInt64) (count : Nat) :
    World σ ρ → Nat → Prop
  | start {w : World σ ρ} (hring : w.controller.commands.ring = .create .command count base)
      (hfree : w.isTaken = false) (hanswers : w.answers j = []) : Commanding j base count w 0
  | meanwhile {w w' : World σ ρ} {n : Nat} (h : Commanding j base count w n)
      (hhears : w.Hears j base count n w') : Commanding j base count w' n
  | call {w w' : World σ ρ} {n : Nat} (h : Commanding j base count w n) {env : Env σ ρ}
      (henv : env.Hears j base count) {t : Trb} {result : Except Error CommandReport}
      (hcall : (doCommand env t).run w = .ok result w') :
      Commanding j base count w' (if w.controller.commands.ring.isFull = true then n else n + 1)

/-- Between two calls no task has the turn, and the count of outstanding commands is right. -/
theorem Commanding.tracks (hcount : 3 ≤ count) (hfits : Ring.Fits base count)
    (h : Commanding j base count w n) : w.Tracks j base count n ∧ w.isTaken = false := by
  induction h with
  | start hring hfree hanswers =>
    refine ⟨?_, hfree⟩
    constructor
    all_goals rw [hring]
    · exact ProducerRing.wellFormed_create .command hcount hfits
    · rfl
    · simp [ProducerRing.create]
    · rw [hanswers]
      exact (Nat.zero_mod _).symm
    · rw [hanswers]
      simp [ProducerRing.outstanding, ProducerRing.create]
  | meanwhile _ hhears ih =>
    obtain ⟨hw, hfree⟩ := ih
    exact ⟨(hhears.tracks hw).1, (hhears.tracks hw).2.trans hfree⟩
  | call _ henv hcall ih =>
    obtain ⟨hw, hfree⟩ := ih
    obtain ⟨hfree', hend⟩ := (doCommand_tracks henv hw hfree).of_ok hcall
    refine ⟨?_, hfree'⟩
    simp only [hw.isFull_iff]
    split at hend
    · rename_i hfull
      rw [if_pos hfull, hend.2]
      exact hw
    · rename_i hroom
      rw [if_neg hroom]
      exact hend.1

/-- Tasks issue commands one after the other, whatever their timeouts, and the controller reports
commands in the order of the ring, each at most once, at any time. Then those are outstanding that
nothing has become of. A command is refused exactly if as many are outstanding as the ring can hold,
and that changes nothing. Otherwise its TRB is put at the next place, and its task is told the
report of this very TRB if it has come in by the end of the wait, and of a timeout if not. -/
theorem commands_get_their_own_reports {layout : Dma.Layout}
    (hlayout : (Ring.layout count).run = .ok (.ok layout)) (hfits : Ring.Fits base count)
    (h : Commanding j base count w n) :
    w.controller.commands.ring.outstanding + (w.answers j).length = n ∧
    w.controller.commands.ring.nextAddress? =
      .ok (if n = (w.answers j).length + (w.controller.commands.ring.capacity - 1) then none
        else some (base + UInt64.ofNat (n % w.controller.commands.ring.capacity * 16))) ∧
    ∀ env : Env σ ρ, env.Hears j base count → ∀ t,
      HostM.Ends (doCommand env t).run w
        (fun w' => w' = w ∨
          w'.controller.commands.ring.outstanding + (w'.answers j).length = n + 1)
        (fun result w' =>
          if n = (w.answers j).length + (w.controller.commands.ring.capacity - 1) then
            result = .error (.ringFull .command) ∧ w' = w
          else
            w'.controller.commands.ring.outstanding + (w'.answers j).length = n + 1 ∧
            result = match (w'.answers j)[n]?.join with
              | some report => .ok report
              | none => .error (.timeout "xHCI command" w.controller.commands.timeout)) ∧
      (env.Passes j base count →
        (env.now (env.doorbell 0 0 w.bus.platform)).toNat +
          w.controller.commands.timeout.toNat < UInt64.size →
        w.controller.commands.timeout.toNat < env.patience →
        ∃ result w', (doCommand env t).run w = .ok result w') := by
  have hcount : 3 ≤ count := Nat.le_trans (by decide) (Ring.layout_bounds hlayout).1
  obtain ⟨hw, hfree⟩ := h.tracks hcount hfits
  refine ⟨hw.outstanding_add, ?_, fun env henv t => ⟨?_, fun hpasses hdeadline hpatience => ?_⟩⟩
  · rw [hw.nextAddress?_eq, CommandRing.placeOf, hw.capacity_eq]
    rfl
  · refine (doCommand_tracks henv hw hfree).mono ?_ ?_
    · exact fun w' hend => hend.imp id World.Tracks.outstanding_add
    · rintro result w' ⟨-, hend⟩
      split_ifs at hend ⊢
      · exact hend
      · obtain ⟨htracks, htold⟩ := hend
        refine ⟨htracks.outstanding_add, htold.trans ?_⟩
        cases (w'.answers j)[n]?.join <;> rfl
  · exact (doCommand_ok henv hpasses hw hfree hdeadline hpatience).imp fun _ hrun => ⟨_, hrun⟩

end Host

/-- A controller that reports the oldest command, or none, each time a task yields. -/
structure Clerk where
  clock : UInt64 := 0
  /-- Whether it reports a command at the next yields. -/
  plan : List Bool := []
  answers : List (Option CommandReport) := []

namespace Clerk

open Host

def journal : CommandJournal Clerk := ⟨answers⟩

/-- The report of command `n`. -/
def reportOf (n : Nat) : CommandReport := ⟨.success, UInt8.ofNat n⟩

/-- The clock stops at the end of time. -/
def tick (c : UInt64) : UInt64 := if c.toNat + 1 < UInt64.size then c + 1 else c

theorem toNat_tick (c : UInt64) : min (c.toNat + 1) (UInt64.size - 1) ≤ (tick c).toNat := by
  unfold tick
  split
  · rename_i hlt
    have hnext : (c + 1).toNat = c.toNat + 1 := by
      rw [UInt64.toNat_add]
      exact Nat.mod_eq_of_lt hlt
    rw [hnext]
    exact Nat.min_le_left _ _
  · omega

/-- Report the oldest command if it is time to. -/
def react : HostM Clerk Unit Unit := do
  let w ← get
  let n := (w.answers journal).length
  if w.bus.platform.plan.head? = some true ∧ w.controller.commands.ring.outstanding ≠ 0 then
    commandCompleted (CommandRing.placeOf 0x1000 Config.minRingSize n) (reportOf n).code
      (reportOf n).slot
    HostM.onPlatform fun s => ⟨tick s.clock, s.plan.tail, s.answers ++ [some (reportOf n)]⟩
  else
    HostM.onPlatform fun s => ⟨tick s.clock, s.plan.tail, s.answers⟩

def env : Env Clerk Unit where
  now s := s.clock
  busAddress _ s := (0, s)
  doorbell _ _ s := s
  setCommandRing _ _ s := s
  setEventRing _ _ _ s := s
  writeEventDequeue _ s := s
  setContextArray _ _ s := s
  yieldNow := react
  complete _ _ := pure ()
  portChanged _ := pure ()
  patience := 3

theorem react_run {n : Nat} {w : World Clerk Unit}
    (hw : w.Tracks journal 0x1000 Config.minRingSize n) : ∃ w', react w = .ok () w' ∧
      w.Hears journal 0x1000 Config.minRingSize n w' ∧
      w'.bus.platform.clock = tick w.bus.platform.clock := by
  by_cases hreports : w.bus.platform.plan.head? = some true ∧
      w.controller.commands.ring.outstanding ≠ 0
  · have hout := hw.outstanding_add
    have hissued : (w.answers journal).length + 0 < n := by omega
    obtain ⟨commands, hcomplete⟩ : ∃ commands, w.controller.commands.complete
        (CommandRing.placeOf 0x1000 Config.minRingSize (w.answers journal).length)
        (reportOf (w.answers journal).length) = .ok commands := ⟨_, hw.complete_eq hissued _⟩
    have hreact : react w = (do
        commandCompleted (CommandRing.placeOf 0x1000 Config.minRingSize
          (w.answers journal).length) (reportOf (w.answers journal).length).code
          (reportOf (w.answers journal).length).slot
        HostM.onPlatform fun s => ⟨tick s.clock, s.plan.tail,
          s.answers ++ [some (reportOf (w.answers journal).length)]⟩ : HostM Clerk Unit Unit) w :=
      congrFun (if_pos hreports) w
    rw [hreact, HostM.bind_of_ok (commandCompleted_run hcomplete)]
    exact ⟨_, rfl, .report 0 _ hissued hcomplete rfl, rfl⟩
  · have hreact : react w =
        (HostM.onPlatform fun s => ⟨tick s.clock, s.plan.tail, s.answers⟩ : HostM Clerk Unit Unit)
          w :=
      congrFun (if_neg hreports) w
    rw [hreact]
    exact ⟨_, rfl, .elsewhere rfl rfl, rfl⟩

theorem hears : env.Hears journal 0x1000 Config.minRingSize where
  yieldNow n w := by
    by_cases hw : w.Tracks journal 0x1000 Config.minRingSize n
    · obtain ⟨w', hrun, hhears, -⟩ := react_run hw
      exact HostM.ends_of_ok hrun fun _ => hhears
    · exact (HostM.ends_trivial _ w).mono (fun _ _ h => absurd h hw) fun _ _ _ h => absurd h hw
  doorbell _ _ _ := rfl

theorem passes : env.Passes journal 0x1000 Config.minRingSize := by
  intro n w hw
  obtain ⟨w', hrun, -, hclock⟩ := react_run hw
  refine ⟨w', hrun, ?_⟩
  change _ ≤ w'.bus.platform.clock.toNat
  rw [hclock]
  exact toNat_tick _

/-- A host whose controller will sleep over the first command. -/
def idle : World Clerk Unit where
  bus := { platform := { plan := [false, false, true, true] } }
  controller := { (default : Controller) with
    commands :=
      { ring := .create .command Config.minRingSize 0x1000, maxSlots := 1, timeout := 2 } }

/-- A command has been issued and given up. -/
def late : World Clerk Unit := idle.after (doCommand env Command.noOp).run

theorem commanding_late : Commanding journal 0x1000 Config.minRingSize late 1 := by
  have hstart : Commanding journal 0x1000 Config.minRingSize idle 0 := .start rfl rfl rfl
  have hroom : ¬ idle.controller.commands.ring.isFull = true := by decide +kernel
  obtain ⟨hw, hfree⟩ := hstart.tracks (by decide) (by decide)
  obtain ⟨result, hrun⟩ := doCommand_ok (t := Command.noOp) hears passes hw hfree
    (by decide +kernel) (by decide +kernel)
  have hcall := hstart.call hears hrun
  rwa [if_neg hroom] at hcall

/-- During the next command both are reported, and the task is told the report of its own. -/
theorem command_reported_after_late_one :
    (Ring.layout Config.minRingSize).run = .ok (.ok ⟨256, 256⟩) ∧
    Ring.Fits 0x1000 Config.minRingSize ∧
    Commanding journal 0x1000 Config.minRingSize late 1 ∧
    late.controller.commands.ring.outstanding = 1 ∧
    late.controller.commands.ring.nextAddress? = .ok (some 0x1010) ∧
    ∃ w', (doCommand env Command.noOp).run late = .ok (.ok ⟨.success, 1⟩) w' ∧
      w'.answers journal = [some ⟨.success, 0⟩, some ⟨.success, 1⟩] ∧
      w'.controller.commands.ring.outstanding = 0 := by
  have hfits : Ring.Fits 0x1000 Config.minRingSize := by decide
  have hlate := commanding_late
  obtain ⟨hout, hplace, hcalls⟩ :=
    commands_get_their_own_reports Ring.layout_minRingSize hfits hlate
  obtain ⟨result, w', hrun⟩ :=
    (hcalls env hears Command.noOp).2 passes (by decide +kernel) (by decide +kernel)
  have hanswers : late.answers journal = [] := by decide +kernel
  have hcapacity : late.controller.commands.ring.capacity = 15 := by decide +kernel
  have hanswers' : (late.after (doCommand env Command.noOp).run).answers journal =
      [some ⟨.success, 0⟩, some ⟨.success, 1⟩] := by decide +kernel
  rw [World.after_of_ok hrun] at hanswers'
  -- What follows is about any such world, so nothing has to be run again.
  generalize late = w at *
  have hend := (hcalls env hears Command.noOp).1.of_ok hrun
  rw [hanswers, hcapacity, if_neg (by decide), hanswers'] at hend
  obtain ⟨hout', rfl⟩ := hend
  rw [hanswers] at hout
  rw [hanswers, hcapacity, if_neg (by decide)] at hplace
  have hnext : (0x1000 : UInt64) + UInt64.ofNat (1 % 15 * 16) = 0x1010 := by decide
  rw [hnext] at hplace
  exact ⟨Ring.layout_minRingSize, hfits, hlate, hout, hplace, w', hrun, hanswers',
    Nat.add_right_cancel hout'⟩

end Clerk

end UsbHost
