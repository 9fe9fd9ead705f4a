import UsbHost.Proofs.Host.Reports
import UsbHost.Proofs.Trb.Drafts

/-!
The controller at work. While a task waits for its command, the controller may carry the command
out: it reads the input context that the TRB points at, changes the output context of the device in
the slot, and reports. What a platform remembers of the commands carried out tells afterwards what
has become of a call: a command that has succeeded has been carried out with the very input context
that the call has made, and one that has failed or has been given up has changed no more than a
controller changes on failure, or nothing.

What a controller does to output contexts is left open here. Other tasks may use endpoints in the
meantime, but they neither come to their turn nor add or take away devices.
-/

namespace UsbHost

variable {σ ρ α : Type}

/-- A command that the controller has carried out: the TRB, the input context that it has read if
there is one to read, and the code that it has reported. -/
structure Job where
  command : Trb
  input : Option Context.Input
  code : CompletionCode
  deriving DecidableEq

/-- What a platform remembers of the commands that have been carried out while a task waited. -/
structure JobJournal (σ : Type) where
  jobs : σ → List Job

/-- How a controller changes the output context of the device in the slot of a command. -/
abbrev Job.Effect := Job → (Context.Device → Context.Device) → Prop

/-- A successful Address Device or Configure Endpoint copies the contexts that are added. -/
def Job.copy (job : Job) (old : Context.Device) : Context.Device :=
  if job.code = .success ∧ (job.command.kind? = some .addressDevice ∨
      job.command.kind? = some .configureEndpoint) then
    job.input.elim old (·.applyTo old)
  else old

/-- A controller that does nothing else to output contexts. -/
def Job.Copies : Job.Effect := fun job f => f = job.copy

/-- Two states of an endpoint that differ in what it is doing only. -/
structure Endpoint.SameSettings (e e' : Endpoint ρ) : Prop where
  owner_eq : e'.owner = e.owner
  traits_eq : e'.traits = e.traits
  maxPacketSize_eq : e'.maxPacketSize = e.maxPacketSize

theorem Endpoint.SameSettings.trans {e e' e'' : Endpoint ρ} (h : e.SameSettings e')
    (h' : e'.SameSettings e'') : e.SameSettings e'' :=
  ⟨h'.owner_eq.trans h.owner_eq, h'.traits_eq.trans h.traits_eq,
    h'.maxPacketSize_eq.trans h.maxPacketSize_eq⟩

namespace World

/-! ### What a controller sees and does -/

/-- No command is under way. -/
structure Idle (w : World σ ρ) : Prop where
  isTaken_eq : w.isTaken = false
  wellFormed : w.controller.commands.ring.WellFormed

def jobs (j : JobJournal σ) (w : World σ ρ) : List Job := j.jobs w.bus.platform

/-- The input contexts that have been put into memory, first to last. -/
def contents (w : World σ ρ) : List Context.Input := w.inputs.toList.map InputBuffer.content

/-- What is in memory at a bus address: the input context that has been put there last. -/
def contentAt? (m : AddressMap σ) (w : World σ ρ) (address : UInt64) : Option Context.Input :=
  (w.inputs.toList.reverse.find? fun b => w.address? m b.id = some address).map
    InputBuffer.content

/-- What the controller does when it carries out a command and reports `code`. -/
def jobFor (m : AddressMap σ) (w : World σ ρ) (t : Trb) (code : CompletionCode) : Job :=
  ⟨t, if t.readsInput then w.contentAt? m t.parameter else none, code⟩

/-- The output context of the device in a slot has been changed. -/
def writeOutput (w : World σ ρ) (slot : UInt8) (f : Context.Device → Context.Device) :
    World σ ρ :=
  match w.controller.slots.device? slot with
  | some d => w.writeContext d f
  | none => w

/-- Endpoints are still there, with the settings that they had. -/
def KeepsEndpoints (w w' : World σ ρ) : Prop :=
  ∀ (i : Nat) (e : Endpoint ρ), w.endpoints[i]? = some e →
    ∃ e', w'.endpoints[i]? = some e' ∧ e.SameSettings e'

/-- Whatever has happened concerns neither devices nor input contexts nor settings of endpoints, nor
the command that is waited for. -/
structure Undisturbed (m : AddressMap σ) (w w' : World σ ρ) : Prop where
  underway?_eq : w'.controller.commands.underway? = w.controller.commands.underway?
  report_eq : w'.controller.commands.report = w.controller.commands.report
  isTaken_eq : w'.isTaken = w.isTaken
  wellFormed : w.controller.commands.ring.WellFormed → w'.controller.commands.ring.WellFormed
  slots_eq : w'.controller.slots = w.controller.slots
  devices_eq : w'.devices = w.devices
  inputs_eq : w'.inputs = w.inputs
  endpoints : w.KeepsEndpoints w'
  addresses : m.Extends w.bus.platform w'.bus.platform

variable (j : JobJournal σ) (m : AddressMap σ) (effect : Job.Effect)

/-- The controller does its work, and the rest of the system goes on. It carries out the command
that is waited for, once at most. -/
inductive Executes : World σ ρ → World σ ρ → Prop
  | undisturbed {w w' : World σ ρ} (h : w.Undisturbed m w') (hjobs : w'.jobs j = w.jobs j) :
      Executes w w'
  | carryOut {w w' : World σ ρ} {address : UInt64} {t : Trb} {report : CommandReport}
      {commands : CommandRing} {f : Context.Device → Context.Device}
      (hunderway : w.controller.commands.underway? = some (address, t))
      (hreport : w.controller.commands.report = none)
      (hcomplete : w.controller.commands.complete address report = .ok commands)
      (hreported : commands.report = some report)
      (heffect : effect (w.jobFor m t report.code) f)
      (h : ((w.setCommands commands).writeOutput t.slot f).Undisturbed m w')
      (hjobs : w'.jobs j = w.jobs j ++ [w.jobFor m t report.code]) : Executes w w'
  | trans {w w₁ w₂ : World σ ρ} (h : Executes w w₁) (h' : Executes w₁ w₂) : Executes w w₂

/-- The output contexts after a job, if one has been done. -/
def Outputs (w : World σ ρ) (done : Option Job) (w' : World σ ρ) : Prop :=
  match done with
  | none => w'.devices = w.devices
  | some job => ∃ f, effect job f ∧ w'.devices = (w.writeOutput job.command.slot f).devices

/-- What has become of a world in which input contexts have been made, and a job may have been
done. -/
structure Did (w : World σ ρ) (made : List Context.Input) (done : Option Job) (w' : World σ ρ) :
    Prop where
  contents_eq : w'.contents = w.contents ++ made
  jobs_eq : w'.jobs j = w.jobs j ++ done.toList
  outputs : w.Outputs effect done w'
  slots_eq : w'.controller.slots = w.controller.slots
  endpoints : w.KeepsEndpoints w'
  addresses : m.Extends w.bus.platform w'.bus.platform

/-- A command with its input context, if there is one: it is the one put into memory last. -/
def Brings (w : World σ ρ) (t : Trb) : Option Context.Input → Prop
  | none => t.readsInput = false
  | some content => t.readsInput = true ∧ ∃ b, w.inputs.back? = some b ∧ b.content = content ∧
      w.address? m b.id = some t.parameter

/-- A task that has issued `t` in `w` waits for its report, or finds it. -/
structure Attended (w : World σ ρ) (t : Trb) (input? : Option Context.Input)
    (done : Option Job) (w' : World σ ρ) : Prop where
  did : w.Did j m effect [] done w'
  inputs_eq : w'.inputs = w.inputs
  wellFormed : w'.controller.commands.ring.WellFormed
  underway : ∃ address, w'.controller.commands.underway? = some (address, t)
  report_eq : w'.controller.commands.report.map CommandReport.code = done.map Job.code
  job_eq : ∀ job ∈ done, job.command = t ∧ job.input = input?

variable {j m effect} {w w₁ w₂ : World σ ρ} {t : Trb} {input? : Option Context.Input}
  {done : Option Job}

/-! ### Frames -/

theorem KeepsEndpoints.of_eq (h : w₁.endpoints = w.endpoints) : w.KeepsEndpoints w₁ :=
  fun i e he => ⟨e, by rwa [h], rfl, rfl, rfl⟩

theorem KeepsEndpoints.trans (h : w.KeepsEndpoints w₁) (h' : w₁.KeepsEndpoints w₂) :
    w.KeepsEndpoints w₂ := by
  intro i e he
  obtain ⟨e₁, he₁, hsame⟩ := h i e he
  obtain ⟨e₂, he₂, hsame'⟩ := h' i e₁ he₁
  exact ⟨e₂, he₂, hsame.trans hsame'⟩

theorem writeOutput_frame (w : World σ ρ) (slot : UInt8) (f : Context.Device → Context.Device) :
    (w.writeOutput slot f).bus = w.bus ∧ (w.writeOutput slot f).controller = w.controller ∧
      (w.writeOutput slot f).endpoints = w.endpoints ∧
      (w.writeOutput slot f).inputs = w.inputs := by
  unfold writeOutput
  split
  · exact ⟨rfl, rfl, rfl, rfl⟩
  · exact ⟨rfl, rfl, rfl, rfl⟩

/-- What is written depends on the slots and the devices only. -/
theorem devices_writeOutput (hslots : w₁.controller.slots = w.controller.slots)
    (hdevices : w₁.devices = w.devices) (slot : UInt8) (f : Context.Device → Context.Device) :
    (w₁.writeOutput slot f).devices = (w.writeOutput slot f).devices := by
  unfold writeOutput
  rw [hslots]
  split
  · rw [writeContext, writeContext, hdevices]
  · exact hdevices

theorem Executes.wellFormed (h : w.Executes j m effect w₁)
    (hw : w.controller.commands.ring.WellFormed) : w₁.controller.commands.ring.WellFormed := by
  induction h with
  | undisturbed h _ => exact h.wellFormed hw
  | carryOut _ _ hcomplete _ _ h _ =>
    refine h.wellFormed ?_
    rw [(writeOutput_frame _ _ _).2.1]
    exact (CommandRing.complete_frame hw hcomplete).1
  | trans _ _ ih ih' => exact ih' (ih hw)

/-- What came before may have put input contexts into memory and made endpoints. -/
theorem Did.after_frame {made made' : List Context.Input} (h : w₁.Did j m effect made done w₂)
    (hcontents : w₁.contents = w.contents ++ made') (hjobs : w₁.jobs j = w.jobs j)
    (hdevices : w₁.devices = w.devices) (hslots : w₁.controller.slots = w.controller.slots)
    (hendpoints : w.KeepsEndpoints w₁) (haddresses : m.Extends w.bus.platform w₁.bus.platform) :
    w.Did j m effect (made' ++ made) done w₂ where
  contents_eq := by rw [h.contents_eq, hcontents, List.append_assoc]
  jobs_eq := by rw [h.jobs_eq, hjobs]
  outputs := by
    have houtputs := h.outputs
    cases done with
    | none => exact houtputs.trans hdevices
    | some job =>
      obtain ⟨f, hf, houtput⟩ := houtputs
      exact ⟨f, hf, houtput.trans (devices_writeOutput hslots hdevices _ f)⟩
  slots_eq := h.slots_eq.trans hslots
  endpoints := hendpoints.trans h.endpoints
  addresses := haddresses.trans h.addresses

/-! ### The wait for a command -/

theorem Brings.of_frame (h : w.Brings m t input?) (hinputs : w₁.inputs = w.inputs)
    (haddresses : m.Extends w.bus.platform w₁.bus.platform) : w₁.Brings m t input? := by
  cases input? with
  | none => exact h
  | some content =>
    obtain ⟨hreads, b, hlast, hcontent, hplace⟩ := h
    exact ⟨hreads, b, by rwa [hinputs], hcontent, haddresses _ _ hplace⟩

theorem Brings.withCycle (h : w.Brings m t input?) (on : Bool) :
    w.Brings m (t.withCycle on) input? := by
  cases input? with
  | none => exact (t.readsInput_withCycle on).trans h
  | some content =>
    obtain ⟨hreads, b, hlast, hcontent, hplace⟩ := h
    exact ⟨(t.readsInput_withCycle on).trans hreads, b, hlast, hcontent, hplace⟩

/-- The controller finds what the command brings along. -/
theorem Brings.jobFor_eq (h : w.Brings m t input?) (code : CompletionCode) :
    w.jobFor m t code = ⟨t, input?, code⟩ := by
  cases input? with
  | none =>
    rw [jobFor, show t.readsInput = false from h]
    rfl
  | some content =>
    obtain ⟨hreads, b, hlast, hcontent, hplace⟩ := h
    have hfound : w.contentAt? m t.parameter = some content := by
      obtain ⟨rest, hinputs⟩ : ∃ rest, w.inputs.toList.reverse = b :: rest := by
        rw [← Array.getLast?_toList, ← List.head?_reverse] at hlast
        exact List.head?_eq_some_iff.1 hlast
      rw [contentAt?, hinputs, List.find?_cons_of_pos (by simpa using hplace), Option.map_some,
        hcontent]
    rw [jobFor, hreads, hfound]
    rfl

theorem Outputs.of_devices (h : w.Outputs effect done w₁) (hdevices : w₂.devices = w₁.devices) :
    w.Outputs effect done w₂ := by
  cases done with
  | none => exact hdevices.trans h
  | some job =>
    obtain ⟨f, hf, houtput⟩ := h
    exact ⟨f, hf, hdevices.trans houtput⟩

theorem Did.refl (w : World σ ρ) : w.Did j m effect [] none w :=
  ⟨(List.append_nil _).symm, (List.append_nil _).symm, rfl, rfl, .of_eq rfl, .refl m _⟩

/-- What comes afterwards may concern neither devices nor settings of endpoints. -/
theorem Did.of_frame {made : List Context.Input} (h : w.Did j m effect made done w₁)
    (hcontents : w₂.contents = w₁.contents) (hjobs : w₂.jobs j = w₁.jobs j)
    (hdevices : w₂.devices = w₁.devices) (hslots : w₂.controller.slots = w₁.controller.slots)
    (hendpoints : w₁.KeepsEndpoints w₂) (haddresses : m.Extends w₁.bus.platform w₂.bus.platform) :
    w.Did j m effect made done w₂ where
  contents_eq := hcontents.trans h.contents_eq
  jobs_eq := hjobs.trans h.jobs_eq
  outputs := h.outputs.of_devices hdevices
  slots_eq := hslots.trans h.slots_eq
  endpoints := h.endpoints.trans hendpoints
  addresses := h.addresses.trans haddresses

/-- What the controller has written when it has carried out a command. -/
theorem Did.carryOut {made : List Context.Input} {commands : CommandRing} {job : Job}
    {f : Context.Device → Context.Device} (hdid : w.Did j m effect made none w₁)
    (heffect : effect job f)
    (h : ((w₁.setCommands commands).writeOutput job.command.slot f).Undisturbed m w₂)
    (hjobs : w₂.jobs j = w₁.jobs j ++ [job]) : w.Did j m effect made (some job) w₂ := by
  obtain ⟨hbus, hcontroller, hendpoints, hinputs⟩ :=
    writeOutput_frame (w₁.setCommands commands) job.command.slot f
  constructor
  case contents_eq =>
    rw [contents, h.inputs_eq, hinputs]
    exact hdid.contents_eq
  case jobs_eq =>
    rw [hjobs, hdid.jobs_eq, Option.toList_none, List.append_nil]
    rfl
  case outputs =>
    have hslots : (w₁.setCommands commands).controller.slots = w.controller.slots := hdid.slots_eq
    have hdevices : (w₁.setCommands commands).devices = w.devices := hdid.outputs
    exact ⟨f, heffect, h.devices_eq.trans (devices_writeOutput hslots hdevices _ f)⟩
  case slots_eq =>
    rw [h.slots_eq, hcontroller]
    exact hdid.slots_eq
  case endpoints =>
    exact hdid.endpoints.trans ((KeepsEndpoints.of_eq hendpoints).trans h.endpoints)
  case addresses =>
    have haddresses := h.addresses
    rw [hbus] at haddresses
    exact hdid.addresses.trans haddresses

/-- The command is carried out. -/
theorem Attended.carryOut {commands : CommandRing} {f : Context.Device → Context.Device}
    {address : UInt64} {t' : Trb} {report : CommandReport} (hbrings : w.Brings m t input?)
    (hw : w.Attended j m effect t input? done w₁)
    (hunderway : w₁.controller.commands.underway? = some (address, t'))
    (hreport : w₁.controller.commands.report = none)
    (hcomplete : w₁.controller.commands.complete address report = .ok commands)
    (hreported : commands.report = some report)
    (heffect : effect (w₁.jobFor m t' report.code) f)
    (h : ((w₁.setCommands commands).writeOutput t'.slot f).Undisturbed m w₂)
    (hjobs : w₂.jobs j = w₁.jobs j ++ [w₁.jobFor m t' report.code]) :
    w.Attended j m effect t input? (some ⟨t, input?, report.code⟩) w₂ := by
  obtain ⟨place, hplace⟩ := hw.underway
  obtain ⟨rfl, rfl⟩ : place = address ∧ t = t' := by
    have hsame := hplace.symm.trans hunderway
    rw [Option.some.injEq, Prod.mk.injEq] at hsame
    exact hsame
  obtain rfl : done = none := by
    have hnone := hw.report_eq
    rw [hreport] at hnone
    exact Option.map_eq_none_iff.1 hnone.symm
  -- The controller reads memory now and not when the command was issued.
  have hjob := (hbrings.of_frame hw.inputs_eq hw.did.addresses).jobFor_eq report.code
  rw [hjob] at heffect hjobs
  obtain ⟨hring, -, -, hsame⟩ := CommandRing.complete_frame hw.wellFormed hcomplete
  obtain ⟨-, hcontroller, -, hinputs⟩ := writeOutput_frame (w₁.setCommands commands) t.slot f
  have hcommands : ((w₁.setCommands commands).writeOutput t.slot f).controller.commands =
      commands := by
    rw [hcontroller]
    rfl
  constructor
  case did => exact hw.did.carryOut heffect h hjobs
  case inputs_eq => exact h.inputs_eq.trans (hinputs.trans hw.inputs_eq)
  case wellFormed =>
    refine h.wellFormed ?_
    rw [hcommands]
    exact hring
  case underway =>
    refine ⟨place, ?_⟩
    rw [h.underway?_eq, hcommands, hsame]
    exact hunderway
  case report_eq =>
    rw [h.report_eq, hcommands, hreported]
    rfl
  case job_eq =>
    rintro job hjob'
    obtain rfl := Option.some.inj hjob'
    exact ⟨rfl, rfl⟩

/-- What the surroundings do while a task waits. -/
theorem Executes.attended (h : w₁.Executes j m effect w₂) (hbrings : w.Brings m t input?)
    (hw : w.Attended j m effect t input? done w₁) :
    ∃ done', w.Attended j m effect t input? done' w₂ := by
  induction h generalizing done with
  | undisturbed h hjobs =>
    obtain ⟨place, hplace⟩ := hw.underway
    exact ⟨done, hw.did.of_frame (by rw [contents, h.inputs_eq, contents]) hjobs h.devices_eq
      h.slots_eq h.endpoints h.addresses, h.inputs_eq.trans hw.inputs_eq,
      h.wellFormed hw.wellFormed, ⟨place, h.underway?_eq.trans hplace⟩,
      h.report_eq ▸ hw.report_eq, hw.job_eq⟩
  | carryOut hunderway hreport hcomplete hreported heffect h hjobs =>
    exact ⟨_, hw.carryOut hbrings hunderway hreport hcomplete hreported heffect h hjobs⟩
  | trans _ _ ih ih' =>
    obtain ⟨done₁, hw₁⟩ := ih hw
    exact ih' hw₁

end World

/-- The controller does its work while a computation runs. -/
def Conduct.serving (j : JobJournal σ) (m : AddressMap σ) (effect : Job.Effect) :
    Conduct σ ρ where
  Leads w w' := w.controller.commands.ring.WellFormed → w.Executes j m effect w'
  refl _ _ := .undisturbed ⟨rfl, rfl, rfl, id, rfl, rfl, rfl, .of_eq rfl, .refl m _⟩ rfl
  trans h h' hw := (h hw).trans (h' ((h hw).wellFormed hw))

/-- Surroundings with a controller at work. -/
structure Env.Serves (j : JobJournal σ) (m : AddressMap σ) (effect : Job.Effect)
    (env : Env σ ρ) : Prop where
  platform : env.toPlatform.Respects m
  yieldNow : env.yieldNow.Obeys (.serving j m effect)
  busAddress : ∀ id s, j.jobs (env.busAddress id s).2 = j.jobs s
  doorbell : ∀ slot target s, j.jobs (env.doorbell slot target s) = j.jobs s

namespace Host

open HostAttempt (lift)

variable {env : Env σ ρ} {j : JobJournal σ} {m : AddressMap σ} {effect : Job.Effect}
  {w w₁ : World σ ρ} {t : Trb} {input? : Option Context.Input}

/-! ### Commands -/

/-- What is known in each case is known of the result. -/
theorem ends_run {s : Type} {x : ExceptT Error (EStateM Fault s) α} {w : s} {failed : s → Prop}
    {P : Except Error α → s → Prop} (h : HostAttempt.Ends x w failed
      (fun error => P (.error error)) fun a => P (.ok a)) : HostM.Ends x.run w failed P := by
  refine HostM.Ends.mono h (fun _ hw' => hw') fun result w' hw' => ?_
  cases result with
  | ok a => exact hw'
  | error error => exact hw'

/-- A command that was not reported: the ring was full, or time was up. -/
def IsLost (error : Error) : Prop :=
  error = .ringFull .command ∨ ∃ timeout, error = .timeout "xHCI command" timeout

/-- A task is told the report of the job that has been done, or that there is none. -/
def Told (result : Except Error CommandReport) : Option Job → Prop
  | none => ∃ error, result = .error error ∧ IsLost error
  | some job => ∃ slot, result = .ok ⟨job.code, slot⟩

/-- What is known when a command is over: a job has been done with the input context that the
command has brought along, or nothing has been done. -/
structure CommandOver (j : JobJournal σ) (m : AddressMap σ) (effect : Job.Effect) (w : World σ ρ)
    (t : Trb) (input? : Option Context.Input) (done : Option Job) (w' : World σ ρ) : Prop where
  idle : w'.Idle
  did : w.Did j m effect [] done w'
  inputs_eq : w'.inputs = w.inputs
  job_eq : ∀ job ∈ done, (∃ on, job.command = t.withCycle on) ∧ job.input = input?

/-- Consuming the signal changes nothing for the task that waits. -/
theorem attended_takeCompleted : (takeCompleted : HostM σ ρ Bool).Obeys
    (.keeping fun w₁ => ∃ done, w.Attended j m effect t input? done w₁) := by
  intro w₁
  refine HostM.ends_of_ok rfl ?_
  rintro ⟨done, hw⟩
  exact ⟨done, hw.did.of_frame rfl rfl rfl rfl (.of_eq rfl) (.refl m _), hw.inputs_eq,
    hw.wellFormed, hw.underway, hw.report_eq, hw.job_eq⟩

theorem attended_awaitSignal (henv : env.Serves j m effect) (hbrings : w.Brings m t input?)
    (timeout : UInt64) : (awaitSignal env takeCompleted timeout).Obeys
      (.keeping fun w₁ => ∃ done, w.Attended j m effect t input? done w₁) := by
  have hserved : ∀ {w₁ w₂ : World σ ρ}, (Conduct.serving j m effect).Leads w₁ w₂ →
      (∃ done, w.Attended j m effect t input? done w₁) →
      ∃ done, w.Attended j m effect t input? done w₂ := by
    rintro w₁ w₂ hleads ⟨done, hw⟩
    exact (hleads hw.wellFormed).attended hbrings hw
  exact HostM.Obeys.awaitSignal (fun w₁ => (henv.yieldNow w₁).mono (fun _ => hserved)
    fun _ _ => hserved) attended_takeCompleted timeout

/-- The task that has stopped waiting is told the report, if it has come. -/
theorem awaitReport_over (henv : env.Serves j m effect) (hbrings : w.Brings m t input?)
    (hw : w.Attended j m effect t input? none w₁) (timeout : UInt64) :
    HostM.Ends (awaitReport env timeout).run w₁ (fun _ => True) fun result w' =>
      ∃ done, w.Did j m effect [] done w' ∧ w'.inputs = w.inputs ∧
        w'.controller.commands.ring.WellFormed ∧
        (∀ job ∈ done, job.command = t ∧ job.input = input?) ∧ Told result done := by
  have hring : (lift (HostM.onPlatform (env.doorbell 0 0)) : HostAttempt σ ρ Unit).run w₁ =
      .ok (.ok ()) { w₁ with bus.platform := env.doorbell 0 0 w₁.bus.platform } := rfl
  have hrung : ∃ done, w.Attended j m effect t input? done
      { w₁ with bus.platform := env.doorbell 0 0 w₁.bus.platform } :=
    ⟨none, hw.did.of_frame rfl (henv.doorbell 0 0 _) rfl rfl (.of_eq rfl)
      (henv.platform.doorbell 0 0 _), hw.inputs_eq, hw.wellFormed, hw.underway, hw.report_eq,
      hw.job_eq⟩
  have hwait := (attended_awaitSignal henv hbrings timeout _).mono (fun _ _ => trivial)
    fun _ _ hend => hend hrung
  refine ends_run (HostAttempt.ends_bind_of_ok hring
    ((HostAttempt.ends_lift hwait).bind fun _ w₂ ⟨done, hw₂⟩ => ?_))
  have hlook : (lift HostM.controller : HostAttempt σ ρ _).run w₂ = .ok (.ok w₂.controller) w₂ :=
    rfl
  have hdid : w.Did j m effect [] done (w₂.setCommands w₂.controller.commands.conclude.2) :=
    hw₂.did.of_frame rfl rfl rfl rfl (.of_eq rfl) (.refl m _)
  have hend := hw₂.report_eq
  refine HostAttempt.ends_bind_of_ok hlook ?_
  cases hreport : w₂.controller.commands.report with
  | some report =>
    simp only [CommandRing.conclude, hreport]
    rw [hreport] at hend
    obtain ⟨job, rfl, hcode⟩ := Option.map_eq_some_iff.1 hend.symm
    refine ⟨some job, hdid, hw₂.inputs_eq, hw₂.wellFormed, hw₂.job_eq, report.slot, ?_⟩
    rw [hcode]
  | none =>
    simp only [CommandRing.conclude, hreport]
    rw [hreport] at hend
    obtain rfl := Option.map_eq_none_iff.1 hend.symm
    exact ⟨none, hdid, hw₂.inputs_eq, hw₂.wellFormed, hw₂.job_eq, _, rfl, .inr ⟨_, rfl⟩⟩

/-- A command comes to an end with its turn given up. -/
theorem doCommand_over (henv : env.Serves j m effect) (hw : w.Idle)
    (hbrings : w.Brings m t input?) :
    HostM.Ends (doCommand env t).run w (fun _ => True) fun result w' =>
      ∃ done, CommandOver j m effect w t input? done w' ∧ Told result done := by
  refine (awaitTurn_of_free hw.isTaken_eq fun _ => trivial).bind ?_
  rintro - _ rfl
  obtain ⟨place, henqueue⟩ : ∃ place, w.controller.commands.ring.enqueue t = .ok place :=
    ⟨_, ProducerRing.enqueue_eq hw.wellFormed t⟩
  cases place with
  | none =>
    have hrun : (runCommand env t).run w.hold = .ok (.error (.ringFull .command)) w.hold :=
      runCommand_of_full henqueue
    refine HostM.ends_bind_of_ok hrun (HostM.ends_of_ok rfl ⟨none, ?_, _, rfl, .inl rfl⟩)
    change CommandOver j m effect w t input? none w.hold.release
    rw [World.release_hold hw.isTaken_eq]
    exact ⟨hw, .refl w, rfl, nofun⟩
  | some place =>
    obtain ⟨address, ring⟩ := place
    have hrun : (runCommand env t).run w.hold =
        (awaitReport env w.controller.commands.timeout).run (w.hold.issue address ring) :=
      runCommand_of_enqueue henqueue
    obtain ⟨hring, hunderway⟩ := CommandRing.underway?_of_enqueue hw.wellFormed henqueue
    have hissued : w.Attended j m effect (t.withCycle w.controller.commands.ring.cycle) input?
        none (w.hold.issue address ring) :=
      ⟨.of_frame (.refl w) rfl rfl rfl rfl (.of_eq rfl) (.refl m _), rfl, hring,
        ⟨address, hunderway _ rfl rfl⟩, rfl, nofun⟩
    have hcommand := awaitReport_over henv (hbrings.withCycle _) hissued
      w.controller.commands.timeout
    rw [HostM.Ends, ← hrun] at hcommand
    refine HostM.Ends.bind hcommand fun result w₁ hend => HostM.ends_of_ok rfl ?_
    obtain ⟨done, hdid, hinputs, hring₁, hjob, htold⟩ := hend
    refine ⟨done, ⟨⟨rfl, hring₁⟩, hdid.of_frame rfl rfl rfl rfl (.of_eq rfl) (.refl m _),
      hinputs, fun job hmem => ?_⟩, htold⟩
    exact ⟨⟨_, (hjob job hmem).1⟩, (hjob job hmem).2⟩

/-- Why a command that had to succeed has not: it has been reported with another code, or not at
all. -/
def IsFailure (error : Error) : Option Job → Prop
  | none => IsLost error
  | some job => job.code ≠ .success ∧ error = .commandFailed job.code

/-- A command that has to succeed. -/
theorem command_over (henv : env.Serves j m effect) (hw : w.Idle)
    (hbrings : w.Brings m t input?) :
    HostAttempt.Ends (command env t) w (fun _ => True)
      (fun error w' => ∃ done, CommandOver j m effect w t input? done w' ∧ IsFailure error done)
      fun _ w' => ∃ job, CommandOver j m effect w t input? (some job) w' ∧
        job.code = .success := by
  have hdone : HostAttempt.Ends (doCommand env t) w (fun _ => True)
      (fun error w' => ∃ done, CommandOver j m effect w t input? done w' ∧
        Told (.error error) done)
      (fun report w' => ∃ done, CommandOver j m effect w t input? done w' ∧
        Told (.ok report) done) := by
    refine HostM.Ends.mono (doCommand_over henv hw hbrings) (fun _ h => h) fun result w' h => ?_
    cases result with
    | ok report => exact h
    | error error => exact h
  unfold command
  rcases hrun : (doCommand env t).run w with ⟨error | report, w'⟩ | ⟨fault, w'⟩
  · refine HostAttempt.ends_of_refused (HostAttempt.bind_of_refused hrun) ?_
    obtain ⟨done, hover, htold⟩ := hdone.of_refused hrun
    cases done with
    | none =>
      obtain ⟨_, herror, hlost⟩ := htold
      obtain rfl := Except.error.inj herror
      exact ⟨none, hover, hlost⟩
    | some job => exact nomatch htold
  · refine HostAttempt.ends_bind_of_ok hrun ?_
    obtain ⟨done, hover, htold⟩ := hdone.of_ok hrun
    cases done with
    | none => exact nomatch htold
    | some job =>
      obtain ⟨slot, hreport⟩ := htold
      obtain rfl := Except.ok.inj hreport
      by_cases hcode : job.code = .success
      · have hcheck : CommandReport.check ⟨job.code, slot⟩ = .ok ⟨job.code, slot⟩ :=
          if_pos (by simp [CompletionCode.isSuccess, hcode])
        rw [hcheck]
        exact ⟨job, hover, hcode⟩
      · have hcheck : CommandReport.check ⟨job.code, slot⟩ = .error (.commandFailed job.code) :=
          if_neg (by simp [CompletionCode.isSuccess, hcode])
        rw [hcheck]
        exact ⟨some job, hover, hcode, rfl⟩
  · exact HostAttempt.ends_of_error (HostAttempt.bind_of_error hrun) trivial

/-! ### Calls with an input context -/

/-- Commands of one kind, for the device in a slot, with an input context. -/
structure ForInput (kind : Trb.Kind) (slot : UInt8) (c : UInt64 → Trb) : Prop where
  parameter_eq : ∀ address, (c address).parameter = address
  kind?_eq : ∀ address, (c address).kind? = some kind
  slot_eq : ∀ address, (c address).slot = slot
  readsInput_eq : ∀ address, (c address).readsInput = true

theorem forInput_command {kind : Trb.Kind} (slot : UInt8) {flags : Trb.Flags}
    (hflags : flags.bits &&& Trb.Draft.lowFlags = flags.bits)
    (hreads : ∀ t : Trb, t.kind? = some kind → t.readsInput = true) :
    ForInput kind slot fun address => .command kind address slot flags where
  parameter_eq _ := rfl
  kind?_eq address := (Trb.Draft.fits_command kind address slot hflags).readIn.kind?_eq
  slot_eq address := (Trb.Draft.fits_command kind address slot hflags).readIn.slot_eq slot rfl
  readsInput_eq address :=
    hreads _ (Trb.Draft.fits_command kind address slot hflags).readIn.kind?_eq

theorem forInput_addressDevice (slot : UInt8) (setAddress : Bool) :
    ForInput .addressDevice slot fun address => Command.addressDevice slot address setAddress :=
  forInput_command slot (by cases setAddress <;> rfl) fun t ht => by rw [Trb.readsInput, ht]

theorem forInput_configureEndpoint (slot : UInt8) (deconfigure : Bool) :
    ForInput .configureEndpoint slot
      fun address => Command.configureEndpoint slot address deconfigure :=
  forInput_command slot (by cases deconfigure <;> rfl) fun t ht => by rw [Trb.readsInput, ht]

theorem forInput_evaluateContext (slot : UInt8) :
    ForInput .evaluateContext slot (Command.evaluateContext slot) :=
  forInput_command slot rfl fun t ht => by rw [Trb.readsInput, ht]

/-- What is known when a call has brought an input context along to its command. -/
structure CallOver (j : JobJournal σ) (m : AddressMap σ) (effect : Job.Effect) (kind : Trb.Kind)
    (slot : UInt8) (w : World σ ρ) (content : Context.Input) (done : Option Job)
    (w' : World σ ρ) : Prop where
  idle : w'.Idle
  did : w.Did j m effect [content] done w'
  kind?_eq : ∀ job ∈ done, job.command.kind? = some kind
  slot_eq : ∀ job ∈ done, job.command.slot = slot
  input_eq : ∀ job ∈ done, job.input = some content

@[simp] theorem contents_addInput (w : World σ ρ) (content : Context.Input) :
    (w.addInput content).contents = w.contents ++ [content] := by
  simp [World.contents, World.addInput]

@[simp] theorem contents_freeInput (w : World σ ρ) (id : Dma.BufferId) :
    (w.freeInput id).contents = w.contents := by
  rw [World.contents, World.contents, World.freeInput, Array.toList_map, List.map_map]
  refine List.map_congr_left fun b _ => ?_
  rw [Function.comp_apply]
  split <;> rfl

/-- The input context `content` is put into memory, or nothing is. -/
theorem inputBuffer_gives (content : Context.Input) (w : World σ ρ) :
    HostAttempt.AllOrNothing (HostAttempt.inputBuffer content : HostAttempt σ ρ _) w fun id w' =>
      id = ⟨w.bus.nextBuffer⟩ ∧ w' = w.addInput content := by
  refine HostAttempt.Ends.bind (HostAttempt.onBus_gives
    (BusAttempt.structureBuffer_gives Context.Input.byteSize w.bus)) ?_
  rintro _ _ ⟨_, ⟨rfl, rfl⟩, rfl⟩
  exact ⟨rfl, rfl⟩

/-- An input context that has been worked out is put into memory, or nothing is. -/
theorem makes_of_content {C : Context.Input → Prop} {result : Except Fault Context.Input}
    {content : Context.Input} (h : result = .ok content) (hcontent : C content) :
    HostAttempt.AllOrNothing (do HostAttempt.inputBuffer (← lift (HostM.ofExcept result)) :
        HostAttempt σ ρ Dma.BufferId) w fun id w' =>
      id = ⟨w.bus.nextBuffer⟩ ∧ ∃ content, C content ∧ w' = w.addInput content := by
  subst h
  refine HostAttempt.ends_bind_of_ok (a := content) rfl
    ((inputBuffer_gives content w).mono (fun _ h => h) (fun _ _ h => h) ?_)
  rintro id w' ⟨hid, hw'⟩
  exact ⟨hid, content, hcontent, hw'⟩

/-- A call is over when its command is, and its input context has been freed. -/
theorem CommandOver.callOver {w w₁ w₂ : World σ ρ} {kind : Trb.Kind} {slot : UInt8}
    {c : UInt64 → Trb} {pointer : UInt64} {content : Context.Input} {done : Option Job}
    (h : CommandOver j m effect w₁ (c pointer) (some content) done w₂) (hc : ForInput kind slot c)
    (hdid : w.Did j m effect [content] done w₂) (id : Dma.BufferId) :
    CallOver j m effect kind slot w content done (w₂.freeInput id) where
  idle := ⟨h.idle.isTaken_eq, h.idle.wellFormed⟩
  did := hdid.of_frame (contents_freeInput _ _) rfl rfl rfl (.of_eq rfl) (.refl m _)
  kind?_eq job hjob := by
    obtain ⟨⟨on, hcommand⟩, -⟩ := h.job_eq job hjob
    simp [hcommand, hc.kind?_eq]
  slot_eq job hjob := by
    obtain ⟨⟨on, hcommand⟩, -⟩ := h.job_eq job hjob
    simp [hcommand, hc.slot_eq]
  input_eq job hjob := (h.job_eq job hjob).2

/-- A call that makes an input context for its command comes to an end. It has come to nothing if
there was no memory for the context. -/
theorem withInput_over {make : HostAttempt σ ρ Dma.BufferId} {C : Context.Input → Prop}
    {kind : Trb.Kind} {slot : UInt8} {c : UInt64 → Trb} (henv : env.Serves j m effect)
    (hw : w.Idle) (hc : ForInput kind slot c)
    (hmake : HostAttempt.AllOrNothing make w fun id w' =>
      id = ⟨w.bus.nextBuffer⟩ ∧ ∃ content, C content ∧ w' = w.addInput content) :
    HostAttempt.Ends (withInput make fun input => do
        let pointer ← lift (HostM.translate env input)
        discard (command env (c pointer))) w (fun _ => True)
      (fun error w' => w' = w ∨ ∃ content done, C content ∧
        CallOver j m effect kind slot w content done w' ∧ IsFailure error done)
      fun _ w' => ∃ content job, C content ∧
        CallOver j m effect kind slot w content (some job) w' ∧ job.code = .success := by
  refine hmake.bind_ends trivial (fun _ => .inl rfl) ?_
  rintro _ _ ⟨rfl, content, hcontent, rfl⟩
  let pointer := (env.busAddress ⟨w.bus.nextBuffer⟩ w.bus.platform).1
  let w₁ := (w.addInput content).translated env ⟨w.bus.nextBuffer⟩
  have htranslate : (lift (HostM.translate env ⟨w.bus.nextBuffer⟩) : HostAttempt σ ρ UInt64).run
      (w.addInput content) = .ok (.ok pointer) w₁ := rfl
  have hidle : w₁.Idle := ⟨hw.isTaken_eq, hw.wellFormed⟩
  have hbrings : w₁.Brings m (c pointer) (some content) := by
    refine ⟨hc.readsInput_eq _, ⟨⟨w.bus.nextBuffer⟩, content, true⟩, Array.back?_push, rfl, ?_⟩
    rw [hc.parameter_eq]
    exact henv.platform.busAddress_eq _ _
  have hover : ∀ done w₂, CommandOver j m effect w₁ (c pointer) (some content) done w₂ →
      CallOver j m effect kind slot w content done (w₂.freeInput ⟨w.bus.nextBuffer⟩) := by
    intro done w₂ hend
    exact hend.callOver hc (hend.did.after_frame (contents_addInput w content)
      (henv.busAddress _ _) rfl rfl (.of_eq rfl) (henv.platform.busAddress _ _)) _
  have huse : HostAttempt.Ends (do
      let pointer ← lift (HostM.translate env ⟨w.bus.nextBuffer⟩)
      discard (command env (c pointer)) : HostAttempt σ ρ Unit) (w.addInput content)
      (fun _ => True)
      (fun error w₂ => ∃ done, CommandOver j m effect w₁ (c pointer) (some content) done w₂ ∧
        IsFailure error done)
      (fun _ w₂ => ∃ job, CommandOver j m effect w₁ (c pointer) (some content) (some job) w₂ ∧
        job.code = .success) :=
    HostAttempt.ends_bind_of_ok htranslate ((command_over henv hidle hbrings).bind
      fun _ _ hend => HostAttempt.ends_of_ok rfl hend)
  refine HostAttempt.Ends.bind (HostAttempt.ends_lift (HostM.Ends.mono huse (fun _ h => h)
    fun _ _ h => h)) fun result w₂ hend => ?_
  cases result with
  | ok _ =>
    obtain ⟨job, hend, hcode⟩ := hend
    exact ⟨content, job, hcontent, hover _ _ hend, hcode⟩
  | error error =>
    obtain ⟨done, hend, hfailure⟩ := hend
    exact .inr ⟨content, done, hcontent, hover _ _ hend, hfailure⟩

end Host

end UsbHost
