import UsbHost.Simulation.Environment
import UsbHost.Simulation.Play

/-!
Sessions: scripts from beginning to end. Each scene of a script is a step together with what
happens while it blocks; its report tells the answer and everything that has happened meanwhile. A
fault ends the session.
-/

namespace UsbHost.Simulation

variable {τ : Type}

structure Scene (τ : Type) where
  step : Step τ
  /-- The steps taken at each turn of a blocked task. -/
  turns : List (List (Step τ)) := []
  /-- The endpoint whose state is reported. -/
  shown : Option Nat := none
  deriving Inhabited

/-- What has happened during a scene. -/
structure Report (τ : Type) where
  answer : Except Fault (Answer τ)
  clock : UInt64
  record : Record
  completed : Array (Completion τ)
  yields : Array (Answer τ)
  state : Option EndpointState := none

abbrev BenchWorld (τ : Type) := World (Machine (Bench τ)) (Routine τ)

/-- Take the steps for the next turn of a blocked task. -/
def act (env : BenchEnv τ) : BenchM τ Unit := do
  let turns := (← bench).turns
  modifyBench fun b => { b with turns := turns.drop 1 }
  (turns.headD []).forM fun step => do
    let answer ← step.play env
    modifyBench fun b => { b with yields := b.yields.push answer }

/-- The surroundings of a session. Waits are nested no deeper than a scene has turns. -/
def surroundings (patience : Nat) (script : List (Scene τ)) : BenchEnv τ :=
  let depth := script.foldl (fun depth scene => max depth scene.turns.length) 0
  environment ⟨complete, act⟩ patience (depth + 2)

/-- The machine at the beginning of a scene: nothing has happened yet. -/
def setScene (turns : List (List (Step τ))) (m : Machine (Bench τ)) : Machine (Bench τ) :=
  { m with
    record := {}
    user := { m.user with completed := #[], yields := #[], turns := turns } }

def report (answer : Except Fault (Answer τ)) (m : Machine (Bench τ)) : Report τ where
  answer := answer
  clock := m.clock
  record := m.record
  completed := m.user.completed
  yields := m.user.yields

/-- State of the endpoint with a handle. -/
def stateOf? (w : BenchWorld τ) (handle : Nat) : Option EndpointState := do
  let e ← w.bus.platform.user.endpoints[handle]?
  return .of (← w.endpoints[e.index]?)

def runScenes (env : BenchEnv τ) : List (Scene τ) → BenchWorld τ → List (Report τ)
  | [], _ => []
  | scene :: rest, w =>
    let w := { w with bus.platform := setScene scene.turns w.bus.platform }
    match scene.step.play env w with
    | .ok answer w =>
      { report (.ok answer) w.bus.platform with state := scene.shown.bind (stateOf? w) } ::
        runScenes env rest w
    | .error f w => [report (.error f) w.bus.platform]

/-- A world without a host controller, for endpoints by themselves. Finished requests go to a queue
of the given depth, if there is one. -/
def bareWorld (depth : Option Nat) : BusAttempt (Machine (Bench τ)) (BenchWorld τ) := do
  let completions ← depth.mapM fun depth => liftExcept (CompletionQueue.withCapacity depth)
  return { bus := ← get, controller := default, completions := completions }

/-- Run a script in the world that `create` makes: the report of the creation, and those of the
scenes. -/
def runSession (base : UInt64) (bench : Bench τ) (patience : Nat)
    (create : BenchEnv τ → BusAttempt (Machine (Bench τ)) (BenchWorld τ))
    (script : List (Scene τ)) : Report τ × List (Report τ) :=
  let env := surroundings patience script
  match (create env).run { platform := { base := base, user := bench } } with
  | .ok (.ok w) bus =>
    (report (.ok .done) bus.platform, runScenes env script { w with bus := bus })
  | .ok (.error error) bus => (report (.ok (.refused error)) bus.platform, [])
  | .error f bus => (report (.error f) bus.platform, [])

/-- Run a script against a host controller. -/
def runHost (base : UInt64) (config : Config) (patience : Nat) (script : List (Scene τ)) :
    Report τ × List (Report τ) :=
  runSession base { config := config, sink := .immediate } patience
    (Host.create · config) script

/-- Run a script against endpoints without a host controller. -/
def runEndpoints (base : UInt64) (config : Config) (parked : Option Nat) (patience : Nat)
    (script : List (Scene τ)) : Report τ × List (Report τ) :=
  let sink := if parked.isSome then Sink.deferred else .immediate
  runSession base { config := config, sink := sink } patience
    (fun _ => bareWorld parked) script

end UsbHost.Simulation
