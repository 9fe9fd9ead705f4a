import Mathlib.Data.List.Perm.Basic
import UsbHost.Frame.Dispatcher
import UsbHost.Proofs.Attempt
import UsbHost.Proofs.Queue.Deadline

/-!
Conservation of stages at start of frame. Whoever is offered a stage may park further ones before it
accepts the stage or hands it back. What becomes of every stage is written down, offer by offer:
stages that were parked before or have been parked meanwhile are accepted or parked in the end. The
one exception is a stage handed back after its place in a full queue has been given away.
-/

namespace UsbHost.Frame.Dispatcher

open scoped List

variable {α κ : Type}

/-! ### Parked stages -/

/-- The parked stages, in the order in which they are offered. -/
def stages (d : Dispatcher α) : List (Stage α) := d.queue.toList.map (·.item)

def WellFormed (d : Dispatcher α) (capacity : Nat) : Prop := d.queue.WellFormed capacity

variable {d d' : Dispatcher α} {capacity : Nat} {stage : Stage α}

theorem withCapacity_ok (h : withCapacity capacity = .ok d) :
    d.WellFormed capacity ∧ d.stages = [] := by
  unfold withCapacity at h
  cases hqueue : DeadlineQueue.withCapacity (α := Stage α) capacity with
  | error e =>
    rw [hqueue] at h
    cases h
  | ok q =>
    rw [hqueue] at h
    cases h
    obtain ⟨hwf, hnil⟩ := DeadlineQueue.withCapacity_ok hqueue
    exact ⟨hwf, by rw [stages, hnil, List.map_nil]⟩

theorem WellFormed.length_le (h : d.WellFormed capacity) : d.stages.length ≤ capacity := by
  rw [stages, List.length_map]
  exact DeadlineQueue.WellFormed.length_le h

theorem perm_insertion {β : Type} (p : β → Bool) (x : β) (l : List β) :
    (l.takeWhile p ++ x :: l.dropWhile p).Perm (x :: l) := by
  have hperm : (l.takeWhile p ++ x :: l.dropWhile p).Perm (x :: (l.takeWhile p ++ l.dropWhile p)) :=
    List.perm_middle
  rwa [List.takeWhile_append_dropWhile] at hperm

/-- A stage is parked beside the others, unless the queue is full. -/
theorem WellFormed.park_cases (h : d.WellFormed capacity) (stage : Stage α) (frame : UInt16) :
    (d.stages.length < capacity ∧ ∃ d', d.park stage frame = .ok (frame, d') ∧
      d'.WellFormed capacity ∧ d'.stages.Perm (stage :: d.stages)) ∨
    d.stages.length = capacity ∧ d.park stage frame = .error stage := by
  have hlength : d.stages.length = d.queue.toList.length := List.length_map _
  rw [hlength]
  rcases DeadlineQueue.WellFormed.enqueue_cases h stage stage.owner frame with
    ⟨hlt, q, henqueue, hwf, hlist⟩ | ⟨hfull, henqueue⟩
  · refine .inl ⟨hlt, { d with queue := q }, by rw [park, henqueue], hwf, ?_⟩
    rw [stages, hlist]
    exact (perm_insertion _ _ _).map DeadlineQueue.Entry.item
  · exact .inr ⟨hfull, by rw [park, henqueue]⟩

theorem WellFormed.park (h : d.WellFormed capacity) {frame frame' : UInt16}
    (hpark : d.park stage frame = .ok (frame', d')) : d'.WellFormed capacity := by
  rcases h.park_cases stage frame with ⟨-, d₁, hpark₁, hwf, -⟩ | ⟨-, hpark₁⟩
  · rw [hpark₁] at hpark
    cases hpark
    exact hwf
  · rw [hpark₁] at hpark
    cases hpark

theorem frame_of_park {frame frame' : UInt16} (h : d.park stage frame = .ok (frame', d')) :
    frame' = frame := by
  unfold park at h
  split at h
  · cases h
    rfl
  · cases h

theorem closed_of_park {frame frame' : UInt16} (h : d.park stage frame = .ok (frame', d')) :
    d'.closed = d.closed := by
  unfold park at h
  split at h
  · cases h
    rfl
  · cases h

/-- What is taken from the queue to be offered is no longer parked. -/
theorem WellFormed.take (h : d.WellFormed capacity) {current : UInt16}
    {q : DeadlineQueue (Stage α)} (hdequeue : d.queue.dequeue current = some (stage, q)) :
    WellFormed { d with queue := q } capacity ∧
      d.stages = stage :: stages { d with queue := q } := by
  obtain ⟨hwf, entry, hlist, rfl⟩ := DeadlineQueue.WellFormed.dequeue_some h hdequeue
  exact ⟨hwf, by rw [stages, hlist]; rfl⟩

/-! ### Offers -/

/-- What the one who is offered a stage does before it answers: look at the dispatcher, park further
stages, and go on by what has come of it. With the answer comes what it remembers. -/
inductive Reaction (α κ : Type)
  | look (next : Dispatcher α → Reaction α κ)
  | park (stage : Stage α) (frame : UInt16) (next : Bool → Reaction α κ)
  | answer (accepts : Bool) (memory : κ)

/-- An offer: the stage, what has been parked before the answer, and the answer. -/
structure Episode (α : Type) where
  stage : Stage α
  parked : List (Stage α)
  accepted : Bool

structure Record (α κ : Type) where
  memory : κ
  episodes : List (Episode α) := []

/-- Act on a reaction to the offer of `stage`, when `parked` have been parked already. -/
def Reaction.run (stage : Stage α) (parked : List (Stage α)) :
    Reaction α κ → StateT (Dispatcher α) (StateM (Record α κ)) (Offer α)
  | .look next => do (next (← get)).run stage parked
  | .park other frame next => do
    match (← get).park other frame with
    | .ok (_, d) =>
      set d
      (next true).run stage (parked ++ [other])
    | .error _ => (next false).run stage parked
  | .answer accepts memory => do
    modifyThe (Record α κ) fun record =>
      ⟨memory, record.episodes ++ [⟨stage, parked, accepts⟩]⟩
    return if accepts then .started else .handedBack stage

/-- Offer a stage to one who reacts by what it remembers. -/
def ask (start : κ → Stage α → Reaction α κ) (stage : Stage α) :
    StateT (Dispatcher α) (StateM (Record α κ)) (Offer α) := do
  (start (← getThe (Record α κ)).memory stage).run stage []

/-- Stages accepted in the course of some offers. -/
def accepted (episodes : List (Episode α)) : List (Stage α) :=
  (episodes.filter (·.accepted)).map (·.stage)

/-- Stages parked in the course of some offers, other than those handed back. -/
def parked (episodes : List (Episode α)) : List (Stage α) := episodes.flatMap (·.parked)

theorem bind_apply {σ ρ β γ : Type} (x : StateT σ (StateM ρ) β) (f : β → StateT σ (StateM ρ) γ)
    (s : σ) (r : ρ) : (x >>= f) s r = f (x s r).1.1 (x s r).1.2 (x s r).2 := rfl

section Run

variable {record : Record α κ} {given : List (Stage α)}

/-- A reaction that parks a stage goes on by whether there was room for it. -/
theorem run_park (other : Stage α) (frame : UInt16) (next : Bool → Reaction α κ) :
    (Reaction.park other frame next).run stage given d record =
      match d.park other frame with
      | .ok (_, d') => (next true).run stage (given ++ [other]) d' record
      | .error _ => (next false).run stage given d record := by
  rw [Reaction.run, bind_apply]
  change (match d.park other frame with
    | .ok (_, d) => _
    | .error _ => _ : StateT (Dispatcher α) (StateM (Record α κ)) (Offer α)) d record = _
  cases d.park other frame <;> rfl

/-- A reaction parks some more stages, and is written down as one episode. -/
theorem run_spec (h : d.WellFormed capacity) (stage : Stage α) (given : List (Stage α))
    (reaction : Reaction α κ) (record : Record α κ) :
    ∃ accepts memory more d', reaction.run stage given d record =
        ((if accepts then .started else .handedBack stage, d'),
          ⟨memory, record.episodes ++ [⟨stage, given ++ more, accepts⟩]⟩) ∧
      d'.WellFormed capacity ∧ d'.stages.Perm (d.stages ++ more) := by
  induction reaction generalizing d given with
  | look next ih => exact ih d h given
  | answer accepts memory =>
    refine ⟨accepts, memory, [], d, ?_, h, ?_⟩
    · rw [List.append_nil]
      rfl
    · rw [List.append_nil]
  | park other frame next ih =>
    rcases h.park_cases other frame with ⟨-, d₁, hpark, hwf, hstages⟩ | ⟨-, hpark⟩
    · obtain ⟨accepts, memory, more, d', hrun, hwf', hstages'⟩ :=
        ih true hwf (given ++ [other])
      refine ⟨accepts, memory, other :: more, d', ?_, hwf', ?_⟩
      · rw [run_park, hpark]
        simp only [hrun, List.append_assoc, List.singleton_append]
      · exact hstages'.trans ((hstages.append_right more).trans List.perm_middle.symm)
    · obtain ⟨accepts, memory, more, d', hrun, hrest⟩ := ih false h given
      refine ⟨accepts, memory, more, d', ?_, hrest⟩
      rw [run_park, hpark]
      exact hrun

end Run

/-! ### The loop -/

section Loop

variable {ρ : Type} {start : Stage α → StateT (Dispatcher α) (StateM ρ) (Offer α)}
  {limit : Nat} {current : UInt16} {record record' : ρ} {q : DeadlineQueue (Stage α)}

/-- What the loop does with a stage that is due. -/
def offerOne (current : UInt16)
    (start : Stage α → StateT (Dispatcher α) (StateM ρ) (Offer α)) (limit : Nat)
    (stage : Stage α) : StateT (Dispatcher α) (StateM ρ) Nat := do
  match ← start stage with
  | .started => return (← offerDue current start limit) + 1
  | .handedBack stage =>
    modify fun d =>
      match d.park stage (add current 1) with
      | .ok (_, d') => d'
      | .error _ => d
    return 0

/-- A round of the loop, when it has looked for a stage that is due. -/
def offerNext (current : UInt16)
    (start : Stage α → StateT (Dispatcher α) (StateM ρ) (Offer α)) (limit : Nat) :
    Option (Stage α × DeadlineQueue (Stage α)) →
      StateT (Dispatcher α) (StateM ρ) Nat
  | none => return 0
  | some (stage, queue) => do
    modify fun d => { d with queue := queue }
    offerOne current start limit stage

theorem offerDue_succ : offerDue current start (limit + 1) d record =
    offerNext current start limit (d.queue.dequeue current) d record := by
  rw [offerDue, bind_apply]
  have hget : ((get : StateT (Dispatcher α) (StateM ρ) (Dispatcher α)) d record) =
      ((d, d), record) := rfl
  rw [hget]
  cases d.queue.dequeue current with
  | none => rfl
  | some next => rfl

theorem offerDue_none (h : d.queue.dequeue current = none) :
    offerDue current start (limit + 1) d record = ((0, d), record) := by
  rw [offerDue_succ, h]
  rfl

theorem offerDue_some (h : d.queue.dequeue current = some (stage, q)) :
    offerDue current start (limit + 1) d record =
      offerOne current start limit stage { d with queue := q } record := by
  rw [offerDue_succ, h]
  rfl

theorem offerOne_started (h : start stage d record = ((.started, d'), record')) :
    offerOne current start limit stage d record =
      (((offerDue current start limit d' record').1.1 + 1,
        (offerDue current start limit d' record').1.2),
        (offerDue current start limit d' record').2) := by
  rw [offerOne, bind_apply, h]
  rfl

/-- A stage that is handed back is the last one to be offered; it is parked again if there is
room. -/
theorem offerOne_stopped {stage' : Stage α}
    (h : start stage d record = ((.handedBack stage', d'), record')) :
    offerOne current start limit stage d record =
      ((0, match d'.park stage' (add current 1) with
        | .ok (_, d'') => d''
        | .error _ => d'), record') := by
  rw [offerOne, bind_apply, h]
  rfl

theorem offerOne_handedBack {stage' : Stage α} {frame : UInt16} {d'' : Dispatcher α}
    (h : start stage d record = ((.handedBack stage', d'), record'))
    (hpark : d'.park stage' (add current 1) = .ok (frame, d'')) :
    offerOne current start limit stage d record = ((0, d''), record') := by
  rw [offerOne_stopped h, hpark]

theorem offerOne_dropped {stage' refused : Stage α}
    (h : start stage d record = ((.handedBack stage', d'), record'))
    (hpark : d'.park stage' (add current 1) = .error refused) :
    offerOne current start limit stage d record = ((0, d'), record') := by
  rw [offerOne_stopped h, hpark]

end Loop

/-- What is lost of the stages that were offered: the last one, if it was handed back after others
had been parked, and if the queue is full. -/
def Lost (capacity : Nat) (d : Dispatcher α) (episodes : List (Episode α))
    (lost : List (Stage α)) : Prop :=
  lost = [] ∨ ∃ last ∈ episodes.getLast?, last.accepted = false ∧ last.parked ≠ [] ∧
    d.stages.length = capacity ∧ lost = [last.stage]

/-- What becomes of the stages of `d` when the offers written down in `episodes` lead to `d'`. -/
structure Conserves (capacity : Nat) (d d' : Dispatcher α) (episodes : List (Episode α))
    (count : Nat) : Prop where
  wellFormed : d'.WellFormed capacity
  count_eq : count = (accepted episodes).length
  perm : ∃ lost, Lost capacity d' episodes lost ∧
    (d'.stages ++ accepted episodes ++ lost).Perm (d.stages ++ parked episodes)

theorem conserves_nil (h : d.WellFormed capacity) : Conserves capacity d d [] 0 :=
  ⟨h, rfl, [], .inl rfl, by simp [accepted, parked]⟩

section Conserves

variable {q : DeadlineQueue (Stage α)} {d₁ : Dispatcher α} {more : List (Stage α)}
  {episodes : List (Episode α)} {count : Nat}

/-- The first offer is accepted. -/
theorem Conserves.cons (h : Conserves capacity d₁ d' episodes count)
    (hoffered : d.stages = stage :: stages { d with queue := q })
    (hstages : d₁.stages.Perm (stages { d with queue := q } ++ more)) :
    Conserves capacity d d' (⟨stage, more, true⟩ :: episodes) (count + 1) := by
  obtain ⟨lost, hlost, hperm⟩ := h.perm
  refine ⟨h.wellFormed, congrArg (· + 1) h.count_eq, lost, ?_, ?_⟩
  · refine hlost.imp_right ?_
    rintro ⟨last, hmem, hlast⟩
    refine ⟨last, ?_, hlast⟩
    cases episodes with
    | nil => cases hmem
    | cons e episodes => rwa [List.getLast?_cons_cons]
  · rw [hoffered]
    calc d'.stages ++ stage :: accepted episodes ++ lost
      _ = d'.stages ++ stage :: (accepted episodes ++ lost) := by rw [List.append_assoc]; rfl
      _ ~ stage :: (d'.stages ++ (accepted episodes ++ lost)) := List.perm_middle
      _ = stage :: (d'.stages ++ accepted episodes ++ lost) := by rw [List.append_assoc]
      _ ~ stage :: (d₁.stages ++ parked episodes) := hperm.cons stage
      _ ~ stage :: (stages { d with queue := q } ++ more ++ parked episodes) :=
        (hstages.append_right _).cons stage
      _ = stage :: stages { d with queue := q } ++ (more ++ parked episodes) := by
        rw [List.append_assoc]; rfl

/-- The only offer is turned down, and the stage is parked again. -/
theorem conserves_handedBack (hwf : d'.WellFormed capacity)
    (hoffered : d.stages = stage :: stages { d with queue := q })
    (hstages : d₁.stages.Perm (stages { d with queue := q } ++ more))
    (hparked : d'.stages.Perm (stage :: d₁.stages)) :
    Conserves capacity d d' [⟨stage, more, false⟩] 0 := by
  refine ⟨hwf, rfl, [], .inl rfl, ?_⟩
  rw [hoffered]
  simpa [accepted, parked] using hparked.trans (hstages.cons stage)

/-- The only offer is turned down, and there is no place for the stage any more. -/
theorem conserves_dropped (hwf : d₁.WellFormed capacity) (hd : d.WellFormed capacity)
    (hoffered : d.stages = stage :: stages { d with queue := q })
    (hstages : d₁.stages.Perm (stages { d with queue := q } ++ more))
    (hfull : d₁.stages.length = capacity) :
    Conserves capacity d d₁ [⟨stage, more, false⟩] 0 := by
  have hmore : more ≠ [] := by
    rintro rfl
    have hlength := hstages.length_eq
    have hle := hd.length_le
    rw [hoffered, List.length_cons] at hle
    rw [List.append_nil] at hlength
    omega
  refine ⟨hwf, rfl, [stage], .inr ⟨_, rfl, rfl, hmore, hfull, rfl⟩, ?_⟩
  rw [hoffered]
  have hperm := (List.perm_append_singleton stage d₁.stages).trans (hstages.cons stage)
  simpa [accepted, parked] using hperm

end Conserves

theorem offerDue_conserves (h : d.WellFormed capacity) (start : κ → Stage α → Reaction α κ)
    (current : UInt16) (limit : Nat) (record : Record α κ) :
    ∃ count d' memory episodes, offerDue current (ask start) limit d record =
        ((count, d'), ⟨memory, record.episodes ++ episodes⟩) ∧
      Conserves capacity d d' episodes count := by
  induction limit generalizing d record with
  | zero => exact ⟨0, d, record.memory, [], by rw [List.append_nil]; rfl, conserves_nil h⟩
  | succ limit ih =>
    cases hdequeue : d.queue.dequeue current with
    | none =>
      refine ⟨0, d, record.memory, [], ?_, conserves_nil h⟩
      rw [offerDue_none hdequeue, List.append_nil]
    | some next =>
      obtain ⟨stage, q⟩ := next
      obtain ⟨hwf, hoffered⟩ := h.take hdequeue
      obtain ⟨accepts, memory, more, d₁, hrun, hwf₁, hstages⟩ :=
        run_spec hwf stage [] (start record.memory stage) record
      have hask : ask start stage { d with queue := q } record = _ := hrun
      rw [List.nil_append] at hask
      rw [offerDue_some hdequeue]
      cases accepts with
      | true =>
        obtain ⟨count, d', memory', episodes, hrest, hconserves⟩ :=
          ih hwf₁ ⟨memory, record.episodes ++ [⟨stage, more, true⟩]⟩
        refine ⟨count + 1, d', memory', ⟨stage, more, true⟩ :: episodes, ?_,
          hconserves.cons hoffered hstages⟩
        rw [offerOne_started hask, hrest, List.append_assoc, List.singleton_append]
      | false =>
        rcases hwf₁.park_cases stage (add current 1) with
          ⟨-, d', hpark, hwf', hparked⟩ | ⟨hfull, hpark⟩
        · exact ⟨0, d', memory, _, offerOne_handedBack hask hpark,
            conserves_handedBack hwf' hoffered hstages hparked⟩
        · exact ⟨0, d₁, memory, _, offerOne_dropped hask hpark,
            conserves_dropped hwf₁ h hoffered hstages hfull⟩

/-- Start of frame conserves stages. Whatever is parked, whatever the frame is, and however the one
who is asked reacts to the offers: in the end the stages parked before and those parked meanwhile
have been accepted or are parked, each once, but for a stage that was handed back after its place in
a full queue had been given away. -/
theorem startOfFrame_conserves (h : d.WellFormed capacity) (start : κ → Stage α → Reaction α κ)
    (memory : κ) (limit : Nat) (current : UInt16) :
    ∃ count d' record, startOfFrame limit current (ask start) d ⟨memory, []⟩ =
        ((count, d'), record) ∧
      Conserves capacity d d' record.episodes count := by
  cases hclosed : d.closed with
  | true =>
    refine ⟨0, d, ⟨memory, []⟩, ?_, conserves_nil h⟩
    rw [startOfFrame, bind_apply]
    change (if d.closed then return 0 else offerDue current (ask start) limit :
      StateT (Dispatcher α) (StateM (Record α κ)) Nat) d ⟨memory, []⟩ = _
    rw [hclosed]
    rfl
  | false =>
    obtain ⟨count, d', memory', episodes, hoffers, hconserves⟩ :=
      offerDue_conserves h start current limit ⟨memory, []⟩
    refine ⟨count, d', ⟨memory', episodes⟩, ?_, hconserves⟩
    rw [startOfFrame, bind_apply]
    change (if d.closed then return 0 else offerDue current (ask start) limit :
      StateT (Dispatcher α) (StateM (Record α κ)) Nat) d ⟨memory, []⟩ = _
    rw [hclosed]
    exact hoffers

/-! ### A crowded dispatcher -/

/-- A stage that needs no scheduler. -/
def plain (request : Nat) : Stage Nat := ⟨request, ⟨1⟩, none, 0⟩

/-- Accept stage 1; park stage 3 for frame 2 before any other stage is handed back. -/
def crowding (_ : Unit) (stage : Stage Nat) : Reaction Nat Unit :=
  if stage.request = 1 then .answer true () else .park (plain 3) 2 fun _ => .answer false ()

/-- A dispatcher with stages parked for frame 1, as many as fit. -/
def waiting (capacity : Nat) : List Nat → Dispatcher Nat
  | [] => { queue := ⟨{ arena := .empty capacity }⟩ }
  | request :: requests =>
    match (waiting capacity requests).park (plain request) 1 with
    | .ok (_, d) => d
    | .error _ => waiting capacity requests

theorem wellFormed_waiting (hcapacity : 0 < capacity) (requests : List Nat) :
    (waiting capacity requests).WellFormed capacity := by
  induction requests with
  | nil => exact ⟨⟨[], Chain.holds_empty capacity⟩, Arena.sound_empty hcapacity⟩
  | cons request requests ih =>
    rw [waiting]
    split
    · exact ih.park ‹_›
    · exact ih

theorem startOfFrame_conserves_crowding : ∃ d' record,
    startOfFrame 5 1 (ask crowding) (waiting 3 [2, 1]) ⟨(), []⟩ = ((1, d'), record) ∧
    accepted record.episodes = [plain 1] ∧ d'.stages = [plain 3, plain 2] ∧
    Conserves 3 (waiting 3 [2, 1]) d' record.episodes 1 := by
  obtain ⟨count, d', record, hrun, hconserves⟩ :=
    startOfFrame_conserves (wellFormed_waiting (by decide : 0 < 3) [2, 1]) crowding () 5 1
  cases hrun
  exact ⟨_, _, rfl, rfl, rfl, hconserves⟩

/-- The stage handed back is lost, when the place that it had in the only slot has been given to
another one. -/
theorem startOfFrame_loses_crowding : (waiting 1 [2]).WellFormed 1 ∧ isLater 2 1 = true ∧
    ∃ d' record, startOfFrame 5 1 (ask crowding) (waiting 1 [2]) ⟨(), []⟩ = ((0, d'), record) ∧
      ¬ (d'.stages ++ accepted record.episodes).Perm
        ((waiting 1 [2]).stages ++ parked record.episodes) :=
  ⟨wellFormed_waiting (by decide) [2], by decide, _, _, rfl, by decide⟩

end UsbHost.Frame.Dispatcher
