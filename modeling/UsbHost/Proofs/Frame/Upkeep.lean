import UsbHost.Proofs.Frame.Dispatch

/-!
What start of frame keeps. A property of dispatchers holds afterwards if it holds before and is kept
step by step: by taking a stage that is due, by whatever is done while the stage is offered, and by
parking a stage that is handed back.
-/

namespace UsbHost.Frame.Dispatcher

variable {α ρ : Type} {d d' : Dispatcher α} {capacity : Nat} {stage : Stage α}

/-! ### Entries -/

theorem WellFormed.mem_park (h : d.WellFormed capacity) {frame frame' : UInt16}
    (hpark : d.park stage frame = .ok (frame', d')) {entry : DeadlineQueue.Entry (Stage α)} :
    entry ∈ d'.queue.toList ↔ entry = ⟨stage, stage.owner, frame⟩ ∨ entry ∈ d.queue.toList := by
  rcases DeadlineQueue.WellFormed.enqueue_cases h stage stage.owner frame with
    ⟨-, q, henqueue, -, hlist⟩ | ⟨-, henqueue⟩
  · rw [Dispatcher.park, henqueue] at hpark
    cases hpark
    change entry ∈ q.toList ↔ _
    rw [hlist, (perm_insertion _ _ _).mem_iff, List.mem_cons]
  · rw [Dispatcher.park, henqueue] at hpark
    cases hpark

/-- The first entry goes, and only in its time. -/
theorem WellFormed.take_due (h : d.WellFormed capacity) {current : UInt16}
    {q : DeadlineQueue (Stage α)} (hdequeue : d.queue.dequeue current = some (stage, q)) :
    WellFormed { d with queue := q } capacity ∧ ∃ entry, d.queue.toList = entry :: q.toList ∧
      entry.item = stage ∧ isLater entry.frame current = false := by
  obtain ⟨hwf, entry, hlist, hitem⟩ := DeadlineQueue.WellFormed.dequeue_some h hdequeue
  refine ⟨hwf, entry, hlist, hitem, Bool.eq_false_iff.2 fun hlater => ?_⟩
  have hnone : d.queue.dequeue current = none :=
    DeadlineQueue.WellFormed.dequeue_none h (by simp [hlist, hlater])
  rw [hnone] at hdequeue
  cases hdequeue

/-! ### The rule -/

/-- What is done with a stage that is offered, by one who remembers a `ρ`. -/
abbrev Taker (α ρ : Type) := Stage α → StateT (Dispatcher α) (StateM ρ) (Offer α)

/-- The steps of the loop keep `I`: taking a stage, which is known to be `due` then, offering it,
which brings back none but `back`, and parking one of these. -/
structure Keeps (I : Dispatcher α → Prop) (due back : Stage α → Prop) (current : UInt16)
    (start : Taker α ρ) : Prop where
  take : ∀ d stage q, I d → d.queue.dequeue current = some (stage, q) →
    due stage ∧ I { d with queue := q }
  offer : ∀ stage d record, due stage → I d → I (start stage d record).1.2 ∧
    ∀ stage', (start stage d record).1.1 = .handedBack stage' → back stage'
  park : ∀ d d' stage frame, I d → back stage →
    d.park stage (add current 1) = .ok (frame, d') → I d'

section Rule

variable {I : Dispatcher α → Prop} {due back : Stage α → Prop} {current : UInt16}
  {start : Taker α ρ}

theorem Keeps.offerDue (h : Keeps I due back current start) (limit : Nat) (hd : I d) (record : ρ) :
    I (offerDue current start limit d record).1.2 ∧
      ∀ start' : Taker α ρ, (∀ stage, due stage → start' stage = start stage) →
        Dispatcher.offerDue current start' limit d record =
          Dispatcher.offerDue current start limit d record := by
  induction limit generalizing d record with
  | zero => exact ⟨hd, fun _ _ => rfl⟩
  | succ limit ih =>
    cases hdequeue : d.queue.dequeue current with
    | none =>
      exact ⟨by rwa [offerDue_none hdequeue], fun start' _ => by simp only [offerDue_none hdequeue]⟩
    | some next =>
      obtain ⟨stage, q⟩ := next
      obtain ⟨hdue, htaken⟩ := h.take d stage q hd hdequeue
      have hoffer := h.offer stage { d with queue := q } record hdue htaken
      have hsame : ∀ start' : Taker α ρ, (∀ stage, due stage → start' stage = start stage) →
          start' stage { d with queue := q } record = start stage { d with queue := q } record :=
        fun start' hagree => congrFun (congrFun (hagree stage hdue) _) _
      simp only [offerDue_some hdequeue]
      -- the answer decides whether the loop goes on
      match hanswer : start stage { d with queue := q } record with
      | ((.started, d₁), record₁) =>
        rw [hanswer] at hoffer
        obtain ⟨hkept, hrest⟩ := ih hoffer.1 record₁
        refine ⟨by rwa [offerOne_started hanswer], fun start' hagree => ?_⟩
        rw [offerOne_started hanswer, offerOne_started ((hsame start' hagree).trans hanswer),
          hrest start' hagree]
      | ((.handedBack stage', d₁), record₁) =>
        rw [hanswer] at hoffer
        obtain ⟨hkept, hback⟩ := hoffer
        cases hresult : d₁.park stage' (add current 1) with
        | error refused =>
          refine ⟨by rwa [offerOne_dropped hanswer hresult], fun start' hagree => ?_⟩
          rw [offerOne_dropped hanswer hresult,
            offerOne_dropped ((hsame start' hagree).trans hanswer) hresult]
        | ok result =>
          obtain ⟨frame, d'⟩ := result
          have hparked : I d' := h.park d₁ d' stage' frame hkept (hback stage' rfl) hresult
          refine ⟨by rwa [offerOne_handedBack hanswer hresult], fun start' hagree => ?_⟩
          rw [offerOne_handedBack hanswer hresult,
            offerOne_handedBack ((hsame start' hagree).trans hanswer) hresult]

theorem startOfFrame_eq (limit : Nat) (d : Dispatcher α) (record : ρ) :
    startOfFrame limit current start d record =
      if d.closed then ((0, d), record)
      else Dispatcher.offerDue current start limit d record := by
  rw [startOfFrame, bind_apply]
  change (if d.closed then return 0 else Dispatcher.offerDue current start limit :
    StateT (Dispatcher α) (StateM ρ) Nat) d record = _
  cases d.closed <;> rfl

/-- What the steps keep is kept by start of frame, and nobody is asked about a stage that is not
due: how `start` would react to such a stage does not matter. -/
theorem Keeps.startOfFrame (h : Keeps I due back current start) (limit : Nat) (hd : I d)
    (record : ρ) :
    I (startOfFrame limit current start d record).1.2 ∧
      ∀ start' : Taker α ρ, (∀ stage, due stage → start' stage = start stage) →
        Dispatcher.startOfFrame limit current start' d record =
          Dispatcher.startOfFrame limit current start d record := by
  simp only [startOfFrame_eq]
  split
  · exact ⟨hd, fun _ _ => rfl⟩
  · exact h.offerDue limit hd record

end Rule

end UsbHost.Frame.Dispatcher
