import UsbHost.Proofs.Queue.Vacancy
import UsbHost.Queue.Deadline

/-!
Deadline queues as lists of entries. An item goes in before the first one for a later frame, the
first item is taken once its frame has come, and a full queue hands an item back.
-/

namespace UsbHost.DeadlineQueue

variable {α : Type}

/-- The entries, first to last. -/
def toList (q : DeadlineQueue α) : List (Entry α) := q.entries.toList

/-- The chain beneath holds the entries and nothing else, and the vacant ones of its `capacity`
slots can all be found. -/
structure WellFormed (q : DeadlineQueue α) (capacity : Nat) : Prop where
  holds : ∃ l, q.entries.Holds l
  sound : q.entries.arena.Sound capacity

variable {q : DeadlineQueue α} {capacity : Nat}

theorem withCapacity_ok (h : withCapacity capacity = .ok q) :
    q.WellFormed capacity ∧ q.toList = [] := by
  unfold withCapacity at h
  cases hnew : Chain.withCapacity (α := Entry α) capacity with
  | error error =>
    rw [hnew] at h
    cases h
  | ok c =>
    rw [hnew] at h
    cases h
    obtain ⟨hholds, hsound⟩ := Chain.withCapacity_ok hnew
    exact ⟨⟨⟨[], hholds⟩, hsound⟩, hholds.toList_eq⟩

theorem WellFormed.length_le (h : q.WellFormed capacity) : q.toList.length ≤ capacity := by
  obtain ⟨l, hl⟩ := h.holds
  rw [toList, hl.toList_eq, List.length_map]
  exact h.sound.size_eq ▸ hl.length_le

theorem WellFormed.length_eq (h : q.WellFormed capacity) : q.length = q.toList.length := by
  obtain ⟨l, hl⟩ := h.holds
  rw [toList, hl.toList_eq, List.length_map]
  exact (hl.length_eq h.sound).symm

/-- An item goes in before the first one for a later frame, unless the queue is full. -/
theorem WellFormed.enqueue_cases (h : q.WellFormed capacity) (item : α) (owner : DeviceId)
    (frame : UInt16) :
    (q.toList.length < capacity ∧ ∃ q', q.enqueue item owner frame = .ok q' ∧
      q'.WellFormed capacity ∧
      q'.toList = (q.toList.takeWhile fun entry => !Frame.isLater entry.frame frame) ++
        ⟨item, owner, frame⟩ ::
          q.toList.dropWhile fun entry => !Frame.isLater entry.frame frame) ∨
    q.toList.length = capacity ∧ q.enqueue item owner frame = .error item := by
  obtain ⟨l, hl⟩ := h.holds
  have hlength : q.toList.length = l.length := by rw [toList, hl.toList_eq, List.length_map]
  rw [hlength]
  rcases hl.insertBefore_cases h.sound (fun entry => Frame.isLater entry.frame frame)
    ⟨item, owner, frame⟩ with ⟨hlt, entries, handle, hinsert, hsound, hholds⟩ | ⟨hfull, hinsert⟩
  · refine .inl ⟨hlt, ⟨entries⟩, by rw [enqueue, hinsert], ⟨⟨_, hholds⟩, hsound⟩, ?_⟩
    rw [toList, hholds.toList_eq, toList, hl.toList_eq, List.map_append, List.map_cons,
      List.takeWhile_map, List.dropWhile_map]
    rfl
  · exact .inr ⟨hfull, by rw [enqueue, hinsert]⟩

/-- The first item is taken if its frame is not later than the current one. -/
theorem WellFormed.dequeue_cons (h : q.WellFormed capacity) {entry : Entry α}
    {rest : List (Entry α)} (hlist : q.toList = entry :: rest) {current : UInt16}
    (hdue : Frame.isLater entry.frame current = false) :
    ∃ q', q.dequeue current = some (entry.item, q') ∧ q'.WellFormed capacity ∧
      q'.toList = rest := by
  obtain ⟨l, hl⟩ := h.holds
  rw [toList, hl.toList_eq] at hlist
  obtain ⟨x, l, rfl, rfl, rfl⟩ := List.map_eq_cons_iff.1 hlist
  obtain ⟨handle, entry⟩ := x
  have hfront := hl.front?_eq
  obtain ⟨entries, hpop, hrest⟩ := hl.popFront_cons
  refine ⟨⟨entries⟩, ?_, ⟨⟨l, hrest⟩, Chain.sound_popFront h.sound hpop⟩, hrest.toList_eq⟩
  simp [dequeue, hfront, hdue, hpop]

/-- Nothing is taken if there is nothing, or if the first frame is a later one. -/
theorem WellFormed.dequeue_none (h : q.WellFormed capacity) {current : UInt16}
    (hlater : ∀ entry ∈ q.toList.head?, Frame.isLater entry.frame current = true) :
    q.dequeue current = none := by
  obtain ⟨l, hl⟩ := h.holds
  rw [toList, hl.toList_eq, List.head?_map, ← hl.front?_eq] at hlater
  rw [dequeue]
  cases hfront : q.entries.front? with
  | none => rfl
  | some entry => simp [hlater entry hfront]

/-- What is taken has been the first item. -/
theorem WellFormed.dequeue_some (h : q.WellFormed capacity) {current : UInt16} {item : α}
    {q' : DeadlineQueue α} (hdequeue : q.dequeue current = some (item, q')) :
    q'.WellFormed capacity ∧ ∃ entry, q.toList = entry :: q'.toList ∧ entry.item = item := by
  cases hlist : q.toList with
  | nil =>
    rw [h.dequeue_none (by simp [hlist])] at hdequeue
    cases hdequeue
  | cons entry rest =>
    cases hlater : Frame.isLater entry.frame current with
    | true =>
      rw [h.dequeue_none (by simp [hlist, hlater])] at hdequeue
      cases hdequeue
    | false =>
      obtain ⟨q₁, hdequeue₁, hwf, rfl⟩ := h.dequeue_cons hlist hlater
      rw [hdequeue₁] at hdequeue
      cases hdequeue
      exact ⟨hwf, entry, rfl, rfl⟩

theorem WellFormed.dropWhere (h : q.WellFormed capacity) (p : Entry α → Bool) :
    (q.dropWhere p).1 = q.toList.countP p ∧ (q.dropWhere p).2.WellFormed capacity ∧
      (q.dropWhere p).2.toList = q.toList.filter fun entry => !p entry := by
  obtain ⟨l, hl⟩ := h.holds
  obtain ⟨hdropped, hholds⟩ := hl.drain p
  refine ⟨?_, ⟨⟨_, hholds⟩, Chain.sound_drain p h.sound⟩, ?_⟩
  · change (q.entries.drain p).1.length = q.entries.toList.countP p
    rw [hdropped, hl.toList_eq, List.countP_eq_length_filter]
  · change (q.entries.drain p).2.toList = q.entries.toList.filter _
    rw [hholds.toList_eq, hl.toList_eq, List.filter_map]
    rfl

end UsbHost.DeadlineQueue
