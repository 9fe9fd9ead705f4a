import UsbHost.Proofs.Queue.Vacancy
import UsbHost.Queue.Completion

/-!
Completion queues as lists of entries. Entries leave in the order in which they have come, a device
that goes away takes just its own entries along, and only a full queue hands an item back.
-/

namespace UsbHost

variable {α : Type}

namespace CompletionQueue

variable {q q' : CompletionQueue α} {item : α} {owner : DeviceId}

/-- The entries, first to last. -/
def toList (q : CompletionQueue α) : List (Entry α) := q.entries.toList

/-- The chain beneath holds the entries and nothing else. -/
def WellFormed (q : CompletionQueue α) : Prop := ∃ l, q.entries.Holds l

theorem entries_of_withCapacity {capacity : Nat} (h : withCapacity capacity = .ok q) :
    q.entries.Holds [] ∧ q.entries.arena.Sound capacity := by
  unfold withCapacity at h
  cases hnew : Chain.withCapacity (α := Entry α) capacity with
  | error error =>
    rw [hnew] at h
    cases h
  | ok c =>
    rw [hnew] at h
    cases h
    exact Chain.withCapacity_ok hnew

theorem withCapacity_ok {capacity : Nat} (h : withCapacity capacity = .ok q) :
    q.WellFormed ∧ q.toList = [] := by
  obtain ⟨hholds, -⟩ := entries_of_withCapacity h
  exact ⟨⟨[], hholds⟩, hholds.toList_eq⟩

theorem WellFormed.enqueue (h : q.WellFormed) (henqueue : q.enqueue item owner = .ok q') :
    q'.WellFormed ∧ q'.toList = q.toList ++ [⟨item, owner⟩] := by
  obtain ⟨l, hl⟩ := h
  unfold CompletionQueue.enqueue at henqueue
  split at henqueue
  · rename_i entries hpush
    cases henqueue
    obtain ⟨handle, hholds⟩ := hl.pushBack hpush
    refine ⟨⟨_, hholds⟩, ?_⟩
    rw [toList, toList, hholds.toList_eq, hl.toList_eq, List.map_append]
    rfl
  · cases henqueue

theorem eq_of_enqueue_error {item' : α} (h : q.enqueue item owner = .error item') :
    item' = item := by
  unfold CompletionQueue.enqueue Chain.pushBack at h
  split at h
  · cases h
  · rename_i entry hpush
    obtain rfl := Chain.eq_of_insertAfter_error hpush
    cases h
    rfl

theorem WellFormed.dequeue (h : q.WellFormed) (hdequeue : q.dequeue = some (item, q')) :
    q'.WellFormed ∧ ∃ owner, q.toList = ⟨item, owner⟩ :: q'.toList := by
  obtain ⟨l, hl⟩ := h
  unfold CompletionQueue.dequeue at hdequeue
  obtain ⟨⟨entry, entries⟩, hpop, hdequeue⟩ := Option.bind_eq_some_iff.1 hdequeue
  cases hdequeue
  obtain ⟨handle, rest, rfl, hholds⟩ := hl.popFront hpop
  refine ⟨⟨rest, hholds⟩, entry.owner, ?_⟩
  rw [toList, toList, hholds.toList_eq, hl.toList_eq]
  rfl

theorem WellFormed.flushOwner (h : q.WellFormed) (owner : DeviceId) :
    (q.flushOwner owner).2.WellFormed ∧
      (q.flushOwner owner).2.toList = q.toList.filter fun entry => !(entry.owner == owner) := by
  obtain ⟨l, hl⟩ := h
  obtain ⟨-, hholds⟩ := hl.drain fun entry => entry.owner == owner
  refine ⟨⟨_, hholds⟩, ?_⟩
  change (q.entries.drain fun entry => entry.owner == owner).2.toList = q.entries.toList.filter _
  rw [hholds.toList_eq, hl.toList_eq, List.filter_map]
  rfl

/-! ### Bounds -/

/-- The queue is well formed, and has room for `capacity` entries. -/
structure Bounded (q : CompletionQueue α) (capacity : Nat) : Prop where
  wellFormed : q.WellFormed
  sound : q.entries.arena.Sound capacity

variable {capacity : Nat}

theorem Bounded.length_eq (h : q.Bounded capacity) : q.length = q.toList.length := by
  obtain ⟨l, hl⟩ := h.wellFormed
  rw [toList, hl.toList_eq, List.length_map, hl.length_eq h.sound]
  rfl

theorem Bounded.length_le (h : q.Bounded capacity) : q.toList.length ≤ capacity := by
  obtain ⟨l, hl⟩ := h.wellFormed
  rw [toList, hl.toList_eq, List.length_map]
  exact h.sound.size_eq ▸ hl.length_le

/-- An item goes last, unless the queue is full. -/
theorem Bounded.enqueue_cases (h : q.Bounded capacity) (item : α) (owner : DeviceId) :
    (∃ q', q.enqueue item owner = .ok q' ∧ q'.Bounded capacity ∧
      q'.toList = q.toList ++ [⟨item, owner⟩]) ∨
    q.enqueue item owner = .error item ∧ q.toList.length = capacity := by
  obtain ⟨l, hl⟩ := h.wellFormed
  rcases hl.pushBack_cases h.sound ⟨item, owner⟩ with
    ⟨-, entries, handle, hpush, hsound, hholds⟩ | ⟨hfull, hrefused⟩
  · refine .inl ⟨⟨entries⟩, by rw [CompletionQueue.enqueue, hpush], ⟨⟨_, hholds⟩, hsound⟩, ?_⟩
    rw [toList, toList, hholds.toList_eq, hl.toList_eq, List.map_append]
    rfl
  · refine .inr ⟨by rw [CompletionQueue.enqueue, hrefused], ?_⟩
    rw [toList, hl.toList_eq, List.length_map, hfull]

/-- The first item can be taken, if there is one. -/
theorem Bounded.dequeue_cases (h : q.Bounded capacity) :
    (q.dequeue = none ∧ q.toList = []) ∨
    ∃ item q', q.dequeue = some (item, q') ∧ q'.Bounded capacity ∧
      ∃ owner, q.toList = ⟨item, owner⟩ :: q'.toList := by
  cases hdequeue : q.dequeue with
  | none =>
    refine .inl ⟨rfl, ?_⟩
    obtain ⟨l, hl⟩ := h.wellFormed
    cases l with
    | nil => exact hl.toList_eq
    | cons x l =>
      obtain ⟨handle, entry⟩ := x
      obtain ⟨entries, hpop, -⟩ := hl.popFront_cons
      simp [CompletionQueue.dequeue, hpop] at hdequeue
  | some taken =>
    obtain ⟨item, q'⟩ := taken
    obtain ⟨hwf, owner, hlist⟩ := h.wellFormed.dequeue hdequeue
    refine .inr ⟨item, q', rfl, ⟨hwf, ?_⟩, owner, hlist⟩
    unfold CompletionQueue.dequeue at hdequeue
    obtain ⟨⟨entry, entries⟩, hpop, hdequeue⟩ := Option.bind_eq_some_iff.1 hdequeue
    cases hdequeue
    exact Chain.sound_popFront h.sound hpop

end CompletionQueue

end UsbHost
