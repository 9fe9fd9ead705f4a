import UsbHost.Proofs.Queue.Chain

/-!
Vacant slots. The free list of an arena runs through every vacant slot once, whatever has been
stored and taken out. So a value is refused only when each slot is taken: a chain takes values until
it is as long as its arena.
-/

namespace UsbHost

namespace Arena

variable {α : Type}

/-- Following the free list from `cursor` on runs through the slots `l` and comes to an end. -/
def FreePath (slots : Array (Slot α)) (cursor : Option Nat) : List Nat → Prop
  | [] => cursor = none
  | i :: l => cursor = some i ∧
      ∃ generation next, slots[i]? = some (.vacant generation next) ∧ FreePath slots next l

/-- The vacant slots, in the order of the free list; what is not vacant has been counted. -/
structure Lists (a : Arena α) (l : List Nat) : Prop where
  path : FreePath a.slots a.freeHead l
  nodup : l.Nodup
  all : ∀ i generation next, a.slots[i]? = some (.vacant generation next) → i ∈ l
  counted : a.size + l.length = a.slots.size

/-- An arena of `capacity` slots whose vacant slots can all be found. -/
structure Sound (a : Arena α) (capacity : Nat) : Prop where
  size_eq : a.slots.size = capacity
  lists : ∃ l, a.Lists l

variable {a a' : Arena α} {capacity : Nat} {h : Handle} {v v' : α}

theorem FreePath.vacant {slots : Array (Slot α)} {cursor : Option Nat} {l : List Nat}
    (hpath : FreePath slots cursor l) :
    ∀ i ∈ l, ∃ generation next, slots[i]? = some (.vacant generation next) := by
  induction l generalizing cursor with
  | nil => exact nofun
  | cons i l ih =>
    obtain ⟨-, generation, next, hslot, hrest⟩ := hpath
    rw [List.forall_mem_cons]
    exact ⟨⟨generation, next, hslot⟩, ih hrest⟩

/-- The free list does not depend on a slot that is not on it. -/
theorem FreePath.setIfInBounds {slots : Array (Slot α)} {cursor : Option Nat} {l : List Nat}
    (hpath : FreePath slots cursor l) {i : Nat} (hi : i ∉ l) (slot : Slot α) :
    FreePath (slots.setIfInBounds i slot) cursor l := by
  induction l generalizing cursor with
  | nil => exact hpath
  | cons j l ih =>
    obtain ⟨hcursor, generation, next, hslot, hrest⟩ := hpath
    rw [List.mem_cons, not_or] at hi
    refine ⟨hcursor, generation, next, ?_, ih hrest hi.2⟩
    rw [Array.getElem?_setIfInBounds_ne hi.1, hslot]

/-- What holds a value is not on the free list. -/
theorem Lists.not_mem {l : List Nat} (hl : a.Lists l) (hget : a.get? h = some v) :
    h.index ∉ l := by
  intro hmem
  obtain ⟨generation, next, hslot⟩ := hl.path.vacant _ hmem
  rw [get?_eq_some.1 hget] at hslot
  cases hslot

theorem freePath_empty (count first : Nat) :
    FreePath (empty (first + count) : Arena α).slots (if 0 < count then some first else none)
      (List.range' first count) := by
  induction count generalizing first with
  | zero => rfl
  | succ count ih =>
    have hrest := ih (first + 1)
    rw [Nat.add_right_comm] at hrest
    refine ⟨rfl, 0, _, ?_, hrest⟩
    simp [empty]

theorem sound_empty (hcapacity : 0 < capacity) : (empty capacity : Arena α).Sound capacity where
  size_eq := Array.size_ofFn
  lists := by
    refine ⟨List.range' 0 capacity, ?_, List.nodup_range', fun i generation next hslot => ?_, ?_⟩
    · have hpath := freePath_empty (α := α) capacity 0
      rwa [Nat.zero_add, if_pos hcapacity] at hpath
    · have hlt := (Array.getElem?_eq_some_iff.1 hslot).1
      rw [empty, Array.size_ofFn] at hlt
      simpa using hlt
    · simp [empty]

theorem withCapacity_eq (hpos : 0 < capacity) (hmax : capacity ≤ maxCapacity) :
    withCapacity capacity = .ok (.empty capacity : Arena α) := by
  rw [withCapacity, if_neg]
  omega

theorem withCapacity_ok (h : withCapacity capacity = .ok a) :
    0 < capacity ∧ a = .empty capacity := by
  unfold withCapacity at h
  split at h
  · cases h
  · rename_i hcapacity
    cases h
    exact ⟨by omega, rfl⟩

/-- A value goes to the first slot of the free list. -/
theorem insert_free (hinsert : a.insert v = .ok (h, a')) :
    a.freeHead = some h.index ∧ a.slots[h.index]? = some (.vacant h.generation a'.freeHead) ∧
      a'.size = a.size + 1 := by
  unfold insert at hinsert
  split at hinsert
  · cases hinsert
  · rename_i index hhead
    split at hinsert
    · rename_i hslot
      cases hinsert
      exact ⟨hhead, hslot, rfl⟩
    · cases hinsert

theorem Sound.insert (hs : a.Sound capacity) (hinsert : a.insert v = .ok (h, a')) :
    a'.Sound capacity := by
  obtain ⟨l, hpath, hnodup, hall, hcounted⟩ := hs.lists
  obtain ⟨hhead, hslot, hsize⟩ := insert_free hinsert
  have hslots := (insert_cases hinsert).2
  refine ⟨(size_insert hinsert).trans hs.size_eq, ?_⟩
  cases l with
  | nil =>
    have hnone : a.freeHead = none := hpath
    rw [hnone] at hhead
    cases hhead
  | cons i l =>
    obtain ⟨hi, generation, next, hslot', hrest⟩ := hpath
    obtain rfl : h.index = i := Option.some.inj (hhead.symm.trans hi)
    obtain ⟨-, rfl⟩ := Slot.vacant.inj (Option.some.inj (hslot.symm.trans hslot'))
    rw [List.nodup_cons] at hnodup
    refine ⟨l, ?_, hnodup.2, fun j generation' next' hj => ?_, ?_⟩
    · rw [hslots]
      exact hrest.setIfInBounds hnodup.1 _
    · have hne : h.index ≠ j := by
        rintro rfl
        rw [hslots, Array.getElem?_setIfInBounds_self] at hj
        split at hj <;> cases hj
      rw [hslots, Array.getElem?_setIfInBounds_ne hne] at hj
      exact (List.mem_cons.1 (hall j _ _ hj)).resolve_left hne.symm
    · rw [size_insert hinsert, ← hcounted, hsize, List.length_cons]
      omega

theorem Sound.set (hs : a.Sound capacity) (h : Handle) (v : α) : (a.set h v).Sound capacity := by
  cases hget : a.get? h with
  | none => rwa [Arena.set, hget]
  | some v' =>
    obtain ⟨l, hl⟩ := hs.lists
    have hslots := set_eq hget v
    have hfree : (a.set h v).freeHead = a.freeHead := by rw [Arena.set, hget]
    have hsize : (a.set h v).size = a.size := by rw [Arena.set, hget]
    refine ⟨(size_set hget v).trans hs.size_eq, l, ?_, hl.nodup, fun i generation next hi => ?_, ?_⟩
    · rw [hslots, hfree]
      exact hl.path.setIfInBounds (hl.not_mem hget) _
    · have hne : h.index ≠ i := by
        rintro rfl
        rw [hslots, Array.getElem?_setIfInBounds_self] at hi
        split at hi <;> cases hi
      rw [hslots, Array.getElem?_setIfInBounds_ne hne] at hi
      exact hl.all i _ _ hi
    · simp [hsize, hl.counted, hget]

/-- While something is stored, the free list is shorter than the arena. -/
theorem Lists.length_lt {l : List Nat} (hl : a.Lists l) (hget : a.get? h = some v) :
    l.length < a.slots.size := by
  have hindex := index_lt hget
  have hsub : l ⊆ (List.range a.slots.size).erase h.index := by
    intro i hi
    obtain ⟨generation, next, hslot⟩ := hl.path.vacant i hi
    refine (List.mem_erase_of_ne ?_).2
      (List.mem_range.2 (Array.getElem?_eq_some_iff.1 hslot).1)
    rintro rfl
    exact hl.not_mem hget hi
  have hle := (List.subperm_of_subset hl.nodup hsub).length_le
  rw [List.length_erase_of_mem (List.mem_range.2 hindex), List.length_range] at hle
  omega

theorem Sound.remove (hs : a.Sound capacity) (hremove : a.remove h = some (v, a')) :
    a'.Sound capacity := by
  obtain ⟨l, hl⟩ := hs.lists
  obtain ⟨hget, hslots⟩ := remove_cases hremove
  have hfree : a'.freeHead = some h.index ∧ a'.size = a.size - 1 := by
    rw [Arena.remove, hget] at hremove
    cases hremove
    exact ⟨rfl, rfl⟩
  have hlength := hl.length_lt hget
  have hcounted := hl.counted
  refine ⟨(size_remove hremove).trans hs.size_eq, h.index :: l,
    ⟨hfree.1, h.generation + 1, a.freeHead, ?_, ?_⟩,
    List.nodup_cons.2 ⟨hl.not_mem hget, hl.nodup⟩, fun i generation next hi => ?_, ?_⟩
  · rw [hslots]
    exact Array.getElem?_setIfInBounds_self_of_lt (index_lt hget)
  · rw [hslots]
    exact hl.path.setIfInBounds (hl.not_mem hget) _
  · by_cases hne : h.index = i
    · exact List.mem_cons.2 (.inl hne.symm)
    · rw [hslots, Array.getElem?_setIfInBounds_ne hne] at hi
      exact List.mem_cons_of_mem _ (hl.all i _ _ hi)
  · rw [hfree.2, List.length_cons, size_remove hremove]
    omega

/-- A value is refused only when every slot has been counted as taken. -/
theorem Sound.size_of_refused (hs : a.Sound capacity) (hinsert : a.insert v = .error v') :
    a.size = capacity := by
  obtain ⟨l, hl⟩ := hs.lists
  have hcounted := hl.counted
  cases l with
  | nil => exact hcounted.trans hs.size_eq
  | cons i l =>
    obtain ⟨hhead, generation, next, hslot, -⟩ := hl.path
    simp [Arena.insert, hhead, hslot] at hinsert

/-- When as many values are stored as there are slots, the next one is refused. -/
theorem Sound.insert_of_full (hs : a.Sound capacity) (hfull : a.size = capacity) (v : α) :
    a.insert v = .error v := by
  obtain ⟨l, hl⟩ := hs.lists
  have hcounted := hl.counted
  have hnil : l = [] := by
    rw [← List.length_eq_zero_iff]
    have hsize := hs.size_eq
    omega
  have hpath := hl.path
  rw [hnil] at hpath
  have hhead : a.freeHead = none := hpath
  rw [Arena.insert, hhead]

/-- The free list never leads to a slot that holds a value. -/
theorem Lists.vacant_freeHead {l : List Nat} (hl : a.Lists l) {i : Nat}
    (hi : a.freeHead = some i) :
    ∃ generation next, a.slots[i]? = some (.vacant generation next) := by
  have hpath := hl.path
  cases l with
  | nil => cases hi.symm.trans hpath
  | cons j l =>
    obtain rfl := Option.some.inj (hi.symm.trans hpath.1)
    exact hl.path.vacant i List.mem_cons_self

/-- Every slot is on the free list or holds a value. -/
theorem Lists.mem_or_found {l : List Nat} (hl : a.Lists l) {i : Nat} (hi : i < a.slots.size) :
    i ∈ l ∨ ∃ h v, h.index = i ∧ a.get? h = some v := by
  cases hslot : a.slots[i] with
  | vacant generation next =>
    exact .inl (hl.all i generation next (Array.getElem?_eq_some_iff.2 ⟨hi, hslot⟩))
  | occupied generation value =>
    exact .inr ⟨⟨i, generation⟩, value, rfl,
      get?_eq_some.2 (Array.getElem?_eq_some_iff.2 ⟨hi, hslot⟩)⟩

/-- The values that can be found are those that have been counted. -/
theorem Sound.length_eq (hs : a.Sound capacity) {handles : List Handle} (hnodup : handles.Nodup)
    (hfound : ∀ h, h ∈ handles ↔ ∃ v, a.get? h = some v) : handles.length = a.size := by
  obtain ⟨l, hl⟩ := hs.lists
  have hindices := nodup_indices hnodup fun h hmem => (hfound h).1 hmem
  have hall : (handles.map Handle.index ++ l).Perm (List.range a.slots.size) := by
    refine (List.perm_ext_iff_of_nodup (List.nodup_append.2 ⟨hindices, hl.nodup, ?_⟩)
      List.nodup_range).2 fun i => ?_
    · rintro i hi _ hfree rfl
      obtain ⟨h, hmem, rfl⟩ := List.mem_map.1 hi
      obtain ⟨v, hv⟩ := (hfound h).1 hmem
      exact hl.not_mem hv hfree
    · rw [List.mem_append, List.mem_range]
      constructor
      · rintro (hi | hi)
        · obtain ⟨h, hmem, rfl⟩ := List.mem_map.1 hi
          obtain ⟨v, hv⟩ := (hfound h).1 hmem
          exact index_lt hv
        · obtain ⟨generation, next, hslot⟩ := hl.path.vacant i hi
          exact (Array.getElem?_eq_some_iff.1 hslot).1
      · intro hi
        rcases hl.mem_or_found hi with hfree | ⟨h, v, rfl, hv⟩
        · exact .inr hfree
        · exact .inl (List.mem_map_of_mem ((hfound h).2 ⟨v, hv⟩))
  have hlength := hall.length_eq
  have hcounted := hl.counted
  rw [List.length_append, List.length_map, List.length_range] at hlength
  omega

end Arena

namespace Chain

variable {α : Type} {c c' : Chain α} {l : List (Arena.Handle × α)} {capacity : Nat} {v v' : α}

theorem withCapacity_eq (hpos : 0 < capacity) (hmax : capacity ≤ Arena.maxCapacity) :
    withCapacity capacity = .ok { arena := .empty capacity : Chain α } := by
  rw [withCapacity, Arena.withCapacity_eq hpos hmax]
  rfl

/-- A new chain holds nothing. -/
theorem withCapacity_ok (h : withCapacity capacity = .ok c) :
    c.Holds [] ∧ c.arena.Sound capacity := by
  unfold withCapacity at h
  cases hnew : Arena.withCapacity (α := Link α) capacity with
  | error error =>
    rw [hnew] at h
    cases h
  | ok a =>
    rw [hnew] at h
    cases h
    obtain ⟨hpos, rfl⟩ := Arena.withCapacity_ok hnew
    exact ⟨holds_empty capacity, Arena.sound_empty hpos⟩

theorem sound_insertAfter {previous : Option Arena.Handle} (hs : c.arena.Sound capacity)
    (hinsert : c.insertAfter previous v = .ok c') : c'.arena.Sound capacity := by
  unfold insertAfter at hinsert
  split at hinsert
  · cases hinsert
  · rename_i handle arena hstore
    have hstored := hs.insert hstore
    cases hinsert
    refine Arena.Sound.set ?_ _ _
    split
    · exact hstored
    · rename_i p
      cases arena.get? p with
      | none => exact hstored
      | some link => exact hstored.set _ _

theorem sound_remove {arena : Arena (Link α)} (hs : arena.Sound capacity) (h : Arena.Handle) :
    ((arena.remove h).elim arena Prod.snd).Sound capacity := by
  cases hremove : arena.remove h with
  | none => exact hs
  | some removed => exact hs.remove (v := removed.1) hremove

theorem sound_unlink {previous next : Option Arena.Handle} {h : Arena.Handle}
    (hs : c.arena.Sound capacity) : (c.unlink previous h next).arena.Sound capacity := by
  cases previous with
  | none => exact sound_remove hs h
  | some p =>
    simp only [unlink]
    cases c.arena.get? p with
    | none => exact sound_remove hs h
    | some link => exact sound_remove (hs.set _ _) h

theorem sound_drainFrom (p : α → Bool) {previous cursor : Option Arena.Handle} {steps : Nat}
    (hs : c.arena.Sound capacity) :
    (drainFrom p c previous cursor steps).2.arena.Sound capacity := by
  induction steps generalizing c previous cursor with
  | zero => exact hs
  | succ steps ih =>
    unfold drainFrom
    split
    · exact hs
    · split
      · exact hs
      · split
        · exact ih (sound_unlink hs)
        · exact ih hs

theorem sound_drain (p : α → Bool) (hs : c.arena.Sound capacity) :
    (c.drain p).2.arena.Sound capacity := sound_drainFrom p hs

theorem sound_popFront (hs : c.arena.Sound capacity) (hpop : c.popFront = some (v, c')) :
    c'.arena.Sound capacity := by
  obtain ⟨h, -, hpop⟩ := Option.bind_eq_some_iff.1 hpop
  obtain ⟨⟨link, arena⟩, hremove, hpop⟩ := Option.bind_eq_some_iff.1 hpop
  cases hpop
  exact hs.remove hremove

/-- A chain is as long as it says. -/
theorem Holds.length_eq (h : c.Holds l) (hs : c.arena.Sound capacity) : l.length = c.length := by
  have hfound : ∀ handle, handle ∈ l.map Prod.fst ↔ ∃ link, c.arena.get? handle = some link :=
    fun handle => ⟨h.path.found handle, fun hmem => hmem.elim fun link hlink =>
      h.all handle link hlink⟩
  have hlength := hs.length_eq h.nodup hfound
  rwa [List.length_map] at hlength

/-- A chain that refuses a value is as long as its arena. -/
theorem Holds.length_of_refused {previous : Option Arena.Handle} (h : c.Holds l)
    (hs : c.arena.Sound capacity) (hrefused : c.insertAfter previous v = .error v') :
    l.length = capacity := by
  rw [h.length_eq hs]
  unfold Chain.insertAfter at hrefused
  split at hrefused
  · exact hs.size_of_refused ‹_›
  · cases hrefused

/-- A value goes in between two links, unless the chain is full. -/
theorem Holds.insertAfter_cases {kept rest : List (Arena.Handle × α)}
    (h : c.Holds (kept ++ rest)) (hs : c.arena.Sound capacity) (v : α) :
    ((kept ++ rest).length < capacity ∧ ∃ c' handle,
      c.insertAfter (kept.getLast?.map Prod.fst) v = .ok c' ∧ c'.arena.Sound capacity ∧
      c'.Holds (kept ++ (handle, v) :: rest)) ∨
    (kept ++ rest).length = capacity ∧
      c.insertAfter (kept.getLast?.map Prod.fst) v = .error v := by
  cases hinsert : c.insertAfter (kept.getLast?.map Prod.fst) v with
  | ok c' =>
    obtain ⟨handle, hholds⟩ := h.insertAfter hinsert
    have hs' := sound_insertAfter hs hinsert
    have hlength := hholds.length_le
    rw [Chain.capacity, Arena.capacity, hs'.size_eq] at hlength
    rw [List.length_append, List.length_cons, ← Nat.add_assoc, ← List.length_append] at hlength
    exact .inl ⟨hlength, c', handle, rfl, hs', hholds⟩
  | error v' =>
    obtain rfl := eq_of_insertAfter_error hinsert
    exact .inr ⟨h.length_of_refused hs hinsert, rfl⟩

/-- A value goes in before the first one that satisfies `p`, unless the chain is full. -/
theorem Holds.insertBefore_cases (h : c.Holds l) (hs : c.arena.Sound capacity) (p : α → Bool)
    (v : α) :
    (l.length < capacity ∧ ∃ c' handle, c.insertBefore p v = .ok c' ∧ c'.arena.Sound capacity ∧
      c'.Holds ((l.takeWhile fun x => !p x.2) ++ (handle, v) :: l.dropWhile fun x => !p x.2)) ∨
    l.length = capacity ∧ c.insertBefore p v = .error v := by
  have hsplit : (l.takeWhile fun x => !p x.2) ++ (l.dropWhile fun x => !p x.2) = l :=
    List.takeWhile_append_dropWhile
  have hcases := Holds.insertAfter_cases (hsplit.symm ▸ h) hs v
  rwa [hsplit, ← h.insertBefore_eq] at hcases

/-- A value goes in last, unless the chain is full. -/
theorem Holds.pushBack_cases (h : c.Holds l) (hs : c.arena.Sound capacity) (v : α) :
    (l.length < capacity ∧ ∃ c' handle, c.pushBack v = .ok c' ∧ c'.arena.Sound capacity ∧
      c'.Holds (l ++ [(handle, v)])) ∨
    l.length = capacity ∧ c.pushBack v = .error v := by
  have hall : c.Holds (l ++ []) := by rwa [List.append_nil]
  have hcases := hall.insertAfter_cases hs v
  rwa [List.append_nil, ← h.tail_eq] at hcases

end Chain

end UsbHost
