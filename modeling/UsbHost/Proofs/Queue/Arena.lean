import Mathlib.Data.List.Nodup
import Mathlib.Data.List.Perm.Subperm
import UsbHost.Queue.Arena

/-!
Arenas as maps. What an arena finds under a handle changes only by what is stored, replaced or taken
out under this very handle. Two handles that find something name different slots; so an arena finds
no more values than it has slots.
-/

namespace UsbHost.Arena

variable {α : Type} {a a' : Arena α} {h h' : Handle} {v v' : α}

attribute [ext] Handle

theorem get?_eq_some : a.get? h = some v ↔ a.slots[h.index]? = some (.occupied h.generation v) := by
  unfold get?
  split
  · rename_i generation value hslot
    rw [hslot, Option.some.injEq, Slot.occupied.injEq]
    split
    · rename_i heq
      rw [Option.some.injEq]
      exact ⟨fun hv => ⟨heq, hv⟩, fun hv => hv.2⟩
    · rename_i hne
      exact ⟨nofun, fun hv => absurd hv.1 hne⟩
  · rename_i hnone
    exact ⟨nofun, fun hslot => absurd hslot (hnone _ _)⟩

theorem index_lt (hv : a.get? h = some v) : h.index < a.slots.size :=
  (Array.getElem?_eq_some_iff.1 (get?_eq_some.1 hv)).1

/-- A slot is found under one handle only. -/
theorem eq_of_index_eq (hv : a.get? h = some v) (hv' : a.get? h' = some v')
    (hindex : h.index = h'.index) : h = h' := by
  rw [get?_eq_some] at hv hv'
  rw [hindex, hv', Option.some.injEq, Slot.occupied.injEq] at hv
  exact Handle.ext hindex hv.1.symm

/-- A handle finds what its slot says, and other handles find what they found. -/
theorem get?_of_setSlot {slot : Slot α} {h' : Handle}
    (hslots : a'.slots = a.slots.setIfInBounds h.index slot)
    (hother : h'.index = h.index → h' ≠ h → a.get? h' = none)
    (hslot : ∀ generation value, slot = .occupied generation value → generation = h.generation)
    (hne : h' ≠ h) : a'.get? h' = a.get? h' := by
  by_cases hindex : h'.index = h.index
  · rw [hother hindex hne]
    cases hget : a'.get? h' with
    | none => rfl
    | some value =>
      rw [get?_eq_some, hslots, hindex, Array.getElem?_setIfInBounds_self] at hget
      split at hget
      · have hgeneration := hslot _ _ (Option.some.inj hget)
        exact absurd (Handle.ext hindex hgeneration) hne
      · cases hget
  · unfold get?
    rw [hslots, Array.getElem?_setIfInBounds_ne (Ne.symm hindex)]

/-! ### Storing -/

/-- A value goes to a slot that has been vacant. -/
theorem insert_cases (hinsert : a.insert v = .ok (h, a')) :
    (∃ next, a.slots[h.index]? = some (.vacant h.generation next)) ∧
      a'.slots = a.slots.setIfInBounds h.index (.occupied h.generation v) := by
  unfold insert at hinsert
  split at hinsert
  · cases hinsert
  · split at hinsert
    · rename_i next hslot
      cases hinsert
      exact ⟨⟨next, hslot⟩, rfl⟩
    · cases hinsert

/-- No handle finds anything in the slot that a value goes to. -/
theorem get?_of_insert (hinsert : a.insert v = .ok (h, a')) (hindex : h'.index = h.index) :
    a.get? h' = none := by
  obtain ⟨⟨next, hslot⟩, -⟩ := insert_cases hinsert
  cases hget : a.get? h' with
  | none => rfl
  | some value =>
    rw [get?_eq_some, hindex, hslot] at hget
    cases hget

theorem get?_insert_self (hinsert : a.insert v = .ok (h, a')) : a'.get? h = some v := by
  obtain ⟨⟨next, hslot⟩, hslots⟩ := insert_cases hinsert
  rw [get?_eq_some, hslots]
  exact Array.getElem?_setIfInBounds_self_of_lt (Array.getElem?_eq_some_iff.1 hslot).1

theorem get?_insert_ne (hinsert : a.insert v = .ok (h, a')) (hne : h' ≠ h) :
    a'.get? h' = a.get? h' :=
  get?_of_setSlot (insert_cases hinsert).2 (fun hindex _ => get?_of_insert hinsert hindex)
    (fun _ _ hslot => (Slot.occupied.inj hslot).1.symm) hne

theorem size_insert (hinsert : a.insert v = .ok (h, a')) : a'.slots.size = a.slots.size := by
  rw [(insert_cases hinsert).2, Array.size_setIfInBounds]

/-! ### Replacing -/

theorem set_eq (hv : a.get? h = some v') (v : α) :
    (a.set h v).slots = a.slots.setIfInBounds h.index (.occupied h.generation v) := by
  rw [set, hv]

/-- No other handle finds anything in a slot that a handle finds something in. -/
theorem get?_of_ne (hv : a.get? h = some v) (hindex : h'.index = h.index) (hne : h' ≠ h) :
    a.get? h' = none := by
  cases hget : a.get? h' with
  | none => rfl
  | some value => exact absurd (eq_of_index_eq hget hv hindex) hne

@[simp] theorem get?_set_self (hv : a.get? h = some v') (v : α) : (a.set h v).get? h = some v := by
  rw [get?_eq_some, set_eq hv]
  exact Array.getElem?_setIfInBounds_self_of_lt (index_lt hv)

@[simp] theorem get?_set_ne (hv : a.get? h = some v') (v : α) (hne : h' ≠ h) :
    (a.set h v).get? h' = a.get? h' :=
  get?_of_setSlot (set_eq hv v) (fun hindex _ => get?_of_ne hv hindex hne)
    (fun _ _ hslot => (Slot.occupied.inj hslot).1.symm) hne

@[simp] theorem size_set (hv : a.get? h = some v') (v : α) :
    (a.set h v).slots.size = a.slots.size := by
  rw [set_eq hv, Array.size_setIfInBounds]

/-! ### Taking out -/

/-- What is found can be taken out. -/
theorem remove_eq (hv : a.get? h = some v) : ∃ a', a.remove h = some (v, a') ∧
    a'.slots = a.slots.setIfInBounds h.index (.vacant (h.generation + 1) a.freeHead) := by
  exact ⟨{ a with
    slots := a.slots.setIfInBounds h.index (.vacant (h.generation + 1) a.freeHead)
    freeHead := some h.index
    size := a.size - 1 }, by rw [remove, hv], rfl⟩

theorem remove_cases (hremove : a.remove h = some (v, a')) : a.get? h = some v ∧
    a'.slots = a.slots.setIfInBounds h.index (.vacant (h.generation + 1) a.freeHead) := by
  unfold remove at hremove
  split at hremove
  · rename_i value hget
    cases hremove
    exact ⟨hget, rfl⟩
  · cases hremove

theorem get?_remove_self (hremove : a.remove h = some (v, a')) : a'.get? h = none := by
  obtain ⟨hv, hslots⟩ := remove_cases hremove
  cases hget : a'.get? h with
  | none => rfl
  | some value =>
    rw [get?_eq_some, hslots, Array.getElem?_setIfInBounds_self_of_lt (index_lt hv)] at hget
    cases hget

theorem get?_remove_ne (hremove : a.remove h = some (v, a')) (hne : h' ≠ h) :
    a'.get? h' = a.get? h' := by
  obtain ⟨hv, hslots⟩ := remove_cases hremove
  exact get?_of_setSlot hslots (fun hindex _ => get?_of_ne hv hindex hne) (fun _ _ => nofun) hne

theorem size_remove (hremove : a.remove h = some (v, a')) : a'.slots.size = a.slots.size := by
  rw [(remove_cases hremove).2, Array.size_setIfInBounds]

/-! ### Counting -/

/-- Different handles that find something name different slots. -/
theorem nodup_indices {hs : List Handle} (hnodup : hs.Nodup)
    (hfound : ∀ h ∈ hs, ∃ v, a.get? h = some v) : (hs.map Handle.index).Nodup := by
  refine List.Nodup.map_on (fun h hmem h' hmem' hindex => ?_) hnodup
  obtain ⟨v, hv⟩ := hfound h hmem
  obtain ⟨v', hv'⟩ := hfound h' hmem'
  exact eq_of_index_eq hv hv' hindex

/-- Different handles that find something are no more than there are slots. -/
theorem length_le_size {hs : List Handle} (hnodup : hs.Nodup)
    (hfound : ∀ h ∈ hs, ∃ v, a.get? h = some v) : hs.length ≤ a.slots.size := by
  have hrange : hs.map Handle.index ⊆ List.range a.slots.size := by
    intro i hi
    obtain ⟨h, hmem, rfl⟩ := List.mem_map.1 hi
    obtain ⟨v, hv⟩ := hfound h hmem
    exact List.mem_range.2 (index_lt hv)
  have hlength := (List.subperm_of_subset (nodup_indices hnodup hfound) hrange).length_le
  rwa [List.length_map, List.length_range] at hlength

end UsbHost.Arena
