import UsbHost.Error

/-!
Arenas: a fixed number of slots, addressed by handles. A handle names a slot and the generation of
its contents; removing a value moves the slot on to the next generation, so an old handle finds
nothing. The vacant slots form a free list inside the arena itself, and nothing is allocated after
the arena has been made.
-/

namespace UsbHost

structure Arena.Handle where
  index : Nat
  generation : UInt16
  deriving DecidableEq, Inhabited

inductive Arena.Slot (α : Type)
  | occupied (generation : UInt16) (value : α)
  | vacant (generation : UInt16) (nextFree : Option Nat)
  deriving Inhabited

structure Arena (α : Type) where
  slots : Array (Arena.Slot α)
  /-- The vacant slot that the next value goes to. -/
  freeHead : Option Nat
  /-- Values stored. -/
  size : Nat
  deriving Inhabited

namespace Arena

variable {α : Type}

/-- Most slots that the index of a handle can tell apart. -/
def maxCapacity : Nat := 65535

/-- An empty arena of `capacity` slots; the free list runs through them in order. -/
def empty (capacity : Nat) : Arena α where
  slots := Array.ofFn fun i : Fin capacity =>
    .vacant 0 (if i + 1 < capacity then some (i + 1) else none)
  freeHead := some 0
  size := 0

def withCapacity (capacity : Nat) : Except Error (Arena α) :=
  if capacity = 0 ∨ maxCapacity < capacity then
    .error (.invalidArgument "capacity" "must be in 1..=65535")
  else
    .ok (empty capacity)

def capacity (a : Arena α) : Nat := a.slots.size

def isEmpty (a : Arena α) : Bool := a.size == 0

def isFull (a : Arena α) : Bool := a.freeHead.isNone

/-- Store `value` in the first slot of the free list; a full arena hands it back. -/
def insert (a : Arena α) (value : α) : Except α (Handle × Arena α) :=
  match a.freeHead with
  | none => .error value
  | some index =>
    match a.slots[index]? with
    | some (.vacant generation nextFree) =>
      .ok (⟨index, generation⟩,
        { slots := a.slots.setIfInBounds index (.occupied generation value)
          freeHead := nextFree
          size := a.size + 1 })
    | _ => .error value

/-- The value that `h` was issued for, if it is still there. -/
def get? (a : Arena α) (h : Handle) : Option α :=
  match a.slots[h.index]? with
  | some (.occupied generation value) => if generation = h.generation then some value else none
  | _ => none

/-- Replace the value that `h` was issued for, if it is still there. -/
def set (a : Arena α) (h : Handle) (value : α) : Arena α :=
  match a.get? h with
  | some _ => { a with slots := a.slots.setIfInBounds h.index (.occupied h.generation value) }
  | none => a

/-- Take out the value that `h` was issued for, if it is still there. -/
def remove (a : Arena α) (h : Handle) : Option (α × Arena α) :=
  match a.get? h with
  | some value => some (value,
      { slots := a.slots.setIfInBounds h.index (.vacant (h.generation + 1) a.freeHead)
        freeHead := some h.index
        size := a.size - 1 })
  | none => none

end Arena

end UsbHost
