import UsbHost.DeviceId
import UsbHost.Queue.Chain

/-!
Completion queues: finished items in the order in which they finished, waiting for task level.
-/

namespace UsbHost

structure CompletionQueue.Entry (α : Type) where
  item : α
  owner : DeviceId
  deriving Inhabited

structure CompletionQueue (α : Type) where
  entries : Chain (CompletionQueue.Entry α)
  deriving Inhabited

namespace CompletionQueue

variable {α : Type}

def withCapacity (capacity : Nat) : Except Error (CompletionQueue α) := do
  return ⟨← Chain.withCapacity capacity⟩

def length (q : CompletionQueue α) : Nat := q.entries.length

def isEmpty (q : CompletionQueue α) : Bool := q.entries.isEmpty

/-- Queue `item` last; a full queue hands it back. -/
def enqueue (q : CompletionQueue α) (item : α) (owner : DeviceId) :
    Except α (CompletionQueue α) :=
  match q.entries.pushBack ⟨item, owner⟩ with
  | .ok entries => .ok ⟨entries⟩
  | .error entry => .error entry.item

/-- Take the first item. -/
def dequeue (q : CompletionQueue α) : Option (α × CompletionQueue α) := do
  let (entry, entries) ← q.entries.popFront
  return (entry.item, ⟨entries⟩)

/-- Drop the entries that satisfy `p`, and count them. -/
def dropWhere (q : CompletionQueue α) (p : Entry α → Bool) : Nat × CompletionQueue α :=
  let (dropped, entries) := q.entries.drain p
  (dropped.length, ⟨entries⟩)

/-- Drop everything. -/
def flush (q : CompletionQueue α) : Nat × CompletionQueue α := q.dropWhere fun _ => true

/-- Drop the items of a device that goes away. -/
def flushOwner (q : CompletionQueue α) (owner : DeviceId) : Nat × CompletionQueue α :=
  q.dropWhere fun entry => entry.owner == owner

end CompletionQueue

end UsbHost
