import UsbHost.DeviceId
import UsbHost.Frame.Number
import UsbHost.Queue.Chain

/-!
Deadline queues: items that wait for a frame. The queue is ordered by frame, and items for the same
frame keep the order in which they came. Frame numbers wrap, so the order is that of `Frame.isLater`.
-/

namespace UsbHost

structure DeadlineQueue.Entry (α : Type) where
  item : α
  owner : DeviceId
  frame : UInt16
  deriving Inhabited

structure DeadlineQueue (α : Type) where
  entries : Chain (DeadlineQueue.Entry α)
  deriving Inhabited

namespace DeadlineQueue

variable {α : Type}

def withCapacity (capacity : Nat) : Except Error (DeadlineQueue α) := do
  return ⟨← Chain.withCapacity capacity⟩

def length (q : DeadlineQueue α) : Nat := q.entries.length

def isEmpty (q : DeadlineQueue α) : Bool := q.entries.isEmpty

/-- Frame that the first item waits for. -/
def nextFrame? (q : DeadlineQueue α) : Option UInt16 := q.entries.front?.map Entry.frame

/-- Queue `item` for `frame`; a full queue hands it back. -/
def enqueue (q : DeadlineQueue α) (item : α) (owner : DeviceId) (frame : UInt16) :
    Except α (DeadlineQueue α) :=
  match q.entries.insertBefore (fun entry => Frame.isLater entry.frame frame)
    ⟨item, owner, frame⟩ with
  | .ok entries => .ok ⟨entries⟩
  | .error entry => .error entry.item

/-- Take the first item if it is due in frame `current`. -/
def dequeue (q : DeadlineQueue α) (current : UInt16) : Option (α × DeadlineQueue α) := do
  let first ← q.entries.front?
  if Frame.isLater first.frame current then none
  let (entry, entries) ← q.entries.popFront
  return (entry.item, ⟨entries⟩)

/-- Drop the entries that satisfy `p`, and count them. -/
def dropWhere (q : DeadlineQueue α) (p : Entry α → Bool) : Nat × DeadlineQueue α :=
  let (dropped, entries) := q.entries.drain p
  (dropped.length, ⟨entries⟩)

/-- Drop everything. -/
def flush (q : DeadlineQueue α) : Nat × DeadlineQueue α := q.dropWhere fun _ => true

/-- Drop the items of a device that goes away. -/
def flushOwner (q : DeadlineQueue α) (owner : DeviceId) : Nat × DeadlineQueue α :=
  q.dropWhere fun entry => entry.owner == owner

end DeadlineQueue

end UsbHost
