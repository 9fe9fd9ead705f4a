import UsbHost.Ring.Address
import UsbHost.Trb.Build

/-!
Producer rings: transfer and command rings, written by software and read by the controller. The
last TRB is a Link TRB back to the first; whoever passes it flips its cycle state, so on every
traversal fresh TRBs carry the other cycle bit. A TRB is outstanding from the moment it is enqueued
until the controller has reported it and it is released. One TRB always stays free: a full ring
and an empty one would otherwise look alike.
-/

namespace UsbHost

structure ProducerRing where
  kind : Ring.Kind
  /-- Bus address of the first TRB. -/
  base : UInt64
  trbs : Array Trb
  enqueueIndex : Nat := 0
  dequeueIndex : Nat := 0
  cycle : Bool := true
  deriving DecidableEq

namespace ProducerRing

/-- An unused ring of `count` TRBs at `base`. -/
def create (kind : Ring.Kind) (count : Nat) (base : UInt64) : ProducerRing where
  kind := kind
  base := base
  trbs := (Array.replicate count .blank).setIfInBounds (count - 1) (.link base)

instance : Inhabited ProducerRing := ⟨create .transfer Config.minRingSize 0⟩

/-- Places that can hold a TRB of a caller; the Link TRB is none of them. -/
def capacity (r : ProducerRing) : Nat := r.trbs.size - 1

def trbAt (r : ProducerRing) (index : Nat) : Trb := r.trbs.getD index .blank

def store (r : ProducerRing) (index : Nat) (t : Trb) : ProducerRing :=
  { r with trbs := r.trbs.setIfInBounds index t }

def next (r : ProducerRing) (index : Nat) : Nat := (index + 1) % r.capacity

/-- TRBs handed to the controller and not yet released. -/
def outstanding (r : ProducerRing) : Nat :=
  (r.enqueueIndex + r.capacity - r.dequeueIndex) % r.capacity

/-- TRBs that can be enqueued before the ring is full. -/
def freeSlots (r : ProducerRing) : Nat := r.capacity - 1 - r.outstanding

def isFull (r : ProducerRing) : Bool := r.next r.enqueueIndex == r.dequeueIndex

def address (r : ProducerRing) (index : Nat) : Except Fault UInt64 := Ring.address r.base index

def indexOf? (r : ProducerRing) (address : UInt64) : Option Nat :=
  Ring.indexOf? r.base r.trbs.size address

/-! ### Enqueueing -/

/-- Address of the next free TRB, unless the ring is full. -/
def nextAddress? (r : ProducerRing) : Except Fault (Option UInt64) :=
  if r.isFull then .ok none else some <$> r.address r.enqueueIndex

/-- Move past the TRB just written. At the end of the ring the Link TRB is handed over too: it
takes the chain bit of the TRB before it, so that a transfer descriptor may continue at the base. -/
def advance (r : ProducerRing) : ProducerRing :=
  let linkIndex := r.trbs.size - 1
  if r.enqueueIndex + 1 = linkIndex then
    let chained := (r.trbAt (linkIndex - 1)).flags.contains .chain
    let link := ((r.trbAt linkIndex).withChain chained).withCycle r.cycle
    { r.store linkIndex link with
      enqueueIndex := 0
      cycle := if link.flags.contains .toggleCycle then !r.cycle else r.cycle }
  else
    { r with enqueueIndex := r.enqueueIndex + 1 }

/-- Write `t` with the current cycle bit; `none` if the ring is full. -/
def enqueue (r : ProducerRing) (t : Trb) : Except Fault (Option (UInt64 × ProducerRing)) := do
  match ← r.nextAddress? with
  | none => return none
  | some address => return some (address, (r.store r.enqueueIndex (t.withCycle r.cycle)).advance)

/-! ### Releasing -/

/-- The oldest outstanding TRB. -/
def oldest? (r : ProducerRing) : Option Trb :=
  if r.dequeueIndex = r.enqueueIndex then none else some (r.trbAt r.dequeueIndex)

/-- Release the oldest outstanding TRB; the result is the address of the one after it. -/
def releaseOne (r : ProducerRing) : Except Fault (UInt64 × ProducerRing) := do
  if r.dequeueIndex = r.enqueueIndex then
    throw (.releaseWithoutOutstanding r.kind)
  let index := r.next r.dequeueIndex
  return (← r.address index, { r with dequeueIndex := index })

/-- Release the `n` oldest outstanding TRBs. -/
def release (r : ProducerRing) : Nat → Except Fault ProducerRing
  | 0 => .ok r
  | n + 1 => do (← r.releaseOne).2.release n

/-- Number of TRBs from the oldest outstanding one to the one at `index`. -/
def distance (r : ProducerRing) (index : Nat) : Nat :=
  (index + r.capacity - r.dequeueIndex) % r.capacity

/-- The TRB at `index` has been enqueued and not yet released. -/
def isOutstanding (r : ProducerRing) (index : Nat) : Bool :=
  index < r.capacity && r.distance index < r.outstanding

/-- Release the outstanding TRBs up to the one at `address`, and count them; an address without
outstanding TRB releases nothing. -/
def releaseThrough (r : ProducerRing) (address : UInt64) :
    Except Fault (Nat × ProducerRing) := do
  match r.indexOf? address with
  | none => return (0, r)
  | some index =>
    if r.isOutstanding index then
      let count := r.distance index + 1
      return (count, ← r.release count)
    else
      return (0, r)

end ProducerRing

end UsbHost
