import UsbHost.Ring.Address

/-!
Event rings: written by the controller and read by software. There is no Link TRB. An entry is
fresh when its cycle bit equals the reader's cycle state, which flips whenever the reader starts
over at the base. `EventSource` is the other end: the place where the controller writes next.
-/

namespace UsbHost

structure EventRing where
  /-- Bus address of the first TRB. -/
  base : UInt64
  trbs : Array Trb
  dequeueIndex : Nat := 0
  cycle : Bool := true
  deriving DecidableEq

namespace EventRing

/-- An unused ring of `count` TRBs at `base`. -/
def create (count : Nat) (base : UInt64) : EventRing := ⟨base, .replicate count .blank, 0, true⟩

instance : Inhabited EventRing := ⟨create Config.minRingSize 0⟩

def trbAt (r : EventRing) (index : Nat) : Trb := r.trbs.getD index .blank

def store (r : EventRing) (index : Nat) (t : Trb) : EventRing :=
  { r with trbs := r.trbs.setIfInBounds index t }

def address (r : EventRing) (index : Nat) : Except Fault UInt64 := Ring.address r.base index

/-- The next event, if the controller has written one. -/
def peek? (r : EventRing) : Option Trb :=
  let t := r.trbAt r.dequeueIndex
  if t.cycle = r.cycle then some t else none

/-- The reader's position after one more event. -/
def advance (r : EventRing) : EventRing :=
  if r.dequeueIndex + 1 = r.trbs.size then
    { r with dequeueIndex := 0, cycle := !r.cycle }
  else
    { r with dequeueIndex := r.dequeueIndex + 1 }

/-- Move past one event; the result is the address of the next. -/
def consume (r : EventRing) : Except Fault (UInt64 × EventRing) := do
  return (← r.advance.address r.advance.dequeueIndex, r.advance)

end EventRing

/-- Where a controller writes its next event, and with which cycle bit. -/
structure EventSource where
  index : Nat := 0
  cycle : Bool := true
  deriving DecidableEq, Inhabited

/-- Write an event and move on. The source does not look whether the place is free. -/
def EventSource.post (s : EventSource) (r : EventRing) (t : Trb) : EventSource × EventRing :=
  let r' := r.store s.index (t.withCycle s.cycle)
  if s.index + 1 = r.trbs.size then (⟨0, !s.cycle⟩, r') else (⟨s.index + 1, s.cycle⟩, r')

end UsbHost
