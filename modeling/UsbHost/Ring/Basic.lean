import UsbHost.Bits.Hex
import UsbHost.Ring.Event
import UsbHost.Ring.Producer

/-!
Rings of any kind, with the operations that a diagnostic tool needs on all of them. What does not
fit the kind of a ring is a fault. The operations run on a ring as state, so that a fault in the
middle of several steps leaves the steps done before it.
-/

namespace UsbHost

inductive Ring
  | producer (ring : ProducerRing)
  | event (ring : EventRing)
  deriving DecidableEq, Inhabited

namespace Ring

/-- Operations on one ring. -/
abbrev Action := EStateM Fault Ring

def create (kind : Kind) (count : Nat) (base : UInt64) : Ring :=
  if kind.isProducer then .producer (.create kind count base) else .event (.create count base)

def kind : Ring → Kind
  | producer r => r.kind
  | event _ => .event

def base : Ring → UInt64
  | producer r => r.base
  | event r => r.base

def trbs : Ring → Array Trb
  | producer r => r.trbs
  | event r => r.trbs

/-- Places that can hold a TRB of the producing side. -/
def capacity : Ring → Nat
  | producer r => r.capacity
  | event r => r.trbs.size

def enqueueIndex : Ring → Nat
  | producer r => r.enqueueIndex
  | event _ => 0

def dequeueIndex : Ring → Nat
  | producer r => r.dequeueIndex
  | event r => r.dequeueIndex

def cycle : Ring → Bool
  | producer r => r.cycle
  | event r => r.cycle

def trbAddress (r : Ring) (index : Nat) : Except Fault UInt64 := Ring.address r.base index

def index? (r : Ring) (address : UInt64) : Option Nat := indexOf? r.base r.trbs.size address

/-- The producer ring inside, for questions that make sense on it alone. -/
def producer? : Ring → Except Fault ProducerRing
  | producer r => .ok r
  | event _ => .error .notProducer

def isOutstanding (r : Ring) (index : Nat) : Except Fault Bool :=
  if index < r.capacity then return (← r.producer?).isOutstanding index else return false

def read (r : Ring) (index : Nat) : Except Fault Trb :=
  if h : index < r.trbs.size then .ok r.trbs[index] else .error .outOfBounds

/-- What the reading side finds next: the next event, or the oldest outstanding TRB. -/
def oldest? : Ring → Option Trb
  | producer r => r.oldest?
  | event r => r.peek?

/-- Indices and contents of the TRBs that are not blank. -/
def written (r : Ring) : List (Nat × Trb) :=
  (r.trbs.toList.zipIdx.filter fun entry => entry.1 ≠ .blank).map Prod.swap

/-- The form diagnostics print. -/
def diagnostic (r : Ring) : String :=
  "Ring \x7b type: " ++ r.kind.name ++ ", base: " ++ Bits.hex r.base.toNat ++
    ", trb_count: " ++ toString r.trbs.size ++ ", enqueue: " ++ toString r.enqueueIndex ++
    ", dequeue: " ++ toString r.dequeueIndex ++ ", cycle_state: " ++ toString r.cycle ++ " \x7d"

/-! ### Actions -/

/-- Run an operation of producer rings. -/
def onProducer {α : Type} (op : ProducerRing → Except Fault (α × ProducerRing)) : Action α :=
  fun ring =>
    match ring with
    | event _ => .error .enqueueOnEventRing ring
    | producer r =>
      match op r with
      | .ok (a, r') => .ok a (producer r')
      | .error f => .error f ring

def nextAddress? : Action (Option UInt64) :=
  onProducer fun r => return (← r.nextAddress?, r)

def advance : Action Unit := onProducer fun r => return ((), r.advance)

def enqueue (t : Trb) : Action (Option UInt64) :=
  onProducer fun r => do
    match ← r.enqueue t with
    | none => return (none, r)
    | some (address, r') => return (some address, r')

/-- Move past one TRB on the reading side; the result is the address of the next. -/
def consume : Action UInt64 := fun ring =>
  match ring with
  | event r =>
    match r.consume with
    | .ok (address, r') => .ok address (event r')
    | .error f => .error f (event r.advance)
  | producer r =>
    match r.releaseOne with
    | .ok (address, r') => .ok address (producer r')
    | .error f => .error f ring

/-- Move past `n` TRBs on the reading side. -/
def release : Nat → Action Unit
  | 0 => pure ()
  | n + 1 => do
    let _ ← consume
    release n

/-- Release the outstanding TRBs up to the one at `address`, and count them. -/
def releaseThrough (address : UInt64) : Action Nat := fun ring =>
  match ring.index? address with
  | none => .ok 0 ring
  | some _ =>
    match ring.producer? with
    | .error f => .error f ring
    | .ok r =>
      match r.releaseThrough address with
      | .ok (n, r') => .ok n (producer r')
      | .error f => .error f ring

/-- A store by the other side, which does not look at positions. -/
def overwrite (index : Nat) (t : Trb) : Action Unit := fun ring =>
  if index < ring.trbs.size then
    match ring with
    | producer r => .ok () (producer (r.store index t))
    | event r => .ok () (event (r.store index t))
  else
    .error .outOfBounds ring

end Ring

end UsbHost
