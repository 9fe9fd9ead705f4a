/-!
Locks around a value. A task lock may be held across a blocking wait. A spin lock belongs to the
highest execution level from which it is taken, and its holder is never preempted by another one
on the same core. Either way a lock that is held cannot be taken again.
-/

namespace UsbHost

/-- Execution levels; each may preempt the ones before it. -/
inductive ExecutionLevel
  | task
  | irq
  | fiq
  deriving DecidableEq, Inhabited

/-- The word that diagnostics use for a level. -/
def ExecutionLevel.name : ExecutionLevel → String
  | task => "Task"
  | irq => "Irq"
  | fiq => "Fiq"

/-- Place of a level in the order of preemption. -/
def ExecutionLevel.rank : ExecutionLevel → Nat
  | task => 0
  | irq => 1
  | fiq => 2

def ExecutionLevel.isAbove (a b : ExecutionLevel) : Bool := b.rank < a.rank

structure Lock (α : Type) where
  value : α
  held : Bool := false
  deriving DecidableEq, Inhabited

namespace Lock

variable {α : Type}

/-- Take the lock unless it is held. -/
def tryTake? (l : Lock α) : Option (Lock α) := if l.held then none else some { l with held := true }

def release (l : Lock α) : Lock α := { l with held := false }

end Lock

structure SpinLock (α : Type) extends Lock α where
  level : ExecutionLevel
  deriving DecidableEq, Inhabited

end UsbHost
