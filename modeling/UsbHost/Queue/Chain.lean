import UsbHost.Queue.Arena

/-!
Chains: singly linked lists whose links live in an arena. A chain behaves like a list that holds at
most as many values as the arena has slots; `toList` shows that list. A walk along the links visits
at most every slot once, which bounds it by the capacity.
-/

namespace UsbHost

structure Chain.Link (α : Type) where
  value : α
  next : Option Arena.Handle
  deriving Inhabited

structure Chain (α : Type) where
  arena : Arena (Chain.Link α)
  head : Option Arena.Handle := none
  tail : Option Arena.Handle := none
  deriving Inhabited

namespace Chain

variable {α : Type}

def withCapacity (capacity : Nat) : Except Error (Chain α) := do
  return { arena := ← Arena.withCapacity capacity }

def capacity (c : Chain α) : Nat := c.arena.capacity

/-- Values in the chain. -/
def length (c : Chain α) : Nat := c.arena.size

def isEmpty (c : Chain α) : Bool := c.head.isNone

/-- The values on at most `steps` links from `cursor` on. -/
def valuesFrom (a : Arena (Link α)) (cursor : Option Arena.Handle) : Nat → List α
  | 0 => []
  | steps + 1 =>
    match cursor.bind a.get? with
    | none => []
    | some link => link.value :: valuesFrom a link.next steps

/-- The values, first to last. -/
def toList (c : Chain α) : List α := valuesFrom c.arena c.head c.capacity

/-- The last link before the first one whose value satisfies `p`, walking on from `cursor`. -/
def lastBefore (a : Arena (Link α)) (p : α → Bool) (previous cursor : Option Arena.Handle) :
    Nat → Option Arena.Handle
  | 0 => previous
  | steps + 1 =>
    match cursor with
    | none => previous
    | some h =>
      match a.get? h with
      | none => previous
      | some link => if p link.value then previous else lastBefore a p (some h) link.next steps

/-- Put `value` behind the link `previous`, or in front. A full chain hands it back. -/
def insertAfter (c : Chain α) (previous : Option Arena.Handle) (value : α) :
    Except α (Chain α) :=
  match c.arena.insert ⟨value, none⟩ with
  | .error link => .error link.value
  | .ok (h, arena) =>
    let next := previous.elim c.head fun p => (arena.get? p).bind Link.next
    let arena := match previous with
      | none => arena
      | some p => (arena.get? p).elim arena fun link => arena.set p { link with next := some h }
    .ok {
      arena := arena.set h ⟨value, next⟩
      head := if previous.isNone then some h else c.head
      tail := if next.isNone then some h else c.tail }

def pushBack (c : Chain α) (value : α) : Except α (Chain α) := c.insertAfter c.tail value

/-- Insert `value` before the first value that satisfies `p`, or at the end. -/
def insertBefore (c : Chain α) (p : α → Bool) (value : α) : Except α (Chain α) :=
  c.insertAfter (lastBefore c.arena p none c.head c.capacity) value

def front? (c : Chain α) : Option α := (c.head.bind c.arena.get?).map Link.value

def popFront (c : Chain α) : Option (α × Chain α) := do
  let (link, arena) ← c.arena.remove (← c.head)
  return (link.value,
    { arena := arena, head := link.next, tail := if link.next.isNone then none else c.tail })

/-- Take the link `h` out of the chain; `previous` is the link before it. -/
def unlink (c : Chain α) (previous : Option Arena.Handle) (h : Arena.Handle)
    (next : Option Arena.Handle) : Chain α :=
  let arena := match previous with
    | none => c.arena
    | some p =>
      (c.arena.get? p).elim c.arena fun link => c.arena.set p { link with next := next }
  { arena := (arena.remove h).elim arena Prod.snd
    head := if previous.isNone then next else c.head
    tail := if next.isNone then previous else c.tail }

/-- Take out the values that satisfy `p` on at most `steps` links from `cursor` on. -/
def drainFrom (p : α → Bool) (c : Chain α) (previous cursor : Option Arena.Handle) :
    Nat → List α × Chain α
  | 0 => ([], c)
  | steps + 1 =>
    match cursor with
    | none => ([], c)
    | some h =>
      match c.arena.get? h with
      | none => ([], c)
      | some link =>
        if p link.value then
          let (removed, c) := drainFrom p (c.unlink previous h link.next) previous link.next steps
          (link.value :: removed, c)
        else
          drainFrom p c (some h) link.next steps

/-- Take out the values that satisfy `p`, and list them in order. -/
def drain (c : Chain α) (p : α → Bool) : List α × Chain α :=
  drainFrom p c none c.head c.capacity

end Chain

end UsbHost
