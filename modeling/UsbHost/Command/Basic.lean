import UsbHost.Ring.Producer
import UsbHost.Sync.Lock
import UsbHost.Sync.Signal

/-!
The command ring. A command is one TRB; the controller reports it by an event that names the TRB.
One command waits at a time. A report for the TRB of the waiting command is its result; a report
for any other TRB of the ring only releases it, as the command has been given up.
-/

namespace UsbHost

/-- What the controller reports of a command. -/
structure CommandReport where
  code : CompletionCode
  slot : UInt8
  deriving DecidableEq, Inhabited

/-- Anything but success is a failure of the command. -/
def CommandReport.check (r : CommandReport) : Except Error CommandReport :=
  if r.code.isSuccess then .ok r else .error (.commandFailed r.code)

structure CommandRing where
  ring : ProducerRing
  /-- Bus address of the TRB whose report is waited for. -/
  awaited : Option UInt64 := none
  report : Option CommandReport := none
  completed : Signal := {}
  /-- Held by the task whose command is under way. -/
  serial : Lock Unit := { value := () }
  /-- Highest slot that Enable Slot may return. -/
  maxSlots : UInt8
  timeout : UInt64
  deriving Inhabited

namespace CommandRing

def isBusy (c : CommandRing) : Bool := c.awaited.isSome

/-- Enqueue a command and wait for its report from now on. On a full ring nothing changes. -/
def issue (c : CommandRing) (t : Trb) : Except Fault (Except Error CommandRing) := do
  match ← c.ring.enqueue t with
  | none => return .error (.ringFull .command)
  | some (address, ring) =>
    return .ok { c with
      ring := ring
      awaited := some address
      report := none
      completed := c.completed.clear }

/-- Take in the report for the TRB at `address`. -/
def complete (c : CommandRing) (address : UInt64) (report : CommandReport) :
    Except Fault CommandRing := do
  let (released, ring) ← c.ring.releaseThrough address
  let c := { c with ring := ring }
  if released ≠ 0 && c.awaited = some address && c.report.isNone then
    return { c with report := some report, completed := c.completed.raise }
  else
    return c

/-- Stop waiting; the result is the report, if it has come. -/
def conclude (c : CommandRing) : Option CommandReport × CommandRing :=
  (c.report, { c with awaited := none, report := none })

end CommandRing

end UsbHost
