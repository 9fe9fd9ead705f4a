import UsbHost.Error

/-!
Settings of a host controller, and the check that runs before anything is allocated. The first
setting that is out of range, in the order of the checks, is the one reported.
-/

namespace UsbHost

/-- Where completion routines run. -/
inductive CompletionMode
  /-- In the context that drains the event ring. -/
  | immediate
  /-- At task level; until then finished requests wait in a queue. -/
  | deferred
  deriving DecidableEq, Inhabited

structure Config where
  /-- TRBs of the command ring, its Link TRB included. -/
  commandRingSize : Nat := 64
  /-- TRBs of a transfer ring, its Link TRB included. -/
  transferRingSize : Nat := 64
  eventRingSize : Nat := 64
  maxSlots : UInt8 := 32
  /-- Events handled per interrupt at most. -/
  maxEventsPerInterrupt : Nat := 32
  commandTimeout : UInt64 := 3000
  /-- Timeout of a synchronous transfer that names none. -/
  transferTimeout : UInt64 := 1000
  /-- Requests in flight per endpoint at most. -/
  requestWindow : Nat := 2
  completionMode : CompletionMode := .immediate
  completionQueueDepth : Nat := 64
  deriving DecidableEq, Inhabited

namespace Config

def minRingSize : Nat := 16

def maxRequestWindow : Nat := 8

/-- A ring has room for its Link TRB and is a multiple of four TRBs long. -/
def checkRingSize (name : String) (size : Nat) : Except Error Unit := do
  if size < minRingSize then
    throw (.invalidArgument name "ring must have at least 16 TRBs")
  if size % 4 ≠ 0 then
    throw (.invalidArgument name "ring size must be a multiple of 4")

def validate (config : Config) : Except Error Unit := do
  checkRingSize "command_ring_size" config.commandRingSize
  checkRingSize "transfer_ring_size" config.transferRingSize
  checkRingSize "event_ring_size" config.eventRingSize
  if config.maxSlots = 0 then
    throw (.invalidArgument "max_slots" "must be at least 1")
  if config.maxEventsPerInterrupt = 0 then
    throw (.invalidArgument "max_events_per_interrupt" "must be at least 1")
  if config.requestWindow = 0 || maxRequestWindow < config.requestWindow then
    throw (.invalidArgument "urb_window" "must be in 1..=8")
  if config.completionMode = .deferred && config.completionQueueDepth = 0 then
    throw (.invalidArgument "completion_queue_depth" "deferred completion needs a queue")

end Config

end UsbHost
