/-!
Completion codes of event TRBs. A code is kept as the byte the controller reported, so reserved and
vendor codes survive; the names cover the codes that the driver distinguishes.
-/

namespace UsbHost

/-- How a transfer failed, in the terms of the bus. -/
inductive TransferFailure
  | stall
  /-- CRC or bit stuffing error, or no response from the device. -/
  | transaction
  | babble
  | frameOverrun
  | dataToggle
  | hostBus
  | split
  | timeout
  | aborted
  | unknown
  deriving DecidableEq, Inhabited

def TransferFailure.message : TransferFailure → String
  | stall => "endpoint stalled"
  | transaction => "transaction error"
  | babble => "babble detected"
  | frameOverrun => "frame overrun"
  | dataToggle => "data toggle error"
  | hostBus => "host bus error"
  | split => "split transaction error"
  | timeout => "timeout"
  | aborted => "aborted"
  | unknown => "unknown error"

structure CompletionCode where
  raw : UInt8
  deriving DecidableEq, Inhabited

namespace CompletionCode

def success : CompletionCode := ⟨1⟩
def noSlotsAvailable : CompletionCode := ⟨9⟩
def shortPacket : CompletionCode := ⟨13⟩
def ringUnderrun : CompletionCode := ⟨14⟩
def ringOverrun : CompletionCode := ⟨15⟩

def isSuccess (code : CompletionCode) : Bool := code == success

/-- Success or a short packet: the transfer has finished and its data is valid. -/
def isTransferOk (code : CompletionCode) : Bool := code == success || code == shortPacket

/-- The isochronous ring ran empty or full; the event belongs to no request. -/
def isRingReport (code : CompletionCode) : Bool := code == ringUnderrun || code == ringOverrun

/-- What a code says about a transfer that failed with it. -/
def failure (code : CompletionCode) : TransferFailure :=
  match code.raw with
  | 2 => .hostBus
  | 3 => .babble
  | 4 | 20 => .transaction
  | 6 => .stall
  | 18 | 23 | 31 => .frameOverrun
  | 25 | 26 | 27 => .aborted
  | 36 => .split
  | _ => .unknown

/-- The words for a code; codes without words of their own share one phrase. -/
def name (code : CompletionCode) : String :=
  match code.raw with
  | 0 => "invalid"
  | 1 => "success"
  | 2 => "data buffer error"
  | 3 => "babble detected"
  | 4 => "USB transaction error"
  | 5 => "TRB error"
  | 6 => "stall"
  | 7 => "resource error"
  | 8 => "bandwidth error"
  | 9 => "no slots available"
  | 11 => "slot not enabled"
  | 12 => "endpoint not enabled"
  | 13 => "short packet"
  | 14 => "ring underrun"
  | 15 => "ring overrun"
  | 17 => "parameter error"
  | 19 => "context state error"
  | 21 => "event ring full"
  | 23 => "missed service"
  | 26 => "stopped"
  | 36 => "split transaction error"
  | _ => "completion code"

/-- The words followed by the number, for messages. -/
def message (code : CompletionCode) : String := code.name ++ " (" ++ toString code.raw ++ ")"

/-- The number followed by the words, for diagnostics. -/
def diagnostic (code : CompletionCode) : String :=
  "CompletionCode(" ++ toString code.raw ++ ": " ++ code.name ++ ")"

end CompletionCode

end UsbHost
