import UsbHost.Context.Endpoint
import UsbHost.Context.Slot
import UsbHost.Proofs.Context.Format

/-!
Setters of slot contexts and endpoint contexts, in any number and order. A setter writes one field
or several, and the fields of a context have no bit in common, though many share a dword. So a
context is known after any calls: a field holds what was set last, cut to its width, the getters
return it, and setters of different fields can change places.
-/

namespace UsbHost.Context

open Bits (Field)

/-- A whole dword as one field. -/
def wholeDword : Field := ⟨0, 32⟩

theorem Dwords.put_wholeDword (d : Dwords) (i : Fin dwordCount) (value : UInt32) :
    d.put i wholeDword value = d.store i value := by
  have hword : wholeDword.put value (d.get i) = value :=
    Field.ext_bits fun k hk => by
      rw [Field.bit_put (by decide) _ _ hk, if_pos ⟨Nat.zero_le k, by simpa [wholeDword] using hk⟩]
      rfl
  rw [put, hword]

/-- The two halves of a pointer, put together again. -/
theorem halves_or (pointer : UInt64) :
    pointer.toUInt32.toUInt64 ||| (pointer >>> 32).toUInt32.toUInt64 <<< 32 = pointer := by
  have hlt := pointer.toNat_lt
  rw [← UInt64.toNat_inj, UInt64.toNat_or, UInt64.toNat_shiftLeft, UInt32.toNat_toUInt64,
    UInt32.toNat_toUInt64, UInt64.toNat_toUInt32, UInt64.toNat_toUInt32, UInt64.toNat_shiftRight]
  change pointer.toNat % 2 ^ 32 ||| ((pointer.toNat >>> 32) % 2 ^ 32) <<< 32 % 2 ^ 64 = _
  have hshift : ((pointer.toNat >>> 32) % 2 ^ 32) <<< 32 % 2 ^ 64 =
      (pointer.toNat / 2 ^ 32) <<< 32 := by
    rw [Nat.shiftRight_eq_div_pow, Nat.shiftLeft_eq, Nat.shiftLeft_eq]
    omega
  -- The halves have no bit in common, so putting them together is a sum.
  rw [hshift, Nat.or_comm, ← Nat.shiftLeft_add_eq_or_of_lt (Nat.mod_lt _ (by decide)),
    Nat.shiftLeft_eq]
  omega

/-! ### Slot contexts -/

namespace Slot

/-- The fields of a slot context that have a setter. -/
inductive Part
  | routeString
  | speed
  | multiTranslator
  | entries
  | rootHubPort
  | hubSlot
  | hubPort
  deriving DecidableEq

def Part.place : Part → Place
  | routeString => ⟨0, Slot.routeString⟩
  | speed => ⟨0, Slot.speed⟩
  | multiTranslator => ⟨0, Slot.multiTranslator⟩
  | entries => ⟨0, Slot.entries⟩
  | rootHubPort => ⟨1, Slot.rootHubPort⟩
  | hubSlot => ⟨2, Slot.hubSlot⟩
  | hubPort => ⟨2, Slot.hubPort⟩

def format : Format Part where
  place := Part.place
  valid part := by cases part <;> decide
  disjoint part other := by cases part <;> cases other <;> decide

/-- A call of a setter. -/
inductive Setting
  | routeString (route : UInt32)
  | speed (s : Speed)
  | entries (n : UInt8)
  | rootHubPort (port : UInt8)
  | translator (slot port : UInt8) (multi : Bool)

namespace Setting

def apply (c : Slot) : Setting → Slot
  | routeString route => c.setRouteString route
  | speed s => c.setSpeed s
  | entries n => c.setEntries n
  | rootHubPort port => c.setRootHubPort port
  | translator slot port multi => c.setTranslator slot port multi

/-- The fields that the call sets, and their values. -/
def writes : Setting → List (Part × UInt32)
  | routeString route => [(.routeString, route)]
  | speed s => [(.speed, s.protocolId)]
  | entries n => [(.entries, n.toUInt32)]
  | rootHubPort port => [(.rootHubPort, port.toUInt32)]
  | translator slot port multi =>
    [(.hubSlot, slot.toUInt32), (.hubPort, port.toUInt32),
      (.multiTranslator, if multi then 1 else 0)]

theorem dwords_apply (c : Slot) (setting : Setting) :
    (setting.apply c).dwords = setting.writes.foldl format.write c.dwords := by
  cases setting <;> rfl

end Setting

variable (c : Slot)

theorem toNat_getEntries : c.getEntries.toNat = (format.place .entries).read c.dwords :=
  Place.toNat_byte (format.valid .entries) (by decide) c.dwords

theorem toNat_getRootHubPort :
    c.getRootHubPort.toNat = (format.place .rootHubPort).read c.dwords :=
  Place.toNat_byte (format.valid .rootHubPort) (by decide) c.dwords

/-- The address is left to the controller: no setter comes near it. -/
@[simp] theorem getAddress_foldl (settings : List Setting) :
    (settings.foldl Setting.apply c).getAddress = c.getAddress := by
  have hputs := Format.puts_foldl Setting.dwords_apply c settings
  have hdword := hputs.get_eq (i := 3) fun part hpart => by cases part <;> cases hpart
  rw [getAddress, Dwords.field, hdword, getAddress, Dwords.field]

end Slot

/-! ### Endpoint contexts -/

namespace Endpoint

/-- The fields of an endpoint context that have a setter; the dequeue pointer takes two. -/
inductive Part
  | interval
  | errorCount
  | kind
  | maxBurst
  | maxPacketSize
  | dequeueLow
  | dequeueHigh
  | averageLength
  | maxPayload
  deriving DecidableEq

def Part.place : Part → Place
  | interval => ⟨0, Endpoint.interval⟩
  | errorCount => ⟨1, Endpoint.errorCount⟩
  | kind => ⟨1, Endpoint.kind⟩
  | maxBurst => ⟨1, Endpoint.maxBurst⟩
  | maxPacketSize => ⟨1, Endpoint.maxPacketSize⟩
  | dequeueLow => ⟨2, wholeDword⟩
  | dequeueHigh => ⟨3, wholeDword⟩
  | averageLength => ⟨4, Endpoint.averageLength⟩
  | maxPayload => ⟨4, Endpoint.maxPayload⟩

def format : Format Part where
  place := Part.place
  valid part := by cases part <;> decide
  disjoint part other := by cases part <;> cases other <;> decide

/-- A call of a setter. -/
inductive Setting
  | interval (exponent : UInt8)
  | errorCount (n : UInt8)
  | kind (n : UInt8)
  | maxBurst (n : UInt8)
  | maxPacketSize (size : UInt16)
  | dequeue (pointer : UInt64)
  | averageLength (length : UInt16)
  | maxPayload (payload : UInt16)

namespace Setting

def apply (c : Endpoint) : Setting → Endpoint
  | interval exponent => c.setInterval exponent
  | errorCount n => c.setErrorCount n
  | kind n => c.setKind n
  | maxBurst n => c.setMaxBurst n
  | maxPacketSize size => c.setMaxPacketSize size
  | dequeue pointer => c.setDequeue pointer
  | averageLength length => c.setAverageLength length
  | maxPayload payload => c.setMaxPayload payload

/-- The fields that the call sets, and their values. -/
def writes : Setting → List (Part × UInt32)
  | interval exponent => [(.interval, exponent.toUInt32)]
  | errorCount n => [(.errorCount, n.toUInt32)]
  | kind n => [(.kind, n.toUInt32)]
  | maxBurst n => [(.maxBurst, n.toUInt32)]
  | maxPacketSize size => [(.maxPacketSize, size.toUInt32)]
  | dequeue pointer =>
    [(.dequeueLow, pointer.toUInt32), (.dequeueHigh, (pointer >>> 32).toUInt32)]
  | averageLength length => [(.averageLength, length.toUInt32)]
  | maxPayload payload => [(.maxPayload, payload.toUInt32)]

/-- The dequeue pointer that the call sets. -/
def pointer? : Setting → Option UInt64
  | dequeue pointer => some pointer
  | _ => none

theorem dwords_apply (c : Endpoint) (setting : Setting) :
    (setting.apply c).dwords = setting.writes.foldl format.write c.dwords := by
  -- Every setter is written as puts into fields, but the pointer's stores its dwords.
  cases setting with
  | dequeue pointer =>
    change (c.dwords.store 2 _).store 3 _ = (c.dwords.put 2 wholeDword _).put 3 wholeDword _
    rw [Dwords.put_wholeDword, Dwords.put_wholeDword]
  | _ => rfl

end Setting

variable (c : Endpoint)

theorem toNat_getInterval : c.getInterval.toNat = (format.place .interval).read c.dwords :=
  Place.toNat_byte (format.valid .interval) (by decide) c.dwords

theorem toNat_getKind : c.getKind.toNat = (format.place .kind).read c.dwords :=
  Place.toNat_byte (format.valid .kind) (by decide) c.dwords

theorem toNat_getMaxPacketSize :
    c.getMaxPacketSize.toNat = (format.place .maxPacketSize).read c.dwords :=
  Place.toNat_half (format.valid .maxPacketSize) (by decide) c.dwords

@[simp] theorem getDequeue_setDequeue (pointer : UInt64) :
    (c.setDequeue pointer).getDequeue = pointer := by
  have hlow : (c.setDequeue pointer).dwords.get 2 = pointer.toUInt32 := by
    simp [setDequeue]
  have hhigh : (c.setDequeue pointer).dwords.get 3 = (pointer >>> 32).toUInt32 := by
    simp [setDequeue]
  rw [getDequeue, hlow, hhigh, halves_or]

/-- The pointer is left alone where another dword is written. -/
theorem getDequeue_put {i : Fin dwordCount} (f : Field) (value : UInt32) (hlow : 2 ≠ i)
    (hhigh : 3 ≠ i) : (c.put i f value).getDequeue = c.getDequeue := by
  simp [getDequeue, put, Dwords.put, hlow, hhigh]

theorem getDequeue_apply (setting : Setting) :
    (setting.apply c).getDequeue = setting.pointer?.getD c.getDequeue := by
  cases setting with
  | dequeue pointer => exact c.getDequeue_setDequeue pointer
  | _ => exact c.getDequeue_put _ _ (by decide) (by decide)

theorem getDequeue_foldl (settings : List Setting) :
    (settings.foldl Setting.apply c).getDequeue =
      (settings.filterMap Setting.pointer?).getLast?.getD c.getDequeue := by
  induction settings generalizing c with
  | nil => rfl
  | cons setting settings ih =>
    rw [List.foldl_cons, ih, getDequeue_apply, List.filterMap_cons]
    cases setting.pointer? with
    | none => rfl
    | some pointer => simp [List.getLast?_cons]

end Endpoint

/-- After any calls of its setters a context holds in each field what was set last, cut to the width
of the field, and the getters return it; all other bits are as they were. Setters of different
fields commute. -/
theorem setters_keep_apart :
    (∀ (c : Slot) (settings : List Slot.Setting),
      let c' := settings.foldl Slot.Setting.apply c
      let last (part : Slot.Part) := Format.last? part (settings.flatMap Slot.Setting.writes)
      let held (part : Slot.Part) := (Slot.format.place part).readAfter c.dwords (last part)
      Slot.format.Puts c.dwords c'.dwords last ∧
      c'.getEntries.toNat = held .entries ∧ c'.getRootHubPort.toNat = held .rootHubPort ∧
      c'.getAddress = c.getAddress) ∧
    (∀ (c : Slot) (x y : Slot.Setting), Format.Apart x.writes y.writes →
      y.apply (x.apply c) = x.apply (y.apply c)) ∧
    (∀ (c : Endpoint) (settings : List Endpoint.Setting),
      let c' := settings.foldl Endpoint.Setting.apply c
      let last (part : Endpoint.Part) :=
        Format.last? part (settings.flatMap Endpoint.Setting.writes)
      let held (part : Endpoint.Part) := (Endpoint.format.place part).readAfter c.dwords (last part)
      Endpoint.format.Puts c.dwords c'.dwords last ∧
      c'.getInterval.toNat = held .interval ∧ c'.getKind.toNat = held .kind ∧
      c'.getMaxPacketSize.toNat = held .maxPacketSize ∧
      c'.getDequeue =
        (settings.filterMap Endpoint.Setting.pointer?).getLast?.getD c.getDequeue) ∧
    ∀ (c : Endpoint) (x y : Endpoint.Setting), Format.Apart x.writes y.writes →
      y.apply (x.apply c) = x.apply (y.apply c) := by
  refine ⟨fun c settings => ?_, fun c x y h => ?_, fun c settings => ?_, fun c x y h => ?_⟩
  · have hputs := Format.puts_foldl Slot.Setting.dwords_apply c settings
    exact ⟨hputs, (Slot.toNat_getEntries _).trans (hputs.read_eq .entries),
      (Slot.toNat_getRootHubPort _).trans (hputs.read_eq .rootHubPort), c.getAddress_foldl settings⟩
  · exact congrArg Slot.mk (Format.dwords_comm Slot.Setting.dwords_apply c h)
  · have hputs := Format.puts_foldl Endpoint.Setting.dwords_apply c settings
    exact ⟨hputs, (Endpoint.toNat_getInterval _).trans (hputs.read_eq .interval),
      (Endpoint.toNat_getKind _).trans (hputs.read_eq .kind),
      (Endpoint.toNat_getMaxPacketSize _).trans (hputs.read_eq .maxPacketSize),
      c.getDequeue_foldl settings⟩
  · exact congrArg Endpoint.mk (Format.dwords_comm Endpoint.Setting.dwords_apply c h)

/-- The speed and the translator, which share a dword, and the packet size next to the burst, in
contexts of ones only. -/
theorem setters_keep_apart_in_one_dword :
    let slot : Slot := ⟨.replicate dwordCount 0xffffffff⟩
    let endpoint : Endpoint := ⟨.replicate dwordCount 0xffffffff⟩
    let speed : Slot.Setting := .speed .high
    let translator : Slot.Setting := .translator 3 7 false
    let packet : Endpoint.Setting := .maxPacketSize 512
    let burst : Endpoint.Setting := .maxBurst 15
    Format.Apart speed.writes translator.writes ∧
    translator.apply (speed.apply slot) = speed.apply (translator.apply slot) ∧
    Format.Apart packet.writes burst.writes ∧
    burst.apply (packet.apply endpoint) = packet.apply (burst.apply endpoint) :=
  ⟨by decide, setters_keep_apart.2.1 _ _ _ (by decide), by decide,
    setters_keep_apart.2.2.2 _ _ _ (by decide)⟩

end UsbHost.Context
