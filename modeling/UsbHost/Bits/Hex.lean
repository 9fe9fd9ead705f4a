/-!
Hexadecimal text. A number is `0x`, then lower-case digits without leading zeros; zero is a single
digit. A byte is always two digits, so the text of several bytes can be taken apart again. Reading
takes digits of either case.
-/

namespace UsbHost.Bits

def hex (n : Nat) : String := "0x" ++ String.ofList (Nat.toDigits 16 n)

def digit? (c : Char) : Option Nat :=
  (List.range 16).find? fun n => Nat.digitChar n == c.toLower

def ofDigits? (digits : List Char) : Option Nat :=
  digits.foldlM (fun n c => return 16 * n + (← digit? c)) 0

/-- The number that a text stands for. -/
def ofHex? (s : String) : Option Nat :=
  match s.toList with
  | '0' :: 'x' :: digits => ofDigits? digits
  | _ => none

/-- The two digits of a byte, the high one first. -/
def byteDigits (b : UInt8) : List Char :=
  [Nat.digitChar (b.toNat / 16), Nat.digitChar (b.toNat % 16)]

/-- Bytes, two digits each. -/
def hexBytes (bytes : List UInt8) : String := String.ofList (bytes.flatMap byteDigits)

def ofBytePairs? : List Char → Option (List UInt8)
  | [] => some []
  | [_] => none
  | high :: low :: rest => do
    return UInt8.ofNat (16 * (← digit? high) + (← digit? low)) :: (← ofBytePairs? rest)

/-- The bytes that a text of byte digits stands for. -/
def ofHexBytes? (s : String) : Option ByteArray := do
  return ⟨(← ofBytePairs? s.toList).toArray⟩

theorem digit?_digitChar (n : Fin 16) : digit? (Nat.digitChar n) = some n.val := by
  revert n
  decide

/-- The bytes written are the bytes read. -/
@[simp] theorem ofBytePairs?_flatMap_byteDigits (bytes : List UInt8) :
    ofBytePairs? (bytes.flatMap byteDigits) = some bytes := by
  induction bytes with
  | nil => rfl
  | cons b rest ih =>
    have hb : b.toNat < 256 := b.toNat_lt
    have high := digit?_digitChar ⟨b.toNat / 16, by omega⟩
    have low := digit?_digitChar ⟨b.toNat % 16, by omega⟩
    have value : 16 * (b.toNat / 16) + b.toNat % 16 = b.toNat := by omega
    simp only at high low
    simp only [byteDigits, List.flatMap_cons, List.cons_append, List.nil_append, ofBytePairs?, high,
      low, ih, Option.pure_def, Option.bind_eq_bind, Option.bind_some, value, UInt8.ofNat_toNat]

end UsbHost.Bits
