import UsbHost.Proofs.Context.Fields

/-!
Contexts as formats. A format says where the fields of a context lie, and that no two of them have a
bit in common. So what a context looks like after values have been put into its fields is settled:
each field holds the last value for it, cut to its width, or what it held before, and every other
bit is as it was. In particular the order in which different fields are written does not matter.
-/

namespace UsbHost.Context

open Bits (Field)

variable {γ ε ι : Type}

/-! ### Fields of a context -/

/-- Where a field of a context lies. -/
structure Place where
  dword : Fin dwordCount
  field : Field

namespace Place

/-- Bit `k` of dword `i` belongs to the field. -/
def Covers (p : Place) (i : Fin dwordCount) (k : Nat) : Prop :=
  p.dword = i ∧ p.field.low ≤ k ∧ k < p.field.low + p.field.width

/-- The fields have no bit in common. -/
def Disjoint (p q : Place) : Prop := p.dword ≠ q.dword ∨ p.field.Disjoint q.field

instance (p q : Place) : Decidable (p.Disjoint q) := inferInstanceAs (Decidable (_ ∨ _))

/-- The number that stands in the bits of the field. -/
def read (p : Place) (d : Dwords) : Nat :=
  (d.get p.dword).toNat / 2 ^ p.field.low % 2 ^ p.field.width

/-- The number that stands there once a value has been set, if one has. -/
def readAfter (p : Place) (d : Dwords) : Option UInt32 → Nat
  | some value => value.toNat % 2 ^ p.field.width
  | none => p.read d

variable {p : Place}

theorem toNat_field (h : p.field.Valid) (d : Dwords) :
    (d.field p.dword p.field).toNat = p.read d :=
  Field.toNat_get h (d.get p.dword)

theorem read_lt (p : Place) (d : Dwords) : p.read d < 2 ^ p.field.width :=
  Nat.mod_lt _ (Nat.two_pow_pos _)

theorem toNat_byte (h : p.field.Valid) (hwidth : p.field.width ≤ 8) (d : Dwords) :
    (d.field p.dword p.field).toUInt8.toNat = p.read d := by
  have hlt : p.read d < 2 ^ 8 :=
    Nat.lt_of_lt_of_le (p.read_lt d) (Nat.pow_le_pow_right (by decide) hwidth)
  rw [UInt32.toNat_toUInt8, toNat_field h, Nat.mod_eq_of_lt hlt]

theorem toNat_half (h : p.field.Valid) (hwidth : p.field.width ≤ 16) (d : Dwords) :
    (d.field p.dword p.field).toUInt16.toNat = p.read d := by
  have hlt : p.read d < 2 ^ 16 :=
    Nat.lt_of_lt_of_le (p.read_lt d) (Nat.pow_le_pow_right (by decide) hwidth)
  rw [UInt32.toNat_toUInt16, toNat_field h, Nat.mod_eq_of_lt hlt]

/-- The bits of a field are those of the number in it. -/
theorem bit_of_covers {i : Fin dwordCount} {k : Nat} (h : p.Covers i k) (d : Dwords) :
    Field.bit (d.get i) k = (p.read d).testBit (k - p.field.low) := by
  obtain ⟨rfl, hlow, hhigh⟩ := h
  rw [read, Nat.testBit_mod_two_pow, Nat.testBit_div_two_pow, decide_eq_true (by omega),
    Bool.true_and, Nat.sub_add_cancel hlow]
  rfl

/-- Writing a field leaves all other bits alone. -/
theorem bit_put_of_not_covers (h : p.field.Valid) {i : Fin dwordCount} {k : Nat}
    (hout : ¬ p.Covers i k) (d : Dwords) (value : UInt32) :
    Field.bit ((d.put p.dword p.field value).get i) k = Field.bit (d.get i) k := by
  by_cases hi : i = p.dword
  · subst hi
    rcases Nat.lt_or_ge k 32 with hk | hk
    · simp [Dwords.put, Field.bit_put h _ _ hk, if_neg fun hin => hout ⟨rfl, hin⟩]
    · rw [Field.bit, Field.bit, BitVec.getLsbD_of_ge _ _ hk, BitVec.getLsbD_of_ge _ _ hk]
  · simp [Dwords.put, hi]

end Place

/-- The fields of a kind of context, one for each of `ι`. -/
structure Format (ι : Type) where
  place : ι → Place
  valid : ∀ part, (place part).field.Valid
  disjoint : ∀ part other, part ≠ other → (place part).Disjoint (place other)

namespace Format

/-- The dwords `d'` are what `d` becomes when the values are put into their fields. -/
structure Puts (F : Format ι) (d d' : Dwords) (value? : ι → Option UInt32) : Prop where
  /-- A field holds the value cut to its width, or what it has held before. -/
  read_eq : ∀ part, (F.place part).read d' = (F.place part).readAfter d (value? part)
  /-- All bits outside the fields that a value is put into are as before. -/
  bit_eq : ∀ i k, (∀ part, (F.place part).Covers i k → value? part = none) →
    Field.bit (d'.get i) k = Field.bit (d.get i) k

variable {F : Format ι} {d d' d'' : Dwords} {value? value?' : ι → Option UInt32}

theorem puts_nothing (F : Format ι) (d : Dwords) : F.Puts d d fun _ => none :=
  ⟨fun _ => rfl, fun _ _ _ => rfl⟩

theorem Puts.trans (h : F.Puts d d' value?) (h' : F.Puts d' d'' value?') :
    F.Puts d d'' fun part => (value?' part).or (value? part) := by
  constructor
  · intro part
    rw [h'.read_eq part]
    cases value?' part with
    | some value => rfl
    | none => exact h.read_eq part
  · intro i k hnone
    -- A field that is set in neither step keeps its bits in both.
    have hboth := fun part hcovers => Option.or_eq_none_iff.1 (hnone part hcovers)
    rw [h'.bit_eq i k fun part hcovers => (hboth part hcovers).1,
      h.bit_eq i k fun part hcovers => (hboth part hcovers).2]

/-- Putting a value into one field. -/
theorem puts_put [DecidableEq ι] (F : Format ι) (d : Dwords) (part : ι) (value : UInt32) :
    F.Puts d (d.put (F.place part).dword (F.place part).field value) fun other =>
      if other = part then some value else none := by
  constructor
  · intro other
    rw [← Place.toNat_field (F.valid other)]
    split
    · rename_i hsame
      subst hsame
      rw [Dwords.field_put_self (F.valid other), Field.toNat_and_mask (F.valid other)]
      rfl
    · rename_i hother
      rw [Dwords.field_put_other (F.valid other) (F.valid part) (F.disjoint other part hother),
        Place.toNat_field (F.valid other)]
      rfl
  · intro i k hnone
    refine Place.bit_put_of_not_covers (F.valid part) (fun hcovers => ?_) d value
    have hvalue := hnone part hcovers
    rw [if_pos rfl] at hvalue
    cases hvalue

/-- There is one way only to put values into their fields. -/
theorem Puts.unique (h : F.Puts d d' value?) (h' : F.Puts d d'' value?) : d' = d'' := by
  have hget : ∀ i, d'.get i = d''.get i := by
    -- A bit lies in a field that is set, which holds its number both times, or is left alone.
    refine fun i => Field.ext_bits fun k _ => ?_
    by_cases hset : ∃ part, (F.place part).Covers i k ∧ value? part ≠ none
    · obtain ⟨part, hcovers, -⟩ := hset
      rw [Place.bit_of_covers hcovers, Place.bit_of_covers hcovers, h.read_eq, h'.read_eq]
    · have hnone : ∀ part, (F.place part).Covers i k → value? part = none := fun part hcovers =>
        Classical.byContradiction fun hvalue => hset ⟨part, hcovers, hvalue⟩
      rw [h.bit_eq i k hnone, h'.bit_eq i k hnone]
  exact Vector.ext fun i hi => hget ⟨i, hi⟩

/-- A dword of which no field is set stays as it is. -/
theorem Puts.get_eq (h : F.Puts d d' value?) {i : Fin dwordCount}
    (hi : ∀ part, (F.place part).dword = i → value? part = none) : d'.get i = d.get i :=
  Field.ext_bits fun k _ => h.bit_eq i k fun part hcovers => hi part hcovers.1

/-! ### One value after another -/

/-- Put a value into its field. -/
def write (F : Format ι) (d : Dwords) (entry : ι × UInt32) : Dwords :=
  d.put (F.place entry.1).dword (F.place entry.1).field entry.2

/-- If every call is some writes, calls one after another are the writes of all of them. -/
theorem dwords_foldl {dwords : γ → Dwords} {apply : γ → ε → γ} {writes : ε → List (ι × UInt32)}
    (hcall : ∀ c call, dwords (apply c call) = (writes call).foldl F.write (dwords c))
    (c : γ) (calls : List ε) :
    dwords (calls.foldl apply c) = (calls.flatMap writes).foldl F.write (dwords c) := by
  induction calls generalizing c with
  | nil => rfl
  | cons call calls ih => rw [List.foldl_cons, ih, hcall, List.flatMap_cons, List.foldl_append]

variable [DecidableEq ι] {entries entries' : List (ι × UInt32)}

/-- The last value for a field, if there is one. -/
def last? (part : ι) : List (ι × UInt32) → Option UInt32
  | [] => none
  | entry :: entries => (last? part entries).or (if part = entry.1 then some entry.2 else none)

/-- The values are for different fields. -/
def Apart (entries entries' : List (ι × UInt32)) : Prop :=
  ∀ part ∈ entries.map Prod.fst, part ∉ entries'.map Prod.fst

instance (entries entries' : List (ι × UInt32)) : Decidable (Apart entries entries') :=
  inferInstanceAs (Decidable (∀ part ∈ _, part ∉ _))

@[simp] theorem last?_append (part : ι) (entries entries' : List (ι × UInt32)) :
    last? part (entries ++ entries') = (last? part entries').or (last? part entries) := by
  induction entries with
  | nil => exact (Option.or_none).symm
  | cons entry entries ih => rw [List.cons_append, last?, ih, Option.or_assoc, last?]

theorem last?_eq_none {part : ι} (h : part ∉ entries.map Prod.fst) : last? part entries = none := by
  induction entries with
  | nil => rfl
  | cons entry entries ih =>
    rw [List.map_cons, List.mem_cons, not_or] at h
    rw [last?, ih h.2, if_neg h.1]
    rfl

theorem last?_append_comm (h : Apart entries entries') (part : ι) :
    last? part (entries ++ entries') = last? part (entries' ++ entries) := by
  rw [last?_append, last?_append]
  by_cases hpart : part ∈ entries.map Prod.fst
  · rw [last?_eq_none (h part hpart), Option.or_none, Option.none_or]
  · rw [last?_eq_none hpart, Option.or_none, Option.none_or]

/-- Of several values for a field the last one stays. -/
theorem puts_writes (F : Format ι) (d : Dwords) (entries : List (ι × UInt32)) :
    F.Puts d (entries.foldl F.write d) (last? · entries) := by
  induction entries generalizing d with
  | nil => exact F.puts_nothing d
  | cons entry entries ih => exact (F.puts_put d entry.1 entry.2).trans (ih (F.write d entry))

/-- Where the last values are the same, so is the outcome. -/
theorem writes_eq (F : Format ι) (d : Dwords)
    (h : ∀ part, last? part entries = last? part entries') :
    entries.foldl F.write d = entries'.foldl F.write d := by
  have hputs := F.puts_writes d entries
  rw [funext h] at hputs
  exact hputs.unique (F.puts_writes d entries')

/-! ### Calls of setters -/

section Calls

variable {dwords : γ → Dwords} {apply : γ → ε → γ} {writes : ε → List (ι × UInt32)}
  (hcall : ∀ c call, dwords (apply c call) = (writes call).foldl F.write (dwords c))

include hcall

/-- After any calls the fields hold what has been set last. -/
theorem puts_foldl (c : γ) (calls : List ε) :
    F.Puts (dwords c) (dwords (calls.foldl apply c)) (last? · (calls.flatMap writes)) := by
  rw [dwords_foldl hcall]
  exact F.puts_writes (dwords c) _

/-- Calls that set different fields can change places. -/
theorem dwords_comm (c : γ) {x y : ε} (h : Apart (writes x) (writes y)) :
    dwords (apply (apply c x) y) = dwords (apply (apply c y) x) := by
  rw [hcall, hcall, hcall, hcall, ← List.foldl_append, ← List.foldl_append]
  exact F.writes_eq (dwords c) (last?_append_comm h)

end Calls

end Format

end UsbHost.Context
