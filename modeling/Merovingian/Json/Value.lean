import Merovingian.Lib.Bytes

/-!
# JSON values

The value type of `canonicaljson/Value.hpp`: a tree whose objects are member lists, in the order
the members were written and possibly with repeated keys.  A key is looked up by a scan for its
first occurrence, with the accessors that several files of the source each define for themselves.

A double is its binary64 bit pattern; the one operation the modelled code applies to it is
truncation at the decimal point.
-/

namespace Merovingian

open List

/-- A binary64 number, as its bits. -/
structure Double where
  /-- Sign, eleven exponent bits and fifty-two fraction bits. -/
  bits : UInt64
deriving DecidableEq, Repr

namespace Double

/-- The biased exponent. -/
def biasedExponent (d : Double) : ℕ := (d.bits.toNat / 2 ^ 52) % 2 ^ 11

/-- The fraction bits. -/
def fraction (d : Double) : ℕ := d.bits.toNat % 2 ^ 52

/-- Whether the sign bit is set. -/
def negative (d : Double) : Bool := 2 ^ 63 ≤ d.bits.toNat

def isFinite (d : Double) : Bool := d.biasedExponent ≠ 2047

/-- `std::trunc` of a finite number, as an integer. -/
def trunc (d : Double) : ℤ :=
  -- a subnormal number has no implicit leading bit and the exponent of the smallest normal
  let significand := if d.biasedExponent = 0 then d.fraction else d.fraction + 2 ^ 52
  let exponent := max d.biasedExponent 1
  let magnitude :=
    if 1075 ≤ exponent then significand * 2 ^ (exponent - 1075)
    else significand / 2 ^ (1075 - exponent)
  if d.negative then -(magnitude : ℤ) else magnitude

/-- The numbers `-1.5`, `2^63` and `0.99…` truncate as expected. -/
example : (Double.mk 0xBFF8000000000000).trunc = -1 ∧ (Double.mk 0x43E0000000000000).trunc = 2 ^ 63 ∧
    (Double.mk 0x3FEFFFFFFFFFFFFF).trunc = 0 := by decide

end Double

inductive Value where
  | null
  | bool (b : Bool)
  | int (n : Int64)
  | double (d : Double)
  | str (s : Str)
  | arr (items : List Value)
  | obj (members : List (Str × Value))
  /-- A number token kept as it was received (`RawNumber`). -/
  | raw (token : Str)
deriving Inhabited

/-- `canonicaljson::Object`: the members in written order. -/
abbrev Object := List (Str × Value)

namespace Value

/-- `std::get_if<Object>`. -/
def asObject : Value → Option Object
  | .obj members => some members
  | _ => none

/-- `std::get_if<std::string>`. -/
def asString : Value → Option Str
  | .str s => some s
  | _ => none

/-- `std::get_if<Array>`. -/
def asArray : Value → Option (List Value)
  | .arr items => some items
  | _ => none

/-- `std::get_if<std::int64_t>`. -/
def asInt : Value → Option Int64
  | .int n => some n
  | _ => none

/-- `std::get_if<bool>`. -/
def asBool : Value → Option Bool
  | .bool b => some b
  | _ => none

/-- `value_has_content`: the value is not null. -/
def hasContent : Value → Bool
  | .null => false
  | _ => true

@[simp] lemma asObject_null : asObject .null = none := rfl

@[simp] lemma asObject_obj (o : Object) : asObject (.obj o) = some o := rfl

@[simp] lemma asString_str (s : Str) : asString (.str s) = some s := rfl

@[simp] lemma hasContent_null : hasContent .null = false := rfl

@[simp] lemma hasContent_obj (o : Object) : hasContent (.obj o) = true := rfl

end Value

/-! ### Reading a member -/

/-- `object_member`: the value of the first member with this key. -/
def objectMember (object : Object) (key : Str) : Option Value :=
  (object.find? fun member => member.1 = key).map Prod.snd

def stringMember (object : Object) (key : Str) : Option Str :=
  (objectMember object key).bind Value.asString

def objectMemberAsObject (object : Object) (key : Str) : Option Object :=
  (objectMember object key).bind Value.asObject

def arrayMember (object : Object) (key : Str) : Option (List Value) :=
  (objectMember object key).bind Value.asArray

variable (key : Str)

@[simp] lemma objectMember_nil : objectMember [] key = none := rfl

lemma objectMember_cons (k : Str) (v : Value) (o : Object) (key : Str) :
    objectMember ((k, v) :: o) key = if k = key then some v else objectMember o key := by
  by_cases h : k = key <;> simp [objectMember, h]

@[simp] lemma stringMember_nil : stringMember [] key = none := rfl

@[simp] lemma arrayMember_nil : arrayMember [] key = none := rfl

lemma objectMember_append (o p : Object) (key : Str) :
    objectMember (o ++ p) key = (objectMember o key).or (objectMember p key) := by
  induction o with
  | nil => simp
  | cons m o ih =>
    rw [cons_append, objectMember_cons, objectMember_cons, ih]
    split <;> simp

variable {key : Str} {o : Object}

lemma objectMember_eq_none :
    objectMember o key = none ↔ ∀ m ∈ o, m.1 ≠ key := by
  simp [objectMember]

lemma mem_of_objectMember {v : Value} (h : objectMember o key = some v) :
    (key, v) ∈ o := by
  induction o with
  | nil => simp at h
  | cons m o ih =>
    obtain ⟨k, w⟩ := m
    rw [objectMember_cons] at h
    split at h
    · rename_i hk
      simp only [Option.some.injEq] at h
      simp [hk, h]
    · exact mem_cons_of_mem _ (ih h)

lemma objectMember_filter {p : Str → Bool} (hp : p key = true) (o : Object) :
    objectMember (o.filter fun m => p m.1) key = objectMember o key := by
  induction o with
  | nil => rfl
  | cons m o ih =>
    obtain ⟨k, v⟩ := m
    by_cases hk : p k = true
    · rw [filter_cons_of_pos (by simpa using hk), objectMember_cons, objectMember_cons, ih]
    · rw [filter_cons_of_neg (by simpa using hk), objectMember_cons, ih]
      have hne : k ≠ key := fun h => hk (h ▸ hp)
      rw [if_neg hne]

lemma objectMember_map (f : Str → Value → Value) (key : Str) (o : Object) :
    objectMember (o.map fun m => (m.1, f m.1 m.2)) key = (objectMember o key).map (f key) := by
  induction o with
  | nil => rfl
  | cons m o ih =>
    obtain ⟨k, v⟩ := m
    rw [map_cons, objectMember_cons, objectMember_cons, ih]
    by_cases hk : k = key
    · subst hk
      simp
    · simp [hk]

/-- A member is found under its key, where no key is repeated. -/
lemma objectMember_of_mem {v : Value} (hnd : (o.map Prod.fst).Nodup)
    (h : (key, v) ∈ o) : objectMember o key = some v := by
  induction o with
  | nil => cases h
  | cons m o ih =>
    rw [map_cons, nodup_cons] at hnd
    rw [objectMember_cons]
    rcases mem_cons.mp h with rfl | h
    · exact if_pos rfl
    · rw [if_neg fun hkey => hnd.1 (mem_map.mpr ⟨_, h, hkey.symm⟩)]
      exact ih hnd.2 h

end Merovingian
