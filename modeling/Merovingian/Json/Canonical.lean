import Merovingian.Json.Serializer

/-!
# Canonical serialization

What a successful `serialize_canonical_strict` writes is the plain text (`renderValue`) of the
value with every object sorted (`canonValue`), without any further sorting.  So the text does not
depend on the order of members: values that are equal up to that order have the same sorted value
(`canonValue_eq_of_same`), and conversely.
-/

namespace Merovingian

open List

/-! ### Equality up to the order of members -/

mutual

/-- Equality of values up to reordering the members of objects, at every depth. -/
inductive SameUpToOrder : Value → Value → Prop
  | null : SameUpToOrder .null .null
  | bool (b : Bool) : SameUpToOrder (.bool b) (.bool b)
  | int (n : Int64) : SameUpToOrder (.int n) (.int n)
  | double (d : Double) : SameUpToOrder (.double d) (.double d)
  | str (s : Str) : SameUpToOrder (.str s) (.str s)
  | raw (t : Str) : SameUpToOrder (.raw t) (.raw t)
  | arr {xs ys : List Value} : SameItems xs ys → SameUpToOrder (.arr xs) (.arr ys)
  | obj {ms ms' ns : Object} : ms.Perm ms' → SameMembers ms' ns →
      SameUpToOrder (.obj ms) (.obj ns)

/-- Arrays of the same length whose items agree. -/
inductive SameItems : List Value → List Value → Prop
  | nil : SameItems [] []
  | cons {x y : Value} {xs ys : List Value} : SameUpToOrder x y → SameItems xs ys →
      SameItems (x :: xs) (y :: ys)

/-- Member lists with the same keys in the same order whose values agree. -/
inductive SameMembers : Object → Object → Prop
  | nil : SameMembers [] []
  | cons {k : Str} {v w : Value} {ms ns : Object} : SameUpToOrder v w → SameMembers ms ns →
      SameMembers ((k, v) :: ms) ((k, w) :: ns)

end

mutual

/-- The value with the members of every object sorted by key. -/
def canonValue : Value → Value
  | .arr items => .arr (canonItems items)
  | .obj members => .obj (sortMembers (canonMembers members))
  | .null => .null
  | .bool b => .bool b
  | .int n => .int n
  | .double d => .double d
  | .str s => .str s
  | .raw t => .raw t

/-- `canonValue` on each item. -/
def canonItems : List Value → List Value
  | [] => []
  | item :: items => canonValue item :: canonItems items

/-- `canonValue` on each member's value. -/
def canonMembers : List (Str × Value) → List (Str × Value)
  | [] => []
  | (key, value) :: members => (key, canonValue value) :: canonMembers members

end

mutual

/-- What strict serialization accepts: no number outside canonical JSON, valid strings and
keys only, and no key repeated in an object. -/
def Strict : Value → Prop
  | .str s => stringIsValidForJson s = true
  | .arr items => StrictItems items
  | .obj members => (members.map Prod.fst).Nodup ∧ StrictMembers members
  | .double _ => False
  | .raw _ => False
  | _ => True

/-- `Strict` for each item. -/
def StrictItems : List Value → Prop
  | [] => True
  | item :: items => Strict item ∧ StrictItems items

/-- `Strict` for each member's value, with a valid key. -/
def StrictMembers : List (Str × Value) → Prop
  | [] => True
  | (key, value) :: members =>
    (stringIsValidForJson key = true ∧ Strict value) ∧ StrictMembers members

end

mutual

/-- The text of a value, its members in the order they stand. -/
def renderValue : Value → Str
  | .null => "null"
  | .bool b => if b then "true" else "false"
  | .int n => decimal n.toInt
  | .str s => escapedString s
  | .arr items => arrayText (renderItems items)
  | .obj members => objectText (renderMembers members)
  | .double _ => []
  | .raw _ => []

/-- `renderValue` on each item. -/
def renderItems : List Value → List Str
  | [] => []
  | item :: items => renderValue item :: renderItems items

/-- `renderValue` on each member's value. -/
def renderMembers : List (Str × Value) → List (Str × Str)
  | [] => []
  | (key, value) :: members => (key, renderValue value) :: renderMembers members

end

lemma canonMembers_eq_map (ms : Object) :
    canonMembers ms = ms.map fun m => (m.1, canonValue m.2) := by
  induction ms with
  | nil => rfl
  | cons m ms ih =>
    rw [canonMembers, ih, map_cons]

lemma map_fst_canonMembers (ms : Object) : (canonMembers ms).map Prod.fst = ms.map Prod.fst := by
  rw [canonMembers_eq_map, map_map]
  rfl

lemma renderMembers_eq_map (ms : Object) :
    renderMembers ms = ms.map fun m => (m.1, renderValue m.2) := by
  induction ms with
  | nil => rfl
  | cons m ms ih =>
    rw [renderMembers, ih, map_cons]

lemma strictMembers_iff {ms : Object} :
    StrictMembers ms ↔ ∀ m ∈ ms, stringIsValidForJson m.1 = true ∧ Strict m.2 := by
  induction ms with
  | nil => simp [StrictMembers]
  | cons m ms ih =>
    simp [StrictMembers, ih]

lemma StrictMembers.perm {ms ns : Object} (h : StrictMembers ms) (hperm : ms.Perm ns) :
    StrictMembers ns :=
  strictMembers_iff.mpr fun m hm => strictMembers_iff.mp h m (hperm.mem_iff.mpr hm)

/-! ### Sorting by key -/

variable {α : Type} (ms : List (Str × α))

lemma sortMembers_perm : (sortMembers ms).Perm ms :=
  perm_insertionSort _ ms

lemma sortMembers_sorted :
    (sortMembers ms).Pairwise fun a b => a.1 ≤ b.1 := by
  exact pairwise_insertionSort (r := fun a b : Str × α => a.1 ≤ b.1) ms

lemma sortMembers_map {β : Type} (f : α → β) (ms : List (Str × α)) :
    sortMembers (ms.map fun m => (m.1, f m.2)) = (sortMembers ms).map fun m => (m.1, f m.2) := by
  refine (map_insertionSort _ _ _ ms ?_).symm
  intro a _ b _
  exact Iff.rfl

lemma sortMembers_eq_of_perm {ms ns : List (Str × α)}
    (hnd : (ms.map Prod.fst).Nodup) (h : ms.Perm ns) : sortMembers ms = sortMembers ns := by
  have hsort : (sortMembers ms).Perm (sortMembers ns) :=
    (sortMembers_perm ms).trans (h.trans (sortMembers_perm ns).symm)
  refine Perm.eq_of_pairwise ?_ (sortMembers_sorted ms) (sortMembers_sorted ns) hsort
  intro a b ha hb hab hba
  have ha' : a ∈ ms := (sortMembers_perm ms).mem_iff.mp ha
  have hb' : b ∈ ms := h.mem_iff.mpr ((sortMembers_perm ns).mem_iff.mp hb)
  exact inj_on_of_nodup_map hnd ha' hb' (le_antisymm hab hba)

/-! ### A successful output is the text of the sorted value -/

lemma ok_or_error {ε : Type} {x : Except ε α} {P : Prop} {y : α}
    (h : ∀ {z}, x = .ok z ↔ P ∧ y = z) : (P ∧ x = .ok y) ∨ (¬ P ∧ ∃ e, x = .error e) := by
  cases x with
  | error e =>
    refine .inr ⟨fun hP => ?_, e, rfl⟩
    cases h.mpr ⟨hP, rfl⟩
  | ok z =>
    obtain ⟨hP, rfl⟩ := h.mp rfl
    exact .inl ⟨hP, rfl⟩

lemma objectHasDuplicateKeys_eq_false {o : Object} :
    objectHasDuplicateKeys o = false ↔ (o.map Prod.fst).Nodup := by
  simp [objectHasDuplicateKeys]

mutual

lemma serializeValue_eq_ok : ∀ (v : Value) {out : Str}, serializeValue none v = .ok out ↔
    Strict v ∧ renderValue (canonValue v) = out
  | .null, _ => by simp [serializeValue, Strict, canonValue, renderValue]
  | .bool b, _ => by simp [serializeValue, Strict, canonValue, renderValue]
  | .int n, _ => by simp [serializeValue, Strict, canonValue, renderValue]
  | .double d, _ => by simp [serializeValue, Strict]
  | .raw t, _ => by simp [serializeValue, Strict]
  | .str s, _ => by
    by_cases hs : stringIsValidForJson s = true
    · simp [serializeValue, Strict, canonValue, renderValue, hs]
    · simp [serializeValue, Strict, hs]
  | .arr items, out => by
    simp only [serializeValue, Strict, canonValue, renderValue]
    rcases ok_or_error (serializeItems_eq_ok items) with ⟨hstrict, hok⟩ | ⟨hnot, e, herror⟩
    · simp [hok, hstrict]
    · simp [herror, hnot]
  | .obj members, out => by
    simp only [serializeValue, Strict, canonValue, renderValue]
    cases hdup : objectHasDuplicateKeys members with
    | true =>
      have hnot : ¬ (members.map Prod.fst).Nodup := by
        rw [← objectHasDuplicateKeys_eq_false, hdup]
        simp
      simp [hnot]
    | false =>
      have hnd := objectHasDuplicateKeys_eq_false.mp hdup
      rcases ok_or_error (serializeMembers_eq_ok members) with ⟨hstrict, hok⟩ | ⟨hnot, e, herror⟩
      · simp [hok, hstrict, hnd, renderMembers_eq_map, sortMembers_map]
      · simp [herror, hnot]

lemma serializeItems_eq_ok : ∀ (items : List Value) {texts : List Str},
    serializeItems none items = .ok texts ↔
      StrictItems items ∧ renderItems (canonItems items) = texts
  | [], _ => by simp [serializeItems, StrictItems, canonItems, renderItems]
  | item :: items, texts => by
    simp only [serializeItems, StrictItems, canonItems, renderItems]
    rcases ok_or_error (serializeValue_eq_ok item) with ⟨hstrict, hok⟩ | ⟨hnot, e, herror⟩
    · rcases ok_or_error (serializeItems_eq_ok items) with ⟨hrest, hok'⟩ | ⟨hnot, e, herror⟩
      · simp [hok, hok', hstrict, hrest]
      · simp [hok, herror, hnot]
    · simp [herror, hnot]

lemma serializeMembers_eq_ok : ∀ (members : List (Str × Value)) {texts : List (Str × Str)},
    serializeMembers none members = .ok texts ↔
      StrictMembers members ∧ renderMembers (canonMembers members) = texts
  | [], _ => by simp [serializeMembers, StrictMembers, canonMembers, renderMembers]
  | (key, value) :: members, texts => by
    simp only [serializeMembers, StrictMembers, canonMembers, renderMembers]
    by_cases hkey : stringIsValidForJson key = true
    · rcases ok_or_error (serializeValue_eq_ok value) with ⟨hstrict, hok⟩ | ⟨hnot, e, herror⟩
      · rcases ok_or_error (serializeMembers_eq_ok members) with ⟨hrest, hok'⟩ | ⟨hnot, e, herror⟩
        · simp [hkey, hok, hok', hstrict, hrest]
        · simp [hkey, hok, herror, hnot]
      · simp [hkey, herror, hnot]
    · simp [hkey]

end

/-! ### Reordering and the sorted value -/

mutual

lemma canonValue_eq_of_same : ∀ {v w : Value}, SameUpToOrder v w → Strict v →
    canonValue v = canonValue w
  | _, _, .null, _ => rfl
  | _, _, .bool _, _ => rfl
  | _, _, .int _, _ => rfl
  | _, _, .double _, _ => rfl
  | _, _, .str _, _ => rfl
  | _, _, .raw _, _ => rfl
  | _, _, .arr h, hs => by
    rw [canonValue, canonValue, canonItems_eq_of_same h hs]
  | _, _, @SameUpToOrder.obj ms ms' _ hperm h, hs => by
    have hsorted : sortMembers (canonMembers ms) = sortMembers (canonMembers ms') := by
      apply sortMembers_eq_of_perm
      · rw [map_fst_canonMembers]
        exact hs.1
      · rw [canonMembers_eq_map, canonMembers_eq_map]
        exact hperm.map _
    rw [canonValue, canonValue, hsorted, canonMembers_eq_of_same h (hs.2.perm hperm)]

lemma canonItems_eq_of_same : ∀ {xs ys : List Value}, SameItems xs ys → StrictItems xs →
    canonItems xs = canonItems ys
  | _, _, .nil, _ => rfl
  | _, _, .cons h hs, hstrict => by
    rw [canonItems, canonItems, canonValue_eq_of_same h hstrict.1,
      canonItems_eq_of_same hs hstrict.2]

lemma canonMembers_eq_of_same : ∀ {ms ns : Object}, SameMembers ms ns → StrictMembers ms →
    canonMembers ms = canonMembers ns
  | _, _, .nil, _ => rfl
  | _, _, .cons h hs, hstrict => by
    rw [canonMembers, canonMembers, canonValue_eq_of_same h hstrict.1.2,
      canonMembers_eq_of_same hs hstrict.2]

end

lemma exists_perm_of_map_perm {β : Type} (f : α → β) {l : List α} {k : List β}
    (h : (l.map f).Perm k) : ∃ l', l.Perm l' ∧ l'.map f = k := by
  have hmap : Forall₂ (fun b a => b = f a) (l.map f) l := by
    rw [← forall₂_map_right_iff, forall₂_eq_eq_eq]
  obtain ⟨l', hl', hperm⟩ := perm_comp_forall₂ h.symm hmap
  rw [← forall₂_map_right_iff, forall₂_eq_eq_eq] at hl'
  exact ⟨l', hperm.symm, hl'.symm⟩

mutual

lemma same_of_canonValue_eq : ∀ (v w : Value), canonValue v = canonValue w → SameUpToOrder w v
  | .null, w, h => by
    cases w <;> simp [canonValue] at h
    exact .null
  | .bool b, w, h => by
    cases w <;> simp [canonValue] at h
    exact h ▸ .bool b
  | .int n, w, h => by
    cases w <;> simp [canonValue] at h
    exact h ▸ .int n
  | .double d, w, h => by
    cases w <;> simp [canonValue] at h
    exact h ▸ .double d
  | .str s, w, h => by
    cases w <;> simp [canonValue] at h
    exact h ▸ .str s
  | .raw t, w, h => by
    cases w <;> simp [canonValue] at h
    exact h ▸ .raw t
  | .arr xs, w, h => by
    cases w <;> simp [canonValue] at h
    exact .arr (same_of_canonItems_eq xs _ h)
  | .obj ms, w, h => by
    cases w with
    | obj ns =>
      simp only [canonValue, Value.obj.injEq] at h
      have hperm : (canonMembers ns).Perm (canonMembers ms) :=
        ((sortMembers_perm _).symm.trans (h ▸ Perm.refl _)).trans (sortMembers_perm _)
      rw [canonMembers_eq_map ns] at hperm
      obtain ⟨ns', hns, hmap⟩ := exists_perm_of_map_perm _ hperm
      rw [← canonMembers_eq_map] at hmap
      exact .obj hns (same_of_canonMembers_eq ms ns' hmap.symm)
    | _ => simp [canonValue] at h

lemma same_of_canonItems_eq : ∀ (xs ys : List Value), canonItems xs = canonItems ys →
    SameItems ys xs
  | [], ys, h => by
    cases ys with
    | nil => exact .nil
    | cons y ys => simp [canonItems] at h
  | x :: xs, ys, h => by
    cases ys with
    | nil => simp [canonItems] at h
    | cons y ys =>
      simp only [canonItems, cons.injEq] at h
      exact .cons (same_of_canonValue_eq x y h.1) (same_of_canonItems_eq xs ys h.2)

lemma same_of_canonMembers_eq : ∀ (ms ns : List (Str × Value)), canonMembers ms = canonMembers ns →
    SameMembers ns ms
  | [], ns, h => by
    cases ns with
    | nil => exact .nil
    | cons n ns => simp [canonMembers] at h
  | (k, v) :: ms, ns, h => by
    cases ns with
    | nil => simp [canonMembers] at h
    | cons n ns =>
      obtain ⟨k', w⟩ := n
      simp only [canonMembers, cons.injEq, Prod.mk.injEq] at h
      obtain ⟨⟨rfl, hv⟩, hms⟩ := h
      exact .cons (same_of_canonValue_eq v w hv) (same_of_canonMembers_eq ms ns hms)

end

/-! ### Strict values and reordering -/

mutual

lemma canonValue_canonValue : ∀ v : Value, canonValue (canonValue v) = canonValue v
  | .null => rfl
  | .bool _ => rfl
  | .int _ => rfl
  | .double _ => rfl
  | .str _ => rfl
  | .raw _ => rfl
  | .arr items => by
    rw [canonValue, canonValue, canonItems_canonItems items]
  | .obj ms => by
    have hsorted := (sortMembers_sorted (canonMembers ms)).insertionSort_eq
    rw [canonValue, canonValue, canonMembers_eq_map (sortMembers _), ← sortMembers_map,
      ← canonMembers_eq_map, canonMembers_canonMembers ms]
    exact congrArg Value.obj hsorted

lemma canonItems_canonItems : ∀ items : List Value, canonItems (canonItems items) = canonItems items
  | [] => rfl
  | item :: items => by
    rw [canonItems, canonItems, canonValue_canonValue item, canonItems_canonItems items]

lemma canonMembers_canonMembers : ∀ members : List (Str × Value),
    canonMembers (canonMembers members) = canonMembers members
  | [] => rfl
  | (key, value) :: members => by
    rw [canonMembers, canonMembers, canonValue_canonValue value, canonMembers_canonMembers members]

end

lemma SameUpToOrder.refl (v : Value) : SameUpToOrder v v := same_of_canonValue_eq v v rfl

mutual

lemma strict_canonValue : ∀ v : Value, Strict (canonValue v) ↔ Strict v
  | .null => .rfl
  | .bool _ => .rfl
  | .int _ => .rfl
  | .double _ => .rfl
  | .str _ => .rfl
  | .raw _ => .rfl
  | .arr items => strict_canonItems items
  | .obj ms => by
    have hperm := sortMembers_perm (canonMembers ms)
    rw [canonValue, Strict, Strict, (hperm.map Prod.fst).nodup_iff, map_fst_canonMembers,
      ← strict_canonMembers ms]
    exact and_congr_right fun _ => ⟨(·.perm hperm), (·.perm hperm.symm)⟩

lemma strict_canonItems : ∀ items : List Value, StrictItems (canonItems items) ↔ StrictItems items
  | [] => .rfl
  | item :: items => and_congr (strict_canonValue item) (strict_canonItems items)

lemma strict_canonMembers : ∀ ms : List (Str × Value), StrictMembers (canonMembers ms) ↔ StrictMembers ms
  | [] => .rfl
  | (_, value) :: ms =>
    and_congr (and_congr_right fun _ => strict_canonValue value) (strict_canonMembers ms)

end

/-- Reordering members does not change the text. -/
lemma serializeCanonicalStrict_congr {v w : Value} (hv : Strict v) (h : SameUpToOrder v w) :
    serializeCanonicalStrict w = serializeCanonicalStrict v := by
  have htext : serializeCanonicalStrict v = .ok (renderValue (canonValue v)) :=
    (serializeValue_eq_ok v).mpr ⟨hv, rfl⟩
  have hw : Strict w := by
    rwa [← strict_canonValue, ← canonValue_eq_of_same h hv, strict_canonValue]
  rw [htext, canonValue_eq_of_same h hv]
  exact (serializeValue_eq_ok w).mpr ⟨hw, rfl⟩

end Merovingian
