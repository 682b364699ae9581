import Merovingian.Json.Utf8

/-!
# Strings of IPC frames

The model of `ipc_json_str` of `ipc/federation_ipc_frames.cpp`.  It escapes a string as the canonical
serializer does, but any bytes may be in it: a byte that is not part of a valid UTF-8 sequence is
replaced with U+FFFD.

So the text is the canonical text of the repaired string (`ipcJsonStr_eq`).  The repaired string is
valid, and it is the string itself if that is valid (`utf8Repair_of_valid`).
-/

namespace Merovingian

open JsonText List Bool

def utf8SequenceLength (lead : UInt8) : ℕ :=
  if lead &&& 0xE0 = 0xC0 then 2
  else if lead &&& 0xF0 = 0xE0 then 3
  else if lead &&& 0xF8 = 0xF0 then 4
  else 0

/-- A string starts with a valid sequence of the length its first byte announces. -/
def startsSequence (s : Str) : Bool :=
  match s with
  | [] => false
  | ch :: _ =>
    0 < utf8SequenceLength ch && utf8SequenceLength ch ≤ s.length &&
      utf8IsValid (s.take (utf8SequenceLength ch))

/-- U+FFFD. -/
def replacementCharacter : Str := [0xEF, 0xBF, 0xBD]

/-- The loop of `ipc_json_str`, with fuel for each byte.  The escapes of its `switch` are those of
`append_escaped_string`. -/
def ipcJsonLoop : ℕ → Str → Str
  | 0, _ => []
  | _, [] => []
  | n + 1, ch :: rest =>
    if 0x80 ≤ ch then
      if startsSequence (ch :: rest) then
        (ch :: rest).take (utf8SequenceLength ch) ++
          ipcJsonLoop n ((ch :: rest).drop (utf8SequenceLength ch))
      else replacementCharacter ++ ipcJsonLoop n rest
    else escapeByte ch ++ ipcJsonLoop n rest

def ipcJsonStr (s : Str) : Str := 34 :: (ipcJsonLoop s.length s ++ [34])

/-- Quotes, a control byte and a character pass, a lone continuation byte is replaced. -/
example : ipcJsonStr [97, 34, 1, 0xC3, 0xA9, 0xA9] =
    lit "\"a\\\"\\u0001" ++ [0xC3, 0xA9, 0xEF, 0xBF, 0xBD, 34] := by decide

/-! ### Repairing -/

/-- The string whose escapes the loop writes. -/
def utf8RepairLoop : ℕ → Str → Str
  | 0, _ => []
  | _, [] => []
  | n + 1, ch :: rest =>
    if 0x80 ≤ ch then
      if startsSequence (ch :: rest) then
        (ch :: rest).take (utf8SequenceLength ch) ++
          utf8RepairLoop n ((ch :: rest).drop (utf8SequenceLength ch))
      else replacementCharacter ++ utf8RepairLoop n rest
    else ch :: utf8RepairLoop n rest

/-- A string with U+FFFD for every byte that is not part of a valid sequence. -/
def utf8Repair (s : Str) : Str := utf8RepairLoop s.length s

variable {ch : UInt8} {s : Str}

lemma utf8SequenceLength_of_lead {pending low bits : ℕ}
    (h : utf8Lead ch = some (pending, low, bits)) : utf8SequenceLength ch = pending + 1 := by
  rw [utf8Lead] at h
  rw [utf8SequenceLength]
  split_ifs at h ⊢ with htwo hthree hfour
  · cases h
    rfl
  · cases h
    rfl
  · cases h
    rfl

/-- The bytes that a sequence still owes have no ASCII among them. -/
lemma utf8Scan_high : ∀ {pending low bits : ℕ}, s.length = pending →
    utf8Scan pending low bits s = true → ∀ b ∈ s, ¬ b ≤ 0x7F := by
  induction s with
  | nil => simp
  | cons b s ih =>
    intro pending low bits hlength h c hc
    have hb : ¬ b ≤ 0x7F := by
      intro hle
      have hzero := ((utf8Scan_ascii_cons hle).mp h).1
      rw [length_cons] at hlength
      omega
    rcases mem_cons.mp hc with rfl | hc
    · exact hb
    · cases pending with
      | zero => cases hlength
      | succ pending =>
        rw [utf8Scan] at h
        split at h
        · cases h
        split at h
        · cases h
        · exact ih (by simpa using hlength) h c hc

lemma utf8Scan_split {pending : ℕ} : ∀ {low bits : ℕ} {s : Str},
    utf8Scan pending low bits s = true →
    pending ≤ s.length ∧ utf8Scan pending low bits (s.take pending) = true ∧
      utf8IsValid (s.drop pending) = true := by
  induction pending with
  | zero =>
    intro low bits s h
    rw [utf8Scan_zero] at h
    exact ⟨Nat.zero_le _, rfl, h⟩
  | succ pending ih =>
    intro low bits s h
    cases s with
    | nil => cases h
    | cons b s =>
      rw [utf8Scan] at h
      split at h
      · cases h
      · next hnext =>
        split at h
        · cases h
        · next hrefused =>
          obtain ⟨hle, htake, hdrop⟩ := ih h
          refine ⟨by simpa using hle, ?_, hdrop⟩
          rw [take_succ_cons, utf8Scan, if_neg hnext, if_neg hrefused]
          exact htake

lemma not_le_of_high (h : 0x80 ≤ ch) : ¬ ch ≤ 0x7F := by
  exact fun hle => absurd (h.trans hle) (by decide)

lemma le_of_not_high (h : ¬ 0x80 ≤ ch) : ch ≤ 0x7F := by
  exact Nat.lt_succ_iff.mp (not_le.mp h)

/-- A valid text whose first byte is not ASCII starts with a sequence. -/
lemma startsSequence_of_valid {rest : Str} (hch : 0x80 ≤ ch) (h : utf8IsValid (ch :: rest) = true) :
    startsSequence (ch :: rest) = true ∧
      utf8IsValid ((ch :: rest).drop (utf8SequenceLength ch)) = true := by
  have hhigh := not_le_of_high hch
  rw [utf8IsValid, utf8Scan, if_neg hhigh] at h
  cases hlead : utf8Lead ch with
  | none => simp [hlead] at h
  | some lead =>
    obtain ⟨pending, low, bits⟩ := lead
    simp only [hlead] at h
    obtain ⟨hle, htake, hdrop⟩ := utf8Scan_split h
    have hlength := utf8SequenceLength_of_lead hlead
    refine ⟨?_, by rwa [hlength]⟩
    have hvalid : utf8IsValid (ch :: rest.take pending) = true := by
      rw [utf8IsValid, utf8Scan, if_neg hhigh, hlead]
      exact htake
    simp [startsSequence, hlength, hle, hvalid]

/-- No byte of a sequence is escaped. -/
lemma flatMap_escapeByte_sequence {rest : Str} (hch : 0x80 ≤ ch)
    (h : startsSequence (ch :: rest) = true) :
    ((ch :: rest).take (utf8SequenceLength ch)).flatMap escapeByte =
      (ch :: rest).take (utf8SequenceLength ch) := by
  simp only [startsSequence, and_eq_true, decide_eq_true_eq] at h
  obtain ⟨⟨hpos, hle⟩, hvalid⟩ := h
  have hhigh : ∀ b ∈ (ch :: rest).take (utf8SequenceLength ch), ¬ b ≤ 0x7F := by
    obtain ⟨pending, hpending⟩ := Nat.exists_eq_succ_of_ne_zero hpos.ne'
    rw [hpending, take_succ_cons] at hvalid ⊢
    rw [utf8IsValid, utf8Scan, if_neg (not_le_of_high hch)] at hvalid
    cases hlead : utf8Lead ch with
    | none => simp [hlead] at hvalid
    | some lead =>
      simp only [hlead] at hvalid
      have hlength := utf8SequenceLength_of_lead hlead
      have htake : (rest.take pending).length = lead.1 := by
        rw [length_take]
        rw [length_cons] at hle
        omega
      exact forall_mem_cons.mpr ⟨not_le_of_high hch, utf8Scan_high htake hvalid⟩
  have hself : ∀ b ∈ (ch :: rest).take (utf8SequenceLength ch), escapeByte b = [b] := by
    intro b hb
    rcases escapeByte_cases b with ⟨-, hascii⟩ | hself
    · exact absurd hascii (hhigh b hb)
    · exact hself
  rw [flatMap_congr hself, flatMap_singleton']

lemma ipcJsonLoop_eq (n : ℕ) (s : Str) :
    ipcJsonLoop n s = (utf8RepairLoop n s).flatMap escapeByte := by
  induction n generalizing s with
  | zero => rfl
  | succ n ih =>
    cases s with
    | nil => rfl
    | cons ch rest =>
      rw [ipcJsonLoop, utf8RepairLoop]
      split
      · next hch =>
        split
        · next hstarts =>
          rw [flatMap_append, flatMap_escapeByte_sequence hch hstarts, ih]
        · rw [ih]
          rfl
      · rw [flatMap_cons, ih]

/-- The text of a string in a frame is the canonical text of the repaired string. -/
theorem ipcJsonStr_eq (s : Str) : ipcJsonStr s = escapedString (utf8Repair s) := by
  rw [ipcJsonStr, ipcJsonLoop_eq, escapedString, utf8Repair]

lemma utf8IsValid_utf8RepairLoop (n : ℕ) (s : Str) : utf8IsValid (utf8RepairLoop n s) = true := by
  induction n generalizing s with
  | zero => rfl
  | succ n ih =>
    cases s with
    | nil => rfl
    | cons ch rest =>
      rw [utf8RepairLoop]
      split
      · split
        · next hstarts =>
          simp only [startsSequence, and_eq_true] at hstarts
          exact utf8IsValid_append hstarts.2 (ih _)
        · exact utf8IsValid_append (by decide) (ih _)
      · next hch =>
        rw [utf8IsValid, utf8Scan_ascii_cons (le_of_not_high hch)]
        exact ⟨rfl, ih rest⟩

theorem utf8IsValid_utf8Repair (s : Str) : utf8IsValid (utf8Repair s) = true :=
  utf8IsValid_utf8RepairLoop _ _

lemma utf8RepairLoop_of_valid {n : ℕ} (hn : s.length ≤ n) (h : utf8IsValid s = true) :
    utf8RepairLoop n s = s := by
  induction n generalizing s with
  | zero =>
    rw [length_eq_zero_iff.mp (Nat.le_zero.mp hn)]
    rfl
  | succ n ih =>
    cases s with
    | nil => rfl
    | cons ch rest =>
      rw [length_cons] at hn
      rw [utf8RepairLoop]
      split
      · next hch =>
        obtain ⟨hstarts, hdrop⟩ := startsSequence_of_valid hch h
        have hpos : 0 < utf8SequenceLength ch := by
          simp only [startsSequence, and_eq_true, decide_eq_true_eq] at hstarts
          exact hstarts.1.1
        rw [if_pos hstarts, ih _ hdrop, take_append_drop]
        rw [length_drop, length_cons]
        omega
      · next hch =>
        rw [utf8IsValid, utf8Scan_ascii_cons (le_of_not_high hch)] at h
        rw [ih (by omega) h.2]

/-- A valid string needs no repair. -/
theorem utf8Repair_of_valid (h : utf8IsValid s = true) : utf8Repair s = s :=
  utf8RepairLoop_of_valid (le_refl _) h

lemma utf8Repair_eq_nil : utf8Repair s = [] ↔ s = [] := by
  constructor
  · intro h
    cases s with
    | nil => rfl
    | cons ch rest =>
      rw [utf8Repair, length_cons, utf8RepairLoop] at h
      split at h
      · split at h
        · next hstarts =>
          simp only [startsSequence, and_eq_true, decide_eq_true_eq] at hstarts
          rw [append_eq_nil_iff, take_eq_nil_iff] at h
          rcases h.1 with hzero | hnil
          · omega
          · cases hnil
        · cases h
      · cases h
  · rintro rfl
    rfl

end Merovingian
