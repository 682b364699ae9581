import Merovingian.Lib.Bisect
import Merovingian.Lib.Bytes

/-!
# The outbox of the application services

The events that are still to be sent to application services, as `database/PersistentStore.cpp`
keeps them in memory: one vector for all application services, sorted by application service and
stream ordering, searched by bisection.  As long as the vector is strictly sorted, a look-up, the
first row of an application service and the number of its rows are what a scan would give, and
erasing takes out the row with the key.
-/

namespace Merovingian

open List Bool

structure PersistentAppserviceOutboxEntry where
  appserviceId : Str
  streamOrdering : ℕ
  eventId : Str
deriving DecidableEq, Repr

namespace PersistentAppserviceOutboxEntry

/-- The primary key of a row, in the order of the vector. -/
def key (entry : PersistentAppserviceOutboxEntry) : Str ×ₗ ℕ :=
  toLex (entry.appserviceId, entry.streamOrdering)

/-- `outbox_entry_precedes`. -/
def precedes (entry : PersistentAppserviceOutboxEntry) (appserviceId : Str) (streamOrdering : ℕ) :
    Bool :=
  if entry.appserviceId ≠ appserviceId then entry.appserviceId < appserviceId
  else entry.streamOrdering < streamOrdering

/-- The row is of this application service. -/
def isOf (appserviceId : Str) (entry : PersistentAppserviceOutboxEntry) : Bool :=
  entry.appserviceId = appserviceId

/-- The row has this primary key. -/
def isAt (appserviceId : Str) (streamOrdering : ℕ) (entry : PersistentAppserviceOutboxEntry) :
    Bool :=
  entry.appserviceId = appserviceId ∧ entry.streamOrdering = streamOrdering

variable {entry : PersistentAppserviceOutboxEntry} {appserviceId : Str} {streamOrdering : ℕ}

lemma precedes_iff : entry.precedes appserviceId streamOrdering = true ↔
    entry.key < toLex (appserviceId, streamOrdering) := by
  simp only [precedes, key, Prod.Lex.toLex_lt_toLex]
  by_cases h : entry.appserviceId = appserviceId
  · simp [h]
  · simp [h]

lemma isAt_iff : entry.isAt appserviceId streamOrdering = true ↔
    entry.key = toLex (appserviceId, streamOrdering) := by
  simp [isAt, key]

end PersistentAppserviceOutboxEntry

open PersistentAppserviceOutboxEntry

/-! ### Binary search in the vector -/

variable {outbox : List PersistentAppserviceOutboxEntry} {appserviceId : Str} {streamOrdering : ℕ}

/-- Strictly sorted by application service and stream ordering. -/
def OutboxSorted (outbox : List PersistentAppserviceOutboxEntry) : Prop :=
  outbox.Pairwise fun first second => first.key < second.key

def outboxLowerBound (outbox : List PersistentAppserviceOutboxEntry) (appserviceId : Str)
    (streamOrdering : ℕ) : ℕ :=
  bisect (fun entry => entry.precedes appserviceId streamOrdering) outbox

/-- Whether the lower bound of a key is a row with that key. -/
def outboxFinds (outbox : List PersistentAppserviceOutboxEntry) (appserviceId : Str)
    (streamOrdering : ℕ) : Bool :=
  (outbox[outboxLowerBound outbox appserviceId streamOrdering]?).any fun entry =>
    entry.isAt appserviceId streamOrdering

variable (h : OutboxSorted outbox)

include h

lemma OutboxSorted.partitioned (appserviceId : Str) (streamOrdering : ℕ) :
    Partitioned (fun entry => entry.precedes appserviceId streamOrdering) outbox := by
  refine Pairwise.imp ?_ h
  intro first second hlt hsecond
  rw [precedes_iff] at hsecond ⊢
  exact hlt.trans hsecond

lemma OutboxSorted.outboxFinds_eq (appserviceId : Str)
    (streamOrdering : ℕ) : outboxFinds outbox appserviceId streamOrdering =
      outbox.any fun entry => entry.isAt appserviceId streamOrdering := by
  unfold outboxFinds outboxLowerBound
  rw [getElem?_bisect (h.partitioned appserviceId streamOrdering)]
  induction outbox with
  | nil => rfl
  | cons entry outbox ih =>
    obtain ⟨hfirst, hrest⟩ := pairwise_cons.mp h
    by_cases hprecedes : entry.precedes appserviceId streamOrdering = true
    · have hne : entry.isAt appserviceId streamOrdering = false := by
        rw [precedes_iff] at hprecedes
        rw [eq_false_iff, Ne, isAt_iff]
        exact hprecedes.ne
      simpa [hprecedes, hne] using ih hrest
    · -- every row behind has a greater key than this one
      have hbehind : ∀ other ∈ outbox, ¬ other.isAt appserviceId streamOrdering = true := by
        intro other hother hat
        rw [isAt_iff] at hat
        rw [precedes_iff, ← hat] at hprecedes
        exact hprecedes (hfirst other hother)
      have hany : (outbox.any fun entry => entry.isAt appserviceId streamOrdering) = false := by
        simpa using hbehind
      simp [hprecedes, hany]

lemma OutboxSorted.first_eq (appserviceId : Str) :
    (outbox[outboxLowerBound outbox appserviceId 0]?).filter (isOf appserviceId) =
      outbox.find? (isOf appserviceId) := by
  unfold outboxLowerBound
  rw [getElem?_bisect (h.partitioned appserviceId 0)]
  induction outbox with
  | nil => rfl
  | cons entry outbox ih =>
    obtain ⟨hfirst, hrest⟩ := pairwise_cons.mp h
    by_cases hprecedes : entry.precedes appserviceId 0 = true
    · have hother : entry.appserviceId ≠ appserviceId := by
        rintro rfl
        simp [precedes] at hprecedes
      simpa [hprecedes, isOf, hother] using ih hrest
    · by_cases hsame : entry.appserviceId = appserviceId
      · simp [hprecedes, isOf, hsame]
      · -- the rows from here on are of later application services
        have hlater : appserviceId < entry.appserviceId := by
          simp only [precedes, hsame, ne_eq, not_false_eq_true,
            if_true, decide_eq_true_eq, not_lt] at hprecedes
          exact lt_of_le_of_ne hprecedes fun hcon => hsame hcon.symm
        have hnone : ∀ other ∈ outbox, other.appserviceId ≠ appserviceId := by
          intro other hother
          have hle := Prod.Lex.monotone_fst _ _ (hfirst other hother).le
          exact (hlater.trans_le hle).ne'
        have hfind : outbox.find? (isOf appserviceId) = none := by
          simpa [isOf] using hnone
        have hskip : isOf appserviceId entry = false := by
          simpa [isOf] using hsame
        rw [find?_cons_of_pos (by simpa using hprecedes),
          find?_cons_of_neg (by simp [hskip]), hfind]
        simp [hskip]

/-- `std::upper_bound` of an application service among the rows from a position on. -/
def outboxUpperBound (outbox : List PersistentAppserviceOutboxEntry) (first : ℕ)
    (appserviceId : Str) : ℕ :=
  first + bisect (fun entry => !decide (appserviceId < entry.appserviceId)) (outbox.drop first)

lemma OutboxSorted.length_takeWhile (hfrom : ∀ entry ∈ outbox, appserviceId ≤ entry.appserviceId) :
    (outbox.takeWhile fun entry => !decide (appserviceId < entry.appserviceId)).length =
      outbox.countP (isOf appserviceId) := by
  induction outbox with
  | nil => rfl
  | cons entry outbox ih =>
    obtain ⟨hfirst, hrest⟩ := pairwise_cons.mp h
    have hle := hfrom entry mem_cons_self
    by_cases hlater : appserviceId < entry.appserviceId
    · have hnone : ∀ other ∈ entry :: outbox, other.appserviceId ≠ appserviceId :=
        forall_mem_cons.mpr ⟨hlater.ne', fun other hother =>
          (hlater.trans_le (Prod.Lex.monotone_fst _ _ (hfirst other hother).le)).ne'⟩
      rw [takeWhile_cons_of_neg (by simpa using hlater)]
      refine (countP_eq_zero.mpr fun other hother => ?_).symm
      simpa [isOf] using hnone other hother
    · have hsame : entry.appserviceId = appserviceId := le_antisymm (not_lt.mp hlater) hle
      rw [takeWhile_cons_of_pos (by simpa using hlater), length_cons,
        ih hrest fun other hother => hfrom other (mem_cons_of_mem _ hother),
        countP_cons_of_pos (by simpa [isOf] using hsame)]

lemma OutboxSorted.count_eq (appserviceId : Str) :
    outboxUpperBound outbox (outboxLowerBound outbox appserviceId 0) appserviceId -
        outboxLowerBound outbox appserviceId 0 = outbox.countP (isOf appserviceId) := by
  set test := fun entry : PersistentAppserviceOutboxEntry => entry.precedes appserviceId 0
  have hpartitioned : Partitioned test outbox := h.partitioned appserviceId 0
  have hdrop : OutboxSorted (outbox.dropWhile test) := h.sublist (dropWhile_sublist test)
  have hupper : Partitioned (fun entry : PersistentAppserviceOutboxEntry =>
      !decide (appserviceId < entry.appserviceId)) (outbox.dropWhile test) := by
    refine Pairwise.imp ?_ hdrop
    intro first second hlt hsecond
    simp only [not_eq_true', decide_eq_false_iff_not, not_lt] at hsecond ⊢
    exact (Prod.Lex.monotone_fst _ _ hlt.le).trans hsecond
  have hfrom : ∀ entry ∈ outbox.dropWhile test, appserviceId ≤ entry.appserviceId := by
    intro entry hmem
    have hnot := hpartitioned.not_of_mem_dropWhile hmem
    rw [precedes_iff, not_lt] at hnot
    exact Prod.Lex.monotone_fst _ _ hnot
  have hbefore : (outbox.takeWhile test).countP
      (isOf appserviceId) = 0 := by
    refine countP_eq_zero.mpr fun entry hmem hof => ?_
    have hpass : test entry = true := mem_takeWhile_imp hmem
    simp only [isOf] at hof
    simp [test, precedes, hof] at hpass
  calc outboxUpperBound outbox (outboxLowerBound outbox appserviceId 0) appserviceId -
        outboxLowerBound outbox appserviceId 0
      = bisect (fun entry => !decide (appserviceId < entry.appserviceId))
          (outbox.drop (bisect test outbox)) := Nat.add_sub_cancel_left _ _
    _ = (outbox.dropWhile test).countP (isOf appserviceId) := by
        rw [drop_bisect hpartitioned, bisect_eq hupper, hdrop.length_takeWhile hfrom]
    _ = (outbox.takeWhile test ++ outbox.dropWhile test).countP
          (isOf appserviceId) := by
        rw [countP_append, hbefore, Nat.zero_add]
    _ = outbox.countP (isOf appserviceId) := by
        rw [takeWhile_append_dropWhile]

/-! ### Inserting and erasing -/

/-- The row with a key is erased where the binary search finds it. -/
def outboxErase (outbox : List PersistentAppserviceOutboxEntry) (appserviceId : Str)
    (streamOrdering : ℕ) : List PersistentAppserviceOutboxEntry :=
  if outboxFinds outbox appserviceId streamOrdering then
    outbox.eraseIdx (outboxLowerBound outbox appserviceId streamOrdering)
  else outbox

lemma OutboxSorted.nodup : (outbox.map key).Nodup := by
  rw [Nodup, pairwise_map]
  exact Pairwise.imp (fun hlt => hlt.ne) h

lemma OutboxSorted.outboxErase (appserviceId : Str)
    (streamOrdering : ℕ) : OutboxSorted (outboxErase outbox appserviceId streamOrdering) := by
  unfold Merovingian.outboxErase
  split_ifs
  · exact h.sublist (eraseIdx_sublist _ _)
  · exact h

lemma OutboxSorted.outboxErase_perm (appserviceId : Str)
    (streamOrdering : ℕ) : (Merovingian.outboxErase outbox appserviceId streamOrdering).Perm
      (outbox.filter fun entry => !entry.isAt appserviceId streamOrdering) := by
  unfold Merovingian.outboxErase
  split_ifs with hfinds
  · obtain ⟨entry, hentry, hat⟩ := (Option.any_eq_true _ _).mp hfinds
    obtain ⟨hlt, hget⟩ := List.getElem?_eq_some_iff.mp hentry
    have hperm : (entry :: outbox.eraseIdx
        (outboxLowerBound outbox appserviceId streamOrdering)).Perm outbox := by
      rw [← hget]
      exact getElem_cons_eraseIdx_perm hlt
    have hothers : ∀ other ∈ outbox.eraseIdx (outboxLowerBound outbox appserviceId streamOrdering),
        (!other.isAt appserviceId streamOrdering) = true := by
      intro other hother
      have hnodup := (hperm.map key).nodup_iff.mpr h.nodup
      rw [map_cons, nodup_cons] at hnodup
      rw [not_eq_true', eq_false_iff]
      intro hsame
      rw [isAt_iff] at hsame hat
      exact hnodup.1 (mem_map.mpr ⟨other, hother, hsame.trans hat.symm⟩)
    have hfilter := hperm.filter fun entry => !entry.isAt appserviceId streamOrdering
    rwa [filter_cons_of_neg (by simp [hat]), filter_eq_self.mpr hothers] at hfilter
  · rw [h.outboxFinds_eq] at hfinds
    rw [filter_eq_self.mpr]
    simpa using hfinds

end Merovingian
