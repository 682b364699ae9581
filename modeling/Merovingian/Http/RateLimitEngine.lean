import Merovingian.Federation.OriginRateLimit

/-!
# The policy of a route

The model of `lookup_policy` and `resolve_per_user_policy` of `http/RateLimitEngine.hpp`.  A table
is a hash map, so the loop visits its entries in any order.  Of the longest keys that match the
first one visited wins, and there can be two, one that opens the normalised target and one that
opens the path (`lookupPolicy_depends_on_order`).  The order matters exactly where two such keys have
different policies (`lookupPolicy_order_independent`).
-/

namespace Merovingian

open List

/-- `matches`: a key opens one of the two targets. -/
def keyMatches (target policyTarget key : Str) : Bool :=
  key.isPrefixOf target || key.isPrefixOf policyTarget

/-- `lookup_policy` of a table whose entries are visited in this order: the policy of the longest
key that matches, found with its length. -/
def lookupPolicy (table : List (Str × RateLimitPolicy)) (target policyTarget : Str) :
    Option RateLimitPolicy :=
  (table.foldl (fun best entry =>
    if keyMatches target policyTarget entry.1 && best.2 < entry.1.length then
      (some entry.2, entry.1.length)
    else best) (none, 0)).1

def resolvePerUserPolicy (perUser builtinPerUser : List (Str × RateLimitPolicy))
    (target policyTarget : Str) : Option RateLimitPolicy :=
  ((lookupPolicy perUser target policyTarget).or
    (lookupPolicy builtinPerUser target policyTarget)).filter rateLimitPolicyIsValid

variable {table table' builtin : List (Str × RateLimitPolicy)} {target policyTarget : Str}
  {entry : Str × RateLimitPolicy}

/-- An entry whose key matches, as long as any key of the table that matches. -/
def Longest (table : List (Str × RateLimitPolicy)) (target policyTarget : Str)
    (entry : Str × RateLimitPolicy) : Prop :=
  entry ∈ table ∧ keyMatches target policyTarget entry.1 ∧
    ∀ other ∈ table, keyMatches target policyTarget other.1 → other.1.length ≤ entry.1.length

/-- Two of the longest entries differ in their policies, as far as those are kept. -/
def Tied (keep : RateLimitPolicy → Bool) (table : List (Str × RateLimitPolicy))
    (target policyTarget : Str) : Prop :=
  ∃ entry other, Longest table target policyTarget entry ∧
    Longest table target policyTarget other ∧
    (some entry.2).filter keep ≠ (some other.2).filter keep

/-- No key but the empty one, which is never chosen, matches. -/
def Unlisted (table : List (Str × RateLimitPolicy)) (target policyTarget : Str) : Prop :=
  ∀ entry ∈ table, keyMatches target policyTarget entry.1 → entry.1 = []

lemma Longest.perm (hperm : table.Perm table') :
    Longest table target policyTarget entry ↔ Longest table' target policyTarget entry := by
  simp only [Longest, hperm.mem_iff]

lemma foldl_lookupPolicy (table : List (Str × RateLimitPolicy)) (target policyTarget : Str)
    (best : Option RateLimitPolicy × ℕ) :
    let result := table.foldl (fun best entry =>
      if keyMatches target policyTarget entry.1 && best.2 < entry.1.length then
        (some entry.2, entry.1.length)
      else best) best
    (∀ entry ∈ table, keyMatches target policyTarget entry.1 → entry.1.length ≤ result.2) ∧
      best.2 ≤ result.2 ∧ (result = best ∨ ∃ entry ∈ table,
        keyMatches target policyTarget entry.1 ∧ best.2 < entry.1.length ∧
        result = (some entry.2, entry.1.length)) := by
  induction table generalizing best with
  | nil => simp
  | cons first table ih =>
    simp only [foldl_cons, forall_mem_cons, exists_mem_cons_iff]
    split_ifs with hlonger
    · obtain ⟨hall, hle, hresult⟩ := ih (some first.2, first.1.length)
      obtain ⟨hmatch, hlt⟩ := Bool.and_eq_true_iff.mp hlonger
      have hlt := of_decide_eq_true hlt
      refine ⟨⟨fun _ => hle, hall⟩, hlt.le.trans hle, .inr ?_⟩
      rcases hresult with hresult | ⟨entry, hentry, hmatch', hlt', hresult⟩
      · exact .inl ⟨hmatch, hlt, hresult⟩
      · exact .inr ⟨entry, hentry, hmatch', hlt.trans hlt', hresult⟩
    · obtain ⟨hall, hle, hresult⟩ := ih best
      refine ⟨⟨fun hmatch => ?_, hall⟩, hle, hresult.imp_right .inr⟩
      simp only [hmatch, Bool.true_and, decide_eq_true_eq, not_lt] at hlonger
      exact hlonger.trans hle

/-- The policy of a longest entry is found, unless the route is not listed. -/
lemma lookupPolicy_cases (table : List (Str × RateLimitPolicy)) (target policyTarget : Str) :
    (Unlisted table target policyTarget ∧ lookupPolicy table target policyTarget = none) ∨
      (¬ Unlisted table target policyTarget ∧ ∃ entry, Longest table target policyTarget entry ∧
        lookupPolicy table target policyTarget = some entry.2) := by
  obtain ⟨hall, -, hresult | ⟨entry, hentry, hmatch, hlt, hresult⟩⟩ :=
    foldl_lookupPolicy table target policyTarget (none, 0)
  · rw [hresult] at hall
    refine .inl ⟨fun entry hentry hmatch => ?_, by rw [lookupPolicy, hresult]⟩
    exact length_eq_zero_iff.mp (Nat.le_zero.mp (hall entry hentry hmatch))
  · rw [hresult] at hall
    refine .inr ⟨fun hnone => ?_, entry, ⟨hentry, hmatch, hall⟩, by rw [lookupPolicy, hresult]⟩
    simp [hnone entry hentry hmatch] at hlt

lemma lookupPolicy_eq_none_iff :
    lookupPolicy table target policyTarget = none ↔ Unlisted table target policyTarget := by
  rcases lookupPolicy_cases table target policyTarget with ⟨h, hlookup⟩ | ⟨h, entry, -, hlookup⟩
  · exact iff_of_true hlookup h
  · exact iff_of_false (by simp [hlookup]) h

lemma Unlisted.perm (hperm : table.Perm table') :
    Unlisted table target policyTarget ↔ Unlisted table' target policyTarget := by
  simp only [Unlisted, hperm.mem_iff]

lemma Unlisted.resolvePerUserPolicy (h : Unlisted table target policyTarget) :
    resolvePerUserPolicy table builtin target policyTarget =
      (lookupPolicy builtin target policyTarget).filter rateLimitPolicyIsValid := by
  rw [Merovingian.resolvePerUserPolicy, lookupPolicy_eq_none_iff.mpr h, Option.none_or]

lemma resolvePerUserPolicy_of_listed (h : ¬ Unlisted table target policyTarget) :
    resolvePerUserPolicy table builtin target policyTarget =
      (lookupPolicy table target policyTarget).filter rateLimitPolicyIsValid := by
  obtain ⟨policy, hpolicy⟩ := Option.ne_none_iff_exists'.mp (lookupPolicy_eq_none_iff.not.mpr h)
  rw [resolvePerUserPolicy, hpolicy, Option.some_or]

lemma Longest.lookupPolicy_cons (h : Longest table target policyTarget entry) (hne : entry.1 ≠ [])
    {rest : List (Str × RateLimitPolicy)} (hrest : rest ⊆ table) :
    lookupPolicy (entry :: rest) target policyTarget = some entry.2 := by
  rw [lookupPolicy, foldl_cons, if_pos (by simp [h.2.1, length_pos_iff.mpr hne])]
  rcases (foldl_lookupPolicy rest target policyTarget (some entry.2, entry.1.length)).2.2 with
    hresult | ⟨other, hother, hmatch, hlt, -⟩
  · rw [hresult]
  · exact absurd (h.2.2 other (hrest hother) hmatch) (not_le.mpr hlt)

lemma filter_lookupPolicy_perm_iff (keep : RateLimitPolicy → Bool)
    (hkeys : (table.map Prod.fst).Nodup) :
    (∀ table', table.Perm table' → (lookupPolicy table' target policyTarget).filter keep =
      (lookupPolicy table target policyTarget).filter keep) ↔
    ¬ Tied keep table target policyTarget := by
  constructor
  · rintro h ⟨entry, other, hentry, hother, hne⟩
    have hfirst : ∀ entry, Longest table target policyTarget entry → entry.1 ≠ [] →
        (some entry.2).filter keep = (lookupPolicy table target policyTarget).filter keep := by
      intro entry hentry hlong
      obtain ⟨l, m, hsplit⟩ := append_of_mem hentry.1
      have hrest : l ++ m ⊆ table := hsplit ▸ fun _ h => by simp_all [or_left_comm]
      rw [← hentry.lookupPolicy_cons hlong hrest, h _ (hsplit ▸ perm_middle)]
    have hlength := le_antisymm (hother.2.2 entry hentry.1 hentry.2.1)
      (hentry.2.2 other hother.1 hother.2.1)
    by_cases hempty : entry.1 = []
    · have hempty' : other.1 = [] := length_eq_zero_iff.mp (by simpa [hempty] using hlength.symm)
      exact hne (congrArg (fun entry => (some entry.2).filter keep)
        (inj_on_of_nodup_map hkeys hentry.1 hother.1 (hempty.trans hempty'.symm)))
    · have hlong : other.1 ≠ [] := fun h =>
        hempty (length_eq_zero_iff.mp (by simpa [h] using hlength))
      exact hne ((hfirst entry hentry hempty).trans (hfirst other hother hlong).symm)
  · intro h table' hperm
    rcases lookupPolicy_cases table target policyTarget with ⟨hnone, hlookup⟩ | ⟨hsome, entry,
      hentry, hlookup⟩
    · rw [hlookup, lookupPolicy_eq_none_iff.mpr ((Unlisted.perm hperm).mp hnone)]
    · obtain ⟨-, other, hother, hlookup'⟩ := (lookupPolicy_cases table' target policyTarget).resolve_left
        fun h => hsome ((Unlisted.perm hperm).mpr h.1)
      rw [hlookup, hlookup']
      by_contra hne
      exact h ⟨other, entry, (Longest.perm hperm).mpr hother, hentry, hne⟩

/-- The order in which the tables are visited does not matter, for a table of its own and for the
limits of a route, exactly where the longest keys that match are not tied.  The built-in table
counts where the route is not in the operator's. -/
theorem lookupPolicy_order_independent (hkeys : (table.map Prod.fst).Nodup)
    (hkeys' : (builtin.map Prod.fst).Nodup) :
    ((∀ table', table.Perm table' → lookupPolicy table' target policyTarget =
        lookupPolicy table target policyTarget) ↔
      ¬ Tied (fun _ => true) table target policyTarget) ∧
    ((∀ table' builtin', table.Perm table' → builtin.Perm builtin' →
        resolvePerUserPolicy table' builtin' target policyTarget =
          resolvePerUserPolicy table builtin target policyTarget) ↔
      ¬ Tied rateLimitPolicyIsValid table target policyTarget ∧
        (Unlisted table target policyTarget →
          ¬ Tied rateLimitPolicyIsValid builtin target policyTarget)) := by
  have hall : ∀ policy : Option RateLimitPolicy, policy.filter (fun _ => true) = policy := by
    rintro (_ | _) <;> rfl
  refine ⟨by simpa only [hall] using filter_lookupPolicy_perm_iff (fun _ => true) hkeys, ?_⟩
  by_cases hlisted : Unlisted table target policyTarget
  · have htied : ¬ Tied rateLimitPolicyIsValid table target policyTarget := by
      rw [← filter_lookupPolicy_perm_iff _ hkeys]
      intro table' hperm
      rw [lookupPolicy_eq_none_iff.mpr hlisted,
        lookupPolicy_eq_none_iff.mpr ((Unlisted.perm hperm).mp hlisted)]
    rw [← filter_lookupPolicy_perm_iff _ hkeys']
    constructor
    · intro h
      refine ⟨htied, fun _ builtin' hperm => ?_⟩
      rw [← hlisted.resolvePerUserPolicy, ← hlisted.resolvePerUserPolicy, h _ _ (Perm.refl _) hperm]
    · rintro ⟨-, h⟩ table' builtin' hperm hperm'
      rw [((Unlisted.perm hperm).mp hlisted).resolvePerUserPolicy, hlisted.resolvePerUserPolicy,
        h hlisted _ hperm']
  · rw [← filter_lookupPolicy_perm_iff _ hkeys]
    constructor
    · intro h
      refine ⟨fun table' hperm => ?_, fun hnone => absurd hnone hlisted⟩
      rw [← resolvePerUserPolicy_of_listed (mt (Unlisted.perm hperm).mpr hlisted),
        ← resolvePerUserPolicy_of_listed hlisted, h _ builtin hperm (Perm.refl _)]
    · rintro ⟨h, -⟩ table' builtin' hperm -
      rw [resolvePerUserPolicy_of_listed (mt (Unlisted.perm hperm).mpr hlisted),
        resolvePerUserPolicy_of_listed hlisted, h _ hperm]

/-- Two limits for what is under `rooms`, one for the template and one for the paths. -/
def roomLimits : List (Str × RateLimitPolicy) :=
  [("/_matrix/client/v3/rooms/\x7b", ⟨600, 60⟩), ("/_matrix/client/v3/rooms/!", ⟨5, 60⟩)]

theorem lookupPolicy_order_independent_path :
    ¬ Tied (fun _ => true) roomLimits "/_matrix/client/v3/rooms/!a:b/send" [] ∧
    lookupPolicy roomLimits.reverse "/_matrix/client/v3/rooms/!a:b/send" [] =
      lookupPolicy roomLimits "/_matrix/client/v3/rooms/!a:b/send" [] := by
  have hkeys : (roomLimits.map Prod.fst).Nodup := by decide
  have htied : ¬ Tied (fun _ => true) roomLimits "/_matrix/client/v3/rooms/!a:b/send" [] := by
    rintro ⟨entry, other, ⟨hentry, hmatch, -⟩, ⟨hother, hmatch', -⟩, hne⟩
    -- only the second key matches
    have hkey : ∀ entry ∈ roomLimits, keyMatches "/_matrix/client/v3/rooms/!a:b/send" [] entry.1 →
        entry.1 = lit "/_matrix/client/v3/rooms/!" := by decide
    have hsame : entry = other := inj_on_of_nodup_map hkeys hentry hother
      ((hkey entry hentry hmatch).trans (hkey other hother hmatch').symm)
    exact hne (congrArg (fun entry => (some entry.2).filter fun _ => true) hsame)
  exact ⟨htied, (lookupPolicy_order_independent hkeys hkeys).1.mpr htied _
    (reverse_perm roomLimits).symm⟩

/-- The same table, visited in two orders, gives a request two limits. -/
theorem lookupPolicy_depends_on_order : roomLimits.Perm roomLimits.reverse ∧
    (roomLimits.map Prod.fst).Nodup ∧
    (resolvePerUserPolicy roomLimits [] "/_matrix/client/v3/rooms/\x7broomId\x7d/send"
      "/_matrix/client/v3/rooms/!a:b/send").map RateLimitPolicy.maxRequests = some 600 ∧
    (resolvePerUserPolicy roomLimits.reverse [] "/_matrix/client/v3/rooms/\x7broomId\x7d/send"
      "/_matrix/client/v3/rooms/!a:b/send").map RateLimitPolicy.maxRequests = some 5 :=
  ⟨(reverse_perm roomLimits).symm, by decide, by decide, by decide⟩

end Merovingian
