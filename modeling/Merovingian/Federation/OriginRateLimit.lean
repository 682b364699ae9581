import Merovingian.Lib.Bytes

/-!
# Rate limits of an origin

The model of `check_federation_origin_rate_limit` and `check_federation_origin_request_rate` of
`federation/inbound_request.cpp` over the bucket of one origin.

A decision about nothing carries no count, so an accepted transaction without PDUs sets the PDU
counter to zero in the middle of its window, and more PDUs than the limit get in
(`emptyTransaction_resets`); likewise for EDUs.  Otherwise no limit is exceeded
(`accepted_within_limits`).
-/

namespace Merovingian

open List

/-! ### The checks -/

structure RateLimitPolicy where
  maxRequests : UInt32
  windowSeconds : UInt32

def rateLimitPolicyIsValid (policy : RateLimitPolicy) : Bool :=
  0 < policy.maxRequests && 0 < policy.windowSeconds && policy.windowSeconds ≤ 3600

/-- The counters of a bucket, each with a policy: `transactions_seen` is checked against
`per_origin_transaction_rate`, and so on. -/
inductive RateCounter where
  | transactions
  | pdus
  | edus
  | requests

/-- A counter with the start of its window: a reading of the clock in nanoseconds, `0` for none. -/
structure RateWindow where
  seen : UInt32 := 0
  windowStart : ℤ := 0

structure FederationRateLimitDecision where
  allowed : Bool := true
  reason : Str := []
  maxRequests : UInt32 := 0
  windowSeconds : UInt32 := 0
  requestsSeen : UInt32 := 0
  weight : UInt32 := 0

/-- There is no window, or it is over. -/
def windowIsOver (windowStart : ℤ) (policy : RateLimitPolicy) (now : ℤ) : Bool :=
  windowStart = 0 || policy.windowSeconds.toNat * 1000000000 ≤ now - windowStart

/-- The reset of a counter whose window is over. -/
def RateWindow.rolled (window : RateWindow) (policy : RateLimitPolicy) (now : ℤ) : RateWindow :=
  if windowIsOver window.windowStart policy now then ⟨0, now⟩ else window

def prepareWeightedBucket (window : RateWindow) (policy : RateLimitPolicy) (weight : UInt32)
    (now : ℤ) (reason : Str) : FederationRateLimitDecision :=
  if weight = 0 then { allowed := true }
  else if !rateLimitPolicyIsValid policy then
    { allowed := false, reason := "invalid federation rate-limit policy" }
  else
    let count := if windowIsOver window.windowStart policy now then 0 else window.seen
    if policy.maxRequests < weight || policy.maxRequests - weight < count then
      ⟨false, reason, policy.maxRequests, policy.windowSeconds, count, weight⟩
    else ⟨true, [], policy.maxRequests, policy.windowSeconds, count + weight, weight⟩

/-- The cast of a count to a weight. -/
def countWeight (count : ℕ) : UInt32 := .ofNat (min count 4294967295)

section Checks

variable (config : RateCounter → RateLimitPolicy) (bucket : RateCounter → RateWindow)

def checkFederationOriginRateLimit (pduCount eduCount : ℕ) (now : ℤ) :
    FederationRateLimitDecision × (RateCounter → RateWindow) :=
  let rolled counter := (bucket counter).rolled (config counter) now
  let prepare counter weight reason :=
    prepareWeightedBucket (rolled counter) (config counter) weight now reason
  let transaction := prepare .transactions 1 "remote transaction rate limit exceeded"
  if !transaction.allowed then (transaction, bucket) else
  let pdu := prepare .pdus (countWeight pduCount) "remote PDU rate limit exceeded"
  if !pdu.allowed then (pdu, bucket) else
  let edu := prepare .edus (countWeight eduCount) "remote EDU rate limit exceeded"
  if !edu.allowed then (edu, bucket) else
  (⟨true, [], (config .transactions).maxRequests, (config .transactions).windowSeconds,
      transaction.requestsSeen, 1⟩, fun
    | .transactions => ⟨transaction.requestsSeen, (rolled .transactions).windowStart⟩
    | .pdus => ⟨pdu.requestsSeen, (rolled .pdus).windowStart⟩
    | .edus => ⟨edu.requestsSeen, (rolled .edus).windowStart⟩
    | .requests => bucket .requests)

def checkFederationOriginRequestRate (now : ℤ) :
    FederationRateLimitDecision × (RateCounter → RateWindow) :=
  let policy := config .requests
  if !rateLimitPolicyIsValid policy then
    ({ allowed := false, reason := "invalid federation rate-limit policy" }, bucket) else
  let ⟨count, windowStart⟩ := (bucket .requests).rolled policy now
  if policy.maxRequests ≤ count then
    (⟨false, "remote non-transaction request rate limit exceeded", policy.maxRequests,
      policy.windowSeconds, count, 1⟩, bucket)
  else
    (⟨true, [], policy.maxRequests, policy.windowSeconds, count + 1, 1⟩, fun
      | .requests => ⟨count + 1, windowStart⟩
      | counter => bucket counter)

/-- A request of the origin at a time: a transaction with its PDUs and EDUs, or another one. -/
structure InboundCall where
  now : ℤ
  transaction : Option (ℕ × ℕ) := none

/-- The check of a request. -/
def InboundCall.check (call : InboundCall) :
    FederationRateLimitDecision × (RateCounter → RateWindow) :=
  match call.transaction with
  | some counts => checkFederationOriginRateLimit config bucket counts.1 counts.2 call.now
  | none => checkFederationOriginRequestRate config bucket call.now

end Checks

/-- What a request adds to a counter, if it is charged to it. -/
def InboundCall.count (call : InboundCall) : RateCounter → Option ℕ
  | .transactions => call.transaction.map fun _ => 1
  | .pdus => call.transaction.map Prod.fst
  | .edus => call.transaction.map Prod.snd
  | .requests => if call.transaction.isNone then some 1 else none

/-- What the accepted requests of a run add to a counter, each with the start of its window. -/
def charged (config : RateCounter → RateLimitPolicy) (counter : RateCounter) :
    (RateCounter → RateWindow) → List InboundCall → List (ℤ × ℕ)
  | _, [] => []
  | bucket, call :: calls =>
    let (decision, bucket') := call.check config bucket
    (if decision.allowed then
      ((call.count counter).map fun count => ((bucket' counter).windowStart, count)).toList
    else []) ++ charged config counter bucket' calls

/-- What is added in a window. -/
def spent (ledger : List (ℤ × ℕ)) (start : ℤ) : ℕ :=
  (ledger.map fun entry => if entry.1 = start then entry.2 else 0).sum

/-- Along a run, what an accepted request adds to a counter fits it, and is nothing only while the
counter shows nothing. -/
def Fits (config : RateCounter → RateLimitPolicy) (counter : RateCounter) :
    (RateCounter → RateWindow) → List InboundCall → Prop
  | _, [] => True
  | bucket, call :: calls =>
    ((call.check config bucket).1.allowed = true → ∀ count, call.count counter = some count →
      count < 4294967296 ∧
        (count = 0 → ((bucket counter).rolled (config counter) call.now).seen = 0)) ∧
    Fits config counter (call.check config bucket).2 calls

/-! ### One counter -/

/-- A counter covers what was added in its window, and no window got too much.  Without a length
of the window nothing is ever added. -/
structure Metered (policy : RateLimitPolicy) (window : RateWindow) (ledger : List (ℤ × ℕ)) :
    Prop where
  start : ∀ entry ∈ ledger, entry.1 ≤ window.windowStart
  seen : spent ledger window.windowStart ≤ window.seen.toNat
  bound : ∀ start, spent ledger start ≤ policy.maxRequests.toNat
  length : 0 < policy.windowSeconds.toNat ∨ window.seen = 0

section Counter

variable {policy : RateLimitPolicy} {now : ℤ} {window window' : RateWindow} {count : ℕ}
  {ledger : List (ℤ × ℕ)}

/-- A counter after an accepted request that adds to it. -/
def Charges (policy : RateLimitPolicy) (window : RateWindow) (count : ℕ) (window' : RateWindow) :
    Prop :=
  (0 < policy.windowSeconds.toNat ∨ window'.seen = 0) ∧
    window'.seen.toNat ≤ policy.maxRequests.toNat ∧ window'.windowStart = window.windowStart ∧
    window'.seen.toNat = window.seen.toNat + count

lemma Metered.charge (h : Metered policy window ledger) (hnow : 0 < now)
    (hcharges : Charges policy (window.rolled policy now) count window') :
    Metered policy window' (ledger ++ [(window'.windowStart, count)]) := by
  obtain ⟨hlength, hmax, hstart, hseen⟩ := hcharges
  have hspent : ∀ start, spent (ledger ++ [(window'.windowStart, count)]) start =
      spent ledger start + if window'.windowStart = start then count else 0 := fun start => by
    simp [spent]
  -- a window that is begun starts later than every old one
  have hwindow : window.windowStart ≤ window'.windowStart ∧
      spent ledger window'.windowStart ≤ (window.rolled policy now).seen.toNat := by
    rw [hstart, RateWindow.rolled]
    split
    · next hover =>
      simp only [windowIsOver, Bool.or_eq_true, decide_eq_true_eq] at hover
      rcases (show window.windowStart ≤ now by omega).eq_or_lt with heq | hlt
      · -- only a window without length is over at once
        refine ⟨heq.le, heq ▸ h.seen.trans ?_⟩
        rw [h.length.resolve_left (by omega)]
      · refine ⟨hlt.le, (sum_eq_zero fun n hn => ?_).le⟩
        obtain ⟨entry, hentry, rfl⟩ := mem_map.mp hn
        exact if_neg ((h.start entry hentry).trans_lt hlt).ne
    · exact ⟨le_rfl, h.seen⟩
  have hnew := hspent window'.windowStart
  rw [if_pos rfl] at hnew
  refine ⟨?_, by omega, fun start => ?_, hlength⟩
  · exact forall_mem_append.mpr ⟨fun entry hentry => (h.start entry hentry).trans hwindow.1,
      forall_mem_singleton.mpr le_rfl⟩
  · by_cases heq : window'.windowStart = start
    · subst heq
      omega
    · rw [hspent, if_neg heq]
      exact h.bound start

lemma charges_prepareWeightedBucket {reason : Str} {rolled : RateWindow}
    {decision : FederationRateLimitDecision} (hrolled : window.rolled policy now = rolled)
    (hcount : count < 4294967296 ∧ (count = 0 → rolled.seen = 0))
    (h : prepareWeightedBucket rolled policy (countWeight count) now reason = decision)
    (hallowed : decision.allowed = true) :
    Charges policy rolled count ⟨decision.requestsSeen, rolled.windowStart⟩ := by
  have hweight : (countWeight count).toNat = count := by
    rw [countWeight, UInt32.toNat_ofNat']
    omega
  by_cases hzero : countWeight count = 0
  · -- nothing is charged, and nothing was
    rw [hzero, UInt32.toNat_zero] at hweight
    rw [prepareWeightedBucket, if_pos hzero] at h
    subst h
    exact ⟨.inr rfl, by simp, rfl, by simp [hcount.2 hweight.symm, ← hweight]⟩
  -- the counter of a window that is begun is zero already
  have hseen : (if windowIsOver rolled.windowStart policy now then 0 else rolled.seen) =
      rolled.seen := by
    rw [← hrolled, RateWindow.rolled]
    split_ifs <;> simp_all
  simp only [prepareWeightedBucket, if_neg hzero, hseen] at h
  split_ifs at h with hvalid hfull <;> subst h
  · cases hallowed
  · cases hallowed
  · simp [rateLimitPolicyIsValid, UInt32.le_iff_toNat_le] at hvalid hfull
    have hsub := UInt32.toNat_sub_of_le policy.maxRequests (countWeight count)
      (UInt32.le_iff_toNat_le.mpr hfull.1)
    have hadd := UInt32.toNat_add rolled.seen (countWeight count)
    have hmax := policy.maxRequests.toNat_lt
    refine ⟨.inl (by omega), ?_, rfl, ?_⟩ <;> dsimp only <;> omega

end Counter

/-! ### Runs -/

section Runs

variable {config : RateCounter → RateLimitPolicy} {bucket : RateCounter → RateWindow}
  {call : InboundCall} {counter : RateCounter} {count : ℕ}

lemma InboundCall.check_refused (h : (call.check config bucket).1.allowed = false) :
    (call.check config bucket).2 = bucket := by
  obtain ⟨now, _ | counts⟩ := call
  · simp only [check, checkFederationOriginRequestRate] at h ⊢
    split_ifs at h ⊢ <;> rfl
  · simp only [check, checkFederationOriginRateLimit] at h ⊢
    split_ifs at h ⊢ <;> rfl

lemma InboundCall.check_uncounted (h : call.count counter = none) :
    (call.check config bucket).2 counter = bucket counter := by
  obtain ⟨now, _ | counts⟩ := call <;> cases counter <;> cases h
  iterate 3
    simp only [check, checkFederationOriginRequestRate]
    split_ifs <;> rfl
  simp only [check, checkFederationOriginRateLimit]
  split_ifs <;> rfl

lemma InboundCall.charges_check (h : (call.check config bucket).1.allowed = true)
    (hcount : call.count counter = some count) (hfits : count < 4294967296 ∧
      (count = 0 → ((bucket counter).rolled (config counter) call.now).seen = 0)) :
    Charges (config counter) ((bucket counter).rolled (config counter) call.now) count
      ((call.check config bucket).2 counter) := by
  obtain ⟨now, _ | counts⟩ := call
  · cases counter <;> cases hcount
    simp only [check, checkFederationOriginRequestRate] at h ⊢
    split_ifs at h ⊢ with hvalid hmax
    simp [rateLimitPolicyIsValid, UInt32.le_iff_toNat_le] at hvalid hmax
    have hadd := UInt32.toNat_add ((bucket .requests).rolled (config .requests) now).seen 1
    have hlt := (config .requests).maxRequests.toNat_lt
    rw [UInt32.toNat_one] at hadd
    refine ⟨.inl (by omega), ?_, rfl, ?_⟩ <;> dsimp only <;> omega
  · simp only [check, checkFederationOriginRateLimit] at h ⊢
    split_ifs at h ⊢ with htransaction hpdu hedu
    all_goals simp_all
    cases counter <;> cases hcount
    · exact charges_prepareWeightedBucket rfl hfits rfl htransaction
    · exact charges_prepareWeightedBucket rfl hfits rfl hpdu
    · exact charges_prepareWeightedBucket rfl hfits rfl hedu

lemma Metered.run {calls : List InboundCall} {ledger : List (ℤ × ℕ)}
    (hclock : ∀ call ∈ calls, 0 < call.now) (hfits : Fits config counter bucket calls)
    (h : Metered (config counter) (bucket counter) ledger) (start : ℤ) :
    spent (ledger ++ charged config counter bucket calls) start ≤
      (config counter).maxRequests.toNat := by
  induction calls generalizing bucket ledger with
  | nil => simpa [charged] using h.bound start
  | cons call calls ih =>
    obtain ⟨hnow, hclock⟩ := forall_mem_cons.mp hclock
    obtain ⟨hfit, hfits⟩ := hfits
    rw [charged, ← append_assoc]
    refine ih hclock hfits ?_
    cases hallowed : (call.check config bucket).1.allowed with
    | false => simpa [call.check_refused hallowed] using h
    | true =>
      cases hcount : call.count counter with
      | none => simpa [call.check_uncounted hcount] using h
      | some count =>
        simpa using h.charge hnow (call.charges_check hallowed hcount (hfit hallowed _ hcount))

end Runs

/-- Whatever an origin sends while the clock does not show its epoch, a refusal changes nothing, and
in no window is more accepted than a counter's limit, provided that what is charged to it fits.  A
transaction or request counts as one, always. -/
theorem accepted_within_limits (config : RateCounter → RateLimitPolicy) (calls : List InboundCall)
    (hclock : ∀ call ∈ calls, 0 < call.now) :
    (∀ bucket, ∀ call : InboundCall, (call.check config bucket).1.allowed = false →
      (call.check config bucket).2 = bucket) ∧
    ∀ counter, Fits config counter (fun _ => {}) calls →
      ∀ start, spent (charged config counter (fun _ => {}) calls) start ≤
        (config counter).maxRequests.toNat := by
  refine ⟨fun bucket call h => call.check_refused h, fun counter hfits start => ?_⟩
  exact @Metered.run config (fun _ => {}) counter calls [] hclock hfits
    ⟨by simp, by simp [spent], by simp [spent], .inr rfl⟩ start

/-- One PDU a minute, and ten of everything else. -/
def onePdu : RateCounter → RateLimitPolicy
  | .pdus => ⟨1, 60⟩
  | _ => ⟨10, 60⟩

/-- The first transaction has no PDU, and the third is refused. -/
theorem accepted_within_limits_onePdu :
    let calls := [⟨1, some (0, 1)⟩, ⟨2, some (1, 0)⟩, ⟨3, some (1, 2)⟩, ⟨60000000002, some (1, 0)⟩,
      ⟨60000000003, none⟩]
    charged onePdu .pdus (fun _ => {}) calls = [(1, 0), (1, 1), (60000000002, 1)] ∧
      ∀ start, spent (charged onePdu .pdus (fun _ => {}) calls) start ≤ 1 := by
  refine ⟨by decide, (accepted_within_limits onePdu _ (by simp)).2 .pdus ?_⟩
  simp [Fits, InboundCall.count]
  decide

/-- A transaction without PDUs between two with one each: all three are accepted in one window. -/
theorem emptyTransaction_resets :
    let calls := [⟨1, some (1, 0)⟩, ⟨2, some (0, 0)⟩, ⟨3, some (1, 0)⟩]
    charged onePdu .pdus (fun _ => {}) calls = [(1, 1), (1, 0), (1, 1)] ∧
      (onePdu .pdus).maxRequests.toNat < spent (charged onePdu .pdus (fun _ => {}) calls) 1 := by
  decide

end Merovingian
