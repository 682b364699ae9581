import Merovingian.Database.KeyMirrors
import Merovingian.Lib.Run
import Mathlib.Data.UInt

/-!
# Key retirement is irreversible

For every run of calls by any processes, and every server and key id: the table has the earliest
expiry that was written, whatever the order (`RetiredEarliest`); an expiry is never cleared or
raised and a retired row keeps its public key, in the table and in the mirrors (`Irreversible`); a
mirror row that equals the table keeps doing so, and a row that holds a secret keeps its public key
unless a secret is written (`SafeCall`).

The expiries are below `2 ^ 63`, as `cache_remote_server_keys` ensures by capping them at the time
of the fetch (`expiredTs_remoteKeyWrites`); beyond, SQLite's cast does not tell them apart.
-/

namespace Merovingian

open PersistentServerSigningKey Option SigningKeyCall Function

variable {key : PersistentServerSigningKey} {fetchedAtMs : UInt64}

namespace SigningKeySystem

variable {P : Type} [DecidableEq P] {backend : SqlBackend} {system system' : SigningKeySystem P}
  {calls : List (SigningKeyCall P × Bool)} {slot : Str × Str} {held : PersistentServerSigningKey}

/-! ### Runs -/

/-- What holds for one server and key id after the calls made so far. -/
structure RetiredEarliest (slot : Str × Str) (calls : List (SigningKeyCall P × Bool))
    (system : SigningKeySystem P) : Prop where
  /-- The table has the earliest expiry that was written. -/
  earliest : system.expiryOf slot = (SigningKeyCall.expiriesWritten slot calls).foldl min ⊤
  /-- No mirror has an earlier one. -/
  mirrors : ∀ process held, system.heldBy process slot = some held →
    system.expiryOf slot ≤ held.expiry
  /-- A retired row is valid until it expired. -/
  tableValid : ∀ row, system.rowOf slot = some row → row.expiredTs ≠ [] →
    row.validUntilTs = row.expiredTs
  mirrorValid : ∀ process held, system.heldBy process slot = some held → held.expiredTs ≠ 0 →
    held.validUntilTs = held.expiredTs

/-- What holds for one server and key id between two states of a run. -/
structure Irreversible (slot : Str × Str) (system : SigningKeySystem P)
    (calls : List (SigningKeyCall P × Bool)) (later : SigningKeySystem P) : Prop where
  /-- An expiry of the table is never cleared or raised, and a retired row keeps its key. -/
  table : ∀ row, system.rowOf slot = some row →
    ∃ row', later.rowOf slot = some row' ∧ row.key.Keeps row'.key
  /-- The same holds of a mirror, as long as its process runs. -/
  mirrors : ∀ process, (∀ call ∈ calls, ¬ call.1.Starts process) → ∀ held,
    system.heldBy process slot = some held →
      ∃ held', later.heldBy process slot = some held' ∧ held.Keeps held'

/-- The call wrote a row with a secret for the server and key id. -/
def WritesSecret (slot : Str × Str) (call : SigningKeyCall P × Bool) : Prop :=
  ∃ key, SigningKeyCall.written slot call = some key ∧ key.secretKey ≠ []

/-- What holds for one server and key id of a call. -/
structure SafeCall (slot : Str × Str) (system : SigningKeySystem P)
    (call : SigningKeyCall P × Bool) (system' : SigningKeySystem P) : Prop where
  /-- A mirror that was loaded in full equals the table. -/
  started : ∀ process, call.1 = .start process true → system'.InStep process slot
  /-- The mirror of the process that calls equals the table if it did before. -/
  inStep : ¬ call.1.Starts call.1.process → system.InStep call.1.process slot →
    system'.InStep call.1.process slot
  /-- After a refresh a mirror row without a secret has the expiry of the table. -/
  refreshed : ∀ process, call = (.refresh process slot.1 true, true) → ∀ held,
    system'.heldBy process slot = some held → held.secretKey = [] →
      held.expiry = system'.expiryOf slot
  /-- The public key of a mirror row with a secret changes only by a write with a secret. -/
  mirrorSecret : ∀ process held, ¬ call.1.Starts process →
    system.heldBy process slot = some held → held.secretKey ≠ [] →
      ∃ held', system'.heldBy process slot = some held' ∧
        (held'.publicKey = held.publicKey ∨ WritesSecret slot call)
  /-- So does that of a row of the table, if the mirror of the process that writes equals it. -/
  tableSecret : system.InStep call.1.process slot → ∀ row row', system.rowOf slot = some row →
    row.secretKey ≠ [] → system'.rowOf slot = some row' →
      row'.publicKey = row.publicKey ∨ WritesSecret slot call

section Run

variable (h : Sound system) (hcalls : ∀ call ∈ calls, call.1.Bounded)
  (hrun : Run (Step backend) system calls system')

include h hcalls hrun

lemma Sound.run : Sound system' :=
  hrun.invariant Sound (fun call => call.1.Bounded) (fun hbounded hstep h => h.step hbounded hstep)
    hcalls h

lemma Sound.expiryOf_run (slot : Str × Str) : system'.expiryOf slot =
    (expiriesWritten slot calls).foldl min (system.expiryOf slot) := by
  induction hrun with
  | nil => rfl
  | @cons s t u call calls hstep _ ih =>
    obtain ⟨hbounded, hcalls⟩ := List.forall_mem_cons.mp hcalls
    rw [ih (h.step hbounded hstep) hcalls, h.expiryOf_step hbounded hstep, expiriesWritten,
      expiriesWritten, List.filterMap_cons]
    cases written slot call with
    | none => simp
    | some key => simp

lemma Sound.irreversible (slot : Str × Str) : Irreversible slot system calls system' := by
  induction hrun with
  | nil => exact ⟨fun row hrow => ⟨row, hrow, .refl _⟩, fun _ _ held hheld => ⟨held, hheld, .refl _⟩⟩
  | @cons s t u call calls hstep _ ih =>
    obtain ⟨hbounded, hcalls⟩ := List.forall_mem_cons.mp hcalls
    have hrest := ih (h.step hbounded hstep) hcalls
    constructor
    · intro row hrow
      obtain ⟨row', hrow', hkeeps⟩ := h.keeps_row hbounded hstep hrow
      obtain ⟨row'', hrow'', hkeeps'⟩ := hrest.table row' hrow'
      exact ⟨row'', hrow'', hkeeps.trans hkeeps'⟩
    · intro process hstarts held hheld
      obtain ⟨hstart, hstarts⟩ := List.forall_mem_cons.mp hstarts
      obtain ⟨held', hheld', hkeeps⟩ := h.keeps_held hbounded hstep hstart hheld
      obtain ⟨held'', hheld'', hkeeps'⟩ := hrest.mirrors process hstarts held' hheld'
      exact ⟨held'', hheld'', hkeeps.trans hkeeps'⟩

end Run

omit [DecidableEq P] in
lemma Sound.retiredEarliest (h : Sound system)
    (hexpiry : system.expiryOf slot = (expiriesWritten slot calls).foldl min ⊤) :
    RetiredEarliest slot calls system where
  earliest := hexpiry
  mirrors process held hheld := (h.held process slot held hheld).2.2
  tableValid row hrow hexpired := by
    obtain ⟨key, rfl, hkey, -⟩ := h.row hrow
    have hne : key.expiredTs ≠ 0 := mt expiryText_eq_nil.mpr hexpired
    show timeText key.validUntilTs = expiryText key.expiredTs
    rw [hkey.valid hne, expiryText_of_ne hne]
  mirrorValid process held hheld := (h.held process slot held hheld).1.valid

/-- A row without a secret that the guard lets through has the public key of a row with one, and
is not retired. -/
lemma eq_of_not_refused (hrefused : key.refusedBy held = false) (hsecret : held.secretKey ≠ []) :
    held.publicKey = key.publicKey ∧ key.expiredTs = 0 := by
  simpa [refusedBy, hsecret] using hrefused

lemma publicKey_mergeWithSecret
    (hguard : key.secretKey = [] → key.refusedBy held = false) (hsecret : held.secretKey ≠ []) :
    (key.mergeWithSecret held).publicKey = held.publicKey ∨ key.secretKey ≠ [] := by
  by_cases hkey : key.secretKey = []
  · left
    show (if held.expiredTs = 0 then key.publicKey else held.publicKey) = held.publicKey
    split_ifs
    · exact (eq_of_not_refused (hguard hkey) hsecret).1.symm
    · rfl
  · exact .inr hkey

section Call

variable {call : SigningKeyCall P × Bool} (h : Sound system) (hbounded : call.1.Bounded)
  (hstep : Step backend system call system') {process : P}

include h hbounded hstep

omit hbounded hstep [DecidableEq P] in
lemma Sound.columns_key (slot : Str × Str) :
    (system.rowOf slot).map (fun row => row.key.columns) = system.rowOf slot := by
  cases hrow : system.rowOf slot with
  | none => rfl
  | some row =>
    obtain ⟨key, rfl, -⟩ := h.row hrow
    rw [map_some, key_columns]

lemma Sound.inStep_start (hcall : call.1 = .start process true) (slot : Str × Str) :
    system'.InStep process slot := by
  have hstarts : call.1.Starts process := hcall ▸ rfl
  have hwritten := hstarts.written_eq_none slot
  rw [InStep, heldBy_start hbounded hstep hcall, h.rowOf_step hbounded hstep slot, hwritten,
    map_map]
  exact (h.columns_key slot).symm

lemma Sound.inStep_step (hprocess : call.1.process = process) (hstart : ¬ call.1.Starts process)
    (hin : system.InStep process slot) : system'.InStep process slot := by
  have hrow := h.rowOf_step hbounded hstep slot
  rw [InStep] at hin ⊢
  rcases h.heldBy_step hbounded hstep hstart slot with ⟨heq, hnone⟩ |
    ⟨key, hwritten, -, -, heq⟩ | ⟨row, hread, hwritten, -, heq⟩
  · rw [hnone hprocess] at hrow
    rw [hrow, heq]
    exact hin
  · rw [hwritten] at hrow
    rw [hrow, heq, hin]
    cases system.heldBy process slot with
    | none => rfl
    | some held => simp
  · -- what is read is what the mirror holds
    rw [hwritten] at hrow
    rw [hrow, heq, hin]
    rw [hread] at hin
    obtain ⟨held, hheld, rfl⟩ := map_eq_some_iff.mp hin.symm
    have hwell := (h.held process slot held hheld).1
    rw [hheld, elim_some, merge_publicColumns hwell, ite_self]

lemma Sound.refreshed (hcall : call = (.refresh process slot.1 true, true))
    (hheld : system'.heldBy process slot = some held) (hsecret : held.secretKey = []) :
    held.expiry = system'.expiryOf slot := by
  have hexpiry : system'.expiryOf slot = system.expiryOf slot := by
    rw [h.expiryOf_step hbounded hstep slot, hcall]
    exact min_top_right _
  rw [heldBy_refresh h.nodup (hcall ▸ hstep)] at hheld
  cases hrow : system.rowOf slot with
  | none =>
    rw [hrow] at hheld
    have hsome := (h.held process slot held hheld).2.1
    rw [hrow] at hsome
    exact absurd hsome Bool.false_ne_true
  | some row =>
    have hserver : (some row).filter (fun row => decide (row.serverName = slot.1)) = some row := by
      have hkey : row.slot = slot := key_of_lookupBy hrow
      exact filter_eq_some_iff.mpr ⟨rfl, decide_eq_true (congrArg Prod.fst hkey)⟩
    have hread : row.publicColumns.expiry = system.expiryOf slot := (h.loaded false hrow).2
    rw [hrow, hserver, elim_some] at hheld
    rw [hexpiry]
    cases hbefore : system.heldBy process slot with
    | none =>
      rw [hbefore] at hheld
      rw [← some.inj hheld]
      exact hread
    | some old =>
      rw [hbefore, elim_some] at hheld
      cases hheld
      split_ifs at hsecret ⊢ with hold
      · rw [expiry_merge, hread]
        exact min_eq_right (h.held process slot old hbefore).2.2
      · exact absurd hsecret hold

lemma Sound.mirrorSecret (hstart : ¬ call.1.Starts process)
    (hheld : system.heldBy process slot = some held) (hsecret : held.secretKey ≠ []) :
    ∃ held', system'.heldBy process slot = some held' ∧
      (held'.publicKey = held.publicKey ∨ WritesSecret slot call) := by
  rcases h.heldBy_step hbounded hstep hstart slot with ⟨heq, -⟩ | ⟨key, hwritten, -, hguard, heq⟩ |
    ⟨row, -, -, -, heq⟩
  · exact ⟨held, heq.trans hheld, .inl rfl⟩
  · rw [hheld] at heq
    exact ⟨_, heq, (publicKey_mergeWithSecret (fun hkey => hguard hkey held hheld) hsecret).imp_right
      fun hkey => ⟨key, hwritten, hkey⟩⟩
  · rw [hheld, elim_some, if_neg hsecret] at heq
    exact ⟨held, heq, .inl rfl⟩

lemma Sound.tableSecret (hin : system.InStep call.1.process slot) {row row' : SigningKeyRow}
    (hrow : system.rowOf slot = some row) (hsecret : row.secretKey ≠ [])
    (hrow' : system'.rowOf slot = some row') :
    row'.publicKey = row.publicKey ∨ WritesSecret slot call := by
  rw [h.rowOf_step hbounded hstep slot] at hrow'
  cases hwritten : written slot call with
  | none =>
    rw [hwritten] at hrow'
    rw [some.inj (hrow.symm.trans hrow')]
    exact .inl rfl
  | some key =>
    rw [hwritten, hrow] at hrow'
    rw [InStep, hrow] at hin
    obtain ⟨held, hheld, rfl⟩ := map_eq_some_iff.mp hin.symm
    have hstart : ¬ call.1.Starts call.1.process := fun hstart =>
      absurd (hwritten.symm.trans (hstart.written_eq_none slot)) (by simp)
    rcases h.heldBy_step hbounded hstep hstart slot with ⟨-, hnone⟩ |
      ⟨key', hwritten', -, hguard, -⟩ | ⟨-, -, hnone, -⟩
    · exact absurd (hwritten.symm.trans (hnone rfl)) (by simp)
    · obtain rfl : key' = key := some.inj (hwritten'.symm.trans hwritten)
      simp only [elim_some, key_columns] at hrow'
      cases hrow'
      exact (publicKey_mergeWithSecret (fun hkey => hguard hkey held hheld) hsecret).imp_right
        fun hkey => ⟨key', hwritten, hkey⟩
    · exact absurd (hwritten.symm.trans hnone) (by simp)

lemma Sound.safeCall (slot : Str × Str) : SafeCall slot system call system' where
  started _ hcall := h.inStep_start hbounded hstep hcall slot
  inStep hstart hin := h.inStep_step hbounded hstep rfl hstart hin
  refreshed _ hcall _ hheld hsecret := h.refreshed hbounded hstep hcall hheld hsecret
  mirrorSecret _ _ hstart hheld hsecret := h.mirrorSecret hbounded hstep hstart hheld hsecret
  tableSecret hin _ _ hrow hsecret hrow' := h.tableSecret hbounded hstep hin hrow hsecret hrow'

end Call

/-- Retirement, for every server and key id and every run of calls of any processes from the empty
table: see `RetiredEarliest`, `Irreversible` and `SafeCall`. -/
theorem keyRetirement_safe {before during : List (SigningKeyCall P × Bool)}
    {call : SigningKeyCall P × Bool} {system later after : SigningKeySystem P}
    (hbounded : ∀ call' ∈ before ++ during ++ [call], call'.1.Bounded)
    (hbefore : Run (Step backend) {} before system)
    (hduring : Run (Step backend) system during later) (hcall : Step backend later call after)
    (slot : Str × Str) :
    RetiredEarliest slot (before ++ during) later ∧ Irreversible slot system during later ∧
      SafeCall slot later call after := by
  simp only [List.forall_mem_append, List.forall_mem_singleton] at hbounded
  obtain ⟨⟨hearlier, hlater⟩, hlast⟩ := hbounded
  have hsystem := Sound.empty.run hearlier hbefore
  have hsound := hsystem.run hlater hduring
  refine ⟨hsound.retiredEarliest ?_, hsystem.irreversible hlater hduring slot,
    hsound.safeCall hlast hcall slot⟩
  exact Sound.empty.expiryOf_run (List.forall_mem_append.mpr ⟨hearlier, hlater⟩)
    (hbefore.append hduring) slot

/-! ### A run of two writes -/

/-- A key that is written with an expiry. -/
def expiredKey (expiredTs : UInt64) : PersistentServerSigningKey where
  serverName := "s"
  keyId := "k"
  publicKey := "p"
  validUntilTs := 1
  expiredTs := expiredTs

/-- A key of this server. -/
def generatedKey : PersistentServerSigningKey where
  serverName := "s"
  keyId := "k"
  publicKey := "p"
  validUntilTs := 1
  secretKey := "x"

/-- A process that writes two expiries, the earlier one last. -/
def writesTwice (backend : SqlBackend) (first second : UInt64) : SigningKeySystem Unit :=
  (effect backend (effect backend {} (.store () (expiredKey first) true)).2
    (.store () (expiredKey second) true)).2

/-- Two expiries in the other order: the earlier one is in the table and in the mirror. -/
theorem keyRetirement_safe_twice :
    RetiredEarliest ("s", "k") [(.store () (expiredKey 9) true, true),
      (.store () (expiredKey 5) true, true)] (writesTwice .sqlite 9 5) := by
  have hrun : Run (Step .sqlite) {} [(.store () (expiredKey 9) true, true),
      (.store () (expiredKey 5) true, true)] (writesTwice .sqlite 9 5) :=
    .cons (Prod.ext (by decide) rfl) (.cons (Prod.ext (by decide) rfl) (.nil _))
  have hcall : Step .sqlite (writesTwice .sqlite 9 5) (.refresh () "s" false, false) _ :=
    Prod.ext (by decide) rfl
  refine (keyRetirement_safe (fun call' hmem => ?_) hrun (.nil _) hcall ("s", "k")).1
  simp only [List.cons_append, List.nil_append, List.mem_cons, List.not_mem_nil, or_false] at hmem
  rcases hmem with rfl | rfl | rfl
  · show (9 : UInt64).toNat < 2 ^ 63
    decide
  · show (5 : UInt64).toNat < 2 ^ 63
    decide
  · trivial

lemma run_foldl_store (backend : SqlBackend) (process : P) (mirror : P → List PersistentServerSigningKey)
    (commits : ℕ → Bool) (writes : List (PersistentServerSigningKey × ℕ)) (state : SigningKeyWrite) :
    ∃ calls, calls.map Prod.fst =
        (writes.map fun write => .store process write.1 (commits write.2)) ∧
      Run (Step backend) ⟨state.database, Function.update mirror process state.mirror⟩ calls
        ⟨(writes.foldl (cacheStep backend commits) state).database, Function.update mirror process
            (writes.foldl (cacheStep backend commits) state).mirror⟩ := by
  induction writes generalizing state with
  | nil => exact ⟨[], rfl, .nil _⟩
  | cons write writes ih =>
    obtain ⟨calls, hcalls, hrun⟩ := ih (cacheStep backend commits state write)
    refine ⟨(.store process write.1 (commits write.2), (storeServerSigningKey backend
      (commits write.2) write.1 state.database state.mirror).ok) :: calls, ?_, .cons ?_ hrun⟩
    · rw [List.map_cons, List.map_cons, hcalls]
    · simp only [Step, effect, update_self, update_idem]
      rfl

end SigningKeySystem

/-- The expiries that a response is cached with are at most the time of the fetch. -/
theorem expiredTs_remoteKeyWrites {response : RemoteKeyResponse}
    (hfetched : fetchedAtMs.toNat < 2 ^ 63)
    (hkey : key ∈ remoteKeyWrites response fetchedAtMs) : key.Bounded := by
  rw [remoteKeyWrites] at hkey
  split_ifs at hkey
  · cases hkey
  · rcases List.mem_append.mp hkey with hkey | hkey
    · obtain ⟨verifyKey, -, rfl⟩ := List.mem_map.mp hkey
      show (0 : UInt64).toNat < 2 ^ 63
      decide
    · obtain ⟨oldKey, -, rfl⟩ := List.mem_map.mp hkey
      rw [min_eq_ite]
      split_ifs with hlt
      · exact hfetched
      · exact lt_of_le_of_lt (Nat.not_lt.mp hlt) hfetched

/-- `cache_remote_server_keys` is the run of one write for each key of the response, in their order,
with expiries that `CAST` represents. -/
theorem run_cacheRemoteServerKeys {P : Type} [DecidableEq P] {backend : SqlBackend}
    (system : SigningKeySystem P) (process : P) (response : RemoteKeyResponse)
    (hfetched : fetchedAtMs.toNat < 2 ^ 63) (commits : ℕ → Bool) :
    ∃ calls, calls.map Prod.fst = ((remoteKeyWrites response fetchedAtMs).zipIdx.map fun write =>
        .store process write.1 (commits write.2)) ∧ (∀ call ∈ calls, call.1.Bounded) ∧
      Run (SigningKeySystem.Step backend) system calls
        ⟨(cacheRemoteServerKeys backend response fetchedAtMs commits system.database
            (system.mirror process)).database, Function.update system.mirror process
            (cacheRemoteServerKeys backend response fetchedAtMs commits system.database
              (system.mirror process)).mirror⟩ := by
  obtain ⟨calls, hcalls, hrun⟩ := SigningKeySystem.run_foldl_store backend process system.mirror
    commits (remoteKeyWrites response fetchedAtMs).zipIdx
    ⟨!(response.serverName = [] ∨ response.validUntilTs = 0 : Bool), system.database,
      system.mirror process⟩
  rw [update_eq_self] at hrun
  refine ⟨calls, hcalls, fun call hmem => ?_, hrun⟩
  obtain ⟨write, hwrite, hcall⟩ := List.mem_map.mp (hcalls ▸ List.mem_map_of_mem hmem)
  rw [← hcall]
  exact expiredTs_remoteKeyWrites hfetched (List.fst_mem_of_mem_zipIdx hwrite)

/-- A response with a key that its server has retired. -/
theorem run_cacheRemoteServerKeys_retired :
    ∃ (calls : List (SigningKeyCall Unit × Bool)) (system : _), calls.length = 1 ∧
      Run (SigningKeySystem.Step .sqlite) {} calls system ∧
      system.database.map SigningKeyRow.expiredTs = [lit "5"] := by
  obtain ⟨calls, hcalls, -, hrun⟩ := run_cacheRemoteServerKeys {} () ⟨"s", 9, [], [⟨"k", "p", 5⟩]⟩
    (show (7 : UInt64).toNat < 2 ^ 63 by decide) fun _ => true
  have hlength := congrArg List.length hcalls
  rw [List.length_map] at hlength
  exact ⟨calls, _, hlength.trans (by decide +kernel), hrun, by decide +kernel⟩

end Merovingian
