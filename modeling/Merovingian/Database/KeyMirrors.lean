import Merovingian.Database.SigningKeys

/-!
# Mirrors of the signing keys

Several processes share the table `server_signing_keys`, and each keeps a mirror of it that was
loaded when the process started.  A write goes to the table and to the mirror of the process that
makes it; a federation worker re-reads the rows of a server into its mirror.

An expiry is an element of `WithTop ℕ`, where `⊤` stands for a key that is not retired.  Every
write and every refresh then takes a minimum (`expiry_merge`), in the table and in the mirrors.
The steps are `Sound.rowOf_step` and `Sound.heldBy_step`.
-/

namespace Merovingian

open PersistentServerSigningKey Function List

namespace PersistentServerSigningKey

/-- When the key was retired. -/
def expiry (key : PersistentServerSigningKey) : WithTop ℕ :=
  if key.expiredTs = 0 then ⊤ else (key.expiredTs.toNat : WithTop ℕ)

/-- The expiry is one that `CAST` represents. -/
def Bounded (key : PersistentServerSigningKey) : Prop := key.expiredTs.toNat < 2 ^ 63

/-- A row of the table or of a mirror: a retired key is valid until it expired. -/
structure WellFormed (key : PersistentServerSigningKey) : Prop where
  bounded : key.Bounded
  valid : key.expiredTs ≠ 0 → key.validUntilTs = key.expiredTs

variable {written held key : PersistentServerSigningKey}

lemma expiredTs_merge : (written.merge held).expiredTs =
    earlier written.expiredTs held.expiredTs := rfl

lemma expiry_merge : (written.merge held).expiry = min held.expiry written.expiry := by
  simp only [expiry, expiredTs_merge, earlier]
  by_cases hw : written.expiredTs = 0
  · simp [hw]
  by_cases hh : held.expiredTs = 0
  · simp [hw, hh]
  have hne : min held.expiredTs written.expiredTs ≠ 0 := by
    rw [min_eq_ite]
    split_ifs
    exacts [hw, hh]
  simp only [hh, ne_eq, if_false]
  rw [min_eq_ite]
  split_ifs with hlt
  · exact (min_eq_right (Nat.cast_le.mpr hlt.le)).symm
  · exact (min_eq_left (Nat.cast_le.mpr (Nat.not_lt.mp hlt))).symm

lemma WellFormed.merge (hwritten : written.WellFormed) (hheld : held.WellFormed) :
    (written.merge held).WellFormed where
  bounded := by
    rw [Bounded, expiredTs_merge, earlier]
    split_ifs
    · exact hwritten.bounded
    · rw [min_eq_ite]
      split_ifs
      exacts [hwritten.bounded, hheld.bounded]
    · exact hheld.bounded
  valid h := if_pos h

lemma WellFormed.withSecret (h : key.WellFormed) (secret : Str) :
    WellFormed { key with secretKey := secret } := ⟨h.bounded, h.valid⟩

lemma Bounded.clamped (h : key.Bounded) : key.clamped.WellFormed := by
  rw [PersistentServerSigningKey.clamped]
  split_ifs with hexpired
  · exact ⟨h, fun _ => rfl⟩
  · exact ⟨h, fun hne => absurd hne hexpired⟩

@[simp] lemma slot_clamped : key.clamped.slot = key.slot := by
  unfold clamped
  split <;> rfl

@[simp] lemma secretKey_clamped : key.clamped.secretKey = key.secretKey := by
  unfold clamped
  split <;> rfl

lemma merge_publicColumns (h : key.WellFormed) : key.columns.publicColumns.merge key = key := by
  have hself : min key.expiredTs key.expiredTs = key.expiredTs := by
    rw [min_eq_ite, if_neg (Nat.lt_irrefl _)]
  rw [SigningKeyRow.publicColumns]
  obtain ⟨serverName, keyId, publicKey, validUntilTs, secretKey, expiredTs⟩ := key
  by_cases hzero : expiredTs = 0
  · simp [merge, hzero]
  · have hvalid : validUntilTs = expiredTs := h.valid hzero
    simp_all [merge]

lemma expiry_eq_top : key.expiry = ⊤ ↔ key.expiredTs = 0 := by
  rw [expiry]
  split_ifs with h
  · exact ⟨fun _ => h, fun _ => rfl⟩
  · exact ⟨fun htop => absurd htop (WithTop.natCast_ne_top _), fun hzero => absurd hzero h⟩

/-- How a row may change: it is retired no later than before, and once it is retired its public
key stays. -/
structure Keeps (key key' : PersistentServerSigningKey) : Prop where
  expiry_le : key'.expiry ≤ key.expiry
  publicKey_eq : key.expiredTs ≠ 0 → key'.publicKey = key.publicKey

lemma Keeps.refl (key : PersistentServerSigningKey) : key.Keeps key := ⟨le_rfl, fun _ => rfl⟩

lemma Keeps.expired {key' : PersistentServerSigningKey} (h : key.Keeps key')
    (hexpired : key.expiredTs ≠ 0) : key'.expiredTs ≠ 0 := by
  intro hzero
  have htop := h.expiry_le
  rw [expiry_eq_top.mpr hzero] at htop
  exact hexpired (expiry_eq_top.mp (top_le_iff.mp htop))

lemma Keeps.trans {key' key'' : PersistentServerSigningKey} (h : key.Keeps key')
    (h' : key'.Keeps key'') : key.Keeps key'' where
  expiry_le := h'.expiry_le.trans h.expiry_le
  publicKey_eq hexpired :=
    (h'.publicKey_eq (h.expired hexpired)).trans (h.publicKey_eq hexpired)

lemma Keeps.merge : held.Keeps (written.merge held) where
  expiry_le := expiry_merge ▸ min_le_left _ _
  publicKey_eq h := if_neg h

lemma Keeps.mergeWithSecret : held.Keeps (written.mergeWithSecret held) where
  expiry_le := Keeps.merge.expiry_le
  publicKey_eq := Keeps.merge.publicKey_eq

lemma expiry_mergeWithSecret :
    (written.mergeWithSecret held).expiry = min held.expiry written.expiry := expiry_merge

end PersistentServerSigningKey

/-! ### The processes -/

/-- The table and the mirrors of the processes. -/
structure SigningKeySystem (P : Type) where
  database : List SigningKeyRow := []
  mirror : P → List PersistentServerSigningKey := fun _ => []

/-- A call that a process makes.  At its start it loads the table, in full or without the
secrets. -/
inductive SigningKeyCall (P : Type)
  | start (process : P) (full : Bool)
  | store (process : P) (key : PersistentServerSigningKey) (commits : Bool)
  | refresh (process : P) (serverName : Str) (reads : Bool)

namespace SigningKeyCall

variable {P : Type}

/-- The process that makes the call. -/
def process : SigningKeyCall P → P
  | start process _ => process
  | store process _ _ => process
  | refresh process _ _ => process

/-- The call starts this process. -/
def Starts (process : P) : SigningKeyCall P → Prop
  | start other _ => other = process
  | _ => False

lemma Starts.exists_eq {process : P} {call : SigningKeyCall P} (h : call.Starts process) :
    ∃ full, call = .start process full := by
  cases call with
  | start other full =>
    obtain rfl : other = process := h
    exact ⟨full, rfl⟩
  | store => exact absurd h id
  | refresh => exact absurd h id

/-- An expiry that is written is one that `CAST` represents. -/
def Bounded : SigningKeyCall P → Prop
  | store _ key _ => key.Bounded
  | _ => True

/-- The row that a call wrote for a server and a key id. -/
def written (slot : Str × Str) : SigningKeyCall P × Bool → Option PersistentServerSigningKey
  | (store _ key _, true) => if key.slot = slot then some key.clamped else none
  | _ => none

lemma Starts.written_eq_none {process : P} {call : SigningKeyCall P × Bool}
    (h : call.1.Starts process) (slot : Str × Str) : written slot call = none := by
  obtain ⟨call, ok⟩ := call
  obtain ⟨full, rfl⟩ := h.exists_eq
  rfl

/-- The expiries that were written for a server and a key id. -/
def expiriesWritten (slot : Str × Str) (calls : List (SigningKeyCall P × Bool)) :
    List (WithTop ℕ) := calls.filterMap fun call => (written slot call).map expiry

end SigningKeyCall

open SigningKeyCall

namespace SigningKeySystem

variable {P : Type} [DecidableEq P] (backend : SqlBackend)

/-- What a call returns and what it leaves. -/
def effect (system : SigningKeySystem P) : SigningKeyCall P → Bool × SigningKeySystem P
  | .start process full =>
    let rows := system.database.map fun row => if full then row.key else row.publicColumns
    (true, { system with mirror := Function.update system.mirror process rows })
  | .store process key commits =>
    let write := storeServerSigningKey backend commits key system.database (system.mirror process)
    (write.ok, ⟨write.database, Function.update system.mirror process write.mirror⟩)
  | .refresh process serverName reads =>
    let write := refreshRemoteSigningKeys reads serverName system.database (system.mirror process)
    (write.ok, ⟨write.database, Function.update system.mirror process write.mirror⟩)

/-- A call as a step, labelled with what it returns. -/
def Step (system : SigningKeySystem P) (call : SigningKeyCall P × Bool)
    (system' : SigningKeySystem P) : Prop :=
  system.effect backend call.1 = (call.2, system')

/-- The row of the table for a server and a key id. -/
def rowOf (system : SigningKeySystem P) (slot : Str × Str) : Option SigningKeyRow :=
  lookupBy SigningKeyRow.slot system.database slot

/-- The row of a mirror for a server and a key id. -/
def heldBy (system : SigningKeySystem P) (process : P) (slot : Str × Str) :
    Option PersistentServerSigningKey :=
  lookupBy PersistentServerSigningKey.slot (system.mirror process) slot

/-- When the table says the key was retired. -/
def expiryOf (system : SigningKeySystem P) (slot : Str × Str) : WithTop ℕ :=
  (system.rowOf slot).elim ⊤ fun row => row.key.expiry

/-- The row of the mirror equals the row of the table. -/
def InStep (system : SigningKeySystem P) (process : P) (slot : Str × Str) : Prop :=
  system.rowOf slot = (system.heldBy process slot).map columns

/-- What holds of the table and the mirrors: rows are well formed, and no mirror has a key retired
that the table has not, or earlier. -/
structure Sound (system : SigningKeySystem P) : Prop where
  nodup : (system.database.map SigningKeyRow.slot).Nodup
  rows : ∀ row ∈ system.database, ∃ key : PersistentServerSigningKey,
    row = key.columns ∧ key.WellFormed
  held : ∀ process slot key, system.heldBy process slot = some key → key.WellFormed ∧
    (system.rowOf slot).isSome ∧ system.expiryOf slot ≤ key.expiry

variable {backend} {system system' : SigningKeySystem P} {key : PersistentServerSigningKey}
  {process : P}

omit [DecidableEq P] in
lemma Sound.row (h : Sound system) {slot : Str × Str} {row : SigningKeyRow}
    (hrow : system.rowOf slot = some row) :
    ∃ key : PersistentServerSigningKey, row = key.columns ∧ key.WellFormed ∧ key.slot = slot := by
  obtain ⟨key, rfl, hkey⟩ := h.rows row (mem_of_lookupBy hrow)
  have hslot : key.columns.slot = slot := key_of_lookupBy hrow
  exact ⟨key, rfl, hkey, hslot⟩

/-! ### One call, at one key -/

lemma upsertServerSigningKey_eq (backend : SqlBackend) (written : SigningKeyRow)
    (database : List SigningKeyRow) :
    upsertServerSigningKey backend written database =
      ((lookupBy SigningKeyRow.slot database written.slot).elim (some written)
        (conflict backend written)).map fun updated =>
          upsertBy SigningKeyRow.slot written.slot written (fun _ => updated) database := by
  rw [upsertServerSigningKey]
  cases h : lookupBy SigningKeyRow.slot database written.slot with
  | none => exact congrArg some (upsertBy_of_lookupBy_eq_none h).symm
  | some held => rfl

omit [DecidableEq P] in
lemma Sound.upsert (h : Sound system) (hkey : key.WellFormed)
    (hupsert : upsertServerSigningKey backend key.columns system.database = some system'.database) :
    (system'.database.map SigningKeyRow.slot).Nodup ∧
      (∀ row ∈ system'.database, ∃ key : PersistentServerSigningKey,
        row = key.columns ∧ key.WellFormed) ∧
      ∀ slot, system'.rowOf slot = if slot = key.slot then
          some ((system.rowOf slot).elim key.columns fun row =>
            (key.mergeWithSecret row.key).columns) else system.rowOf slot := by
  have hstored : ∃ stored : PersistentServerSigningKey, stored.WellFormed ∧ stored.slot = key.slot ∧
      (lookupBy SigningKeyRow.slot system.database key.slot).elim (some key.columns)
        (conflict backend key.columns) = some stored.columns ∧
      (system.rowOf key.slot).elim key.columns (fun row =>
        (key.mergeWithSecret row.key).columns) = stored.columns := by
    cases hrow : system.rowOf key.slot with
    | none => exact ⟨key, hkey, rfl, by rw [← rowOf, hrow]; rfl, rfl⟩
    | some row =>
      obtain ⟨held, rfl, hheld, hslot⟩ := h.row hrow
      refine ⟨key.mergeWithSecret held, (hkey.merge hheld).withSecret _, hslot, ?_, ?_⟩
      · rw [← rowOf, hrow]
        exact conflict_columns backend hkey.bounded hheld.bounded
      · rw [Option.elim_some, key_columns]
  obtain ⟨stored, hwell, hslot, hconflict, hrow⟩ := hstored
  have hkeep : ∀ row : SigningKeyRow, row.slot = key.slot → stored.columns.slot = key.slot :=
    fun _ _ => hslot
  rw [upsertServerSigningKey_eq, slot_columns, hconflict] at hupsert
  rw [← Option.some.inj hupsert]
  refine ⟨nodup_upsertBy (slot_columns key) hkeep h.nodup, fun row hmem => ?_, fun slot => ?_⟩
  · rcases mem_upsertBy hmem with hmem | ⟨-, -, -, rfl⟩ | rfl
    · exact h.rows row hmem
    · exact ⟨stored, rfl, hwell⟩
    · exact ⟨key, rfl, hkey⟩
  · rw [rowOf, ← Option.some.inj hupsert, lookupBy_upsertBy (slot_columns key) hkeep]
    by_cases hslot : slot = key.slot
    · rw [if_pos hslot, if_pos hslot, hslot, hrow]
      show some ((system.rowOf key.slot).elim key.columns fun _ => stored.columns) = _
      cases hheld : system.rowOf key.slot with
      | none =>
        rw [hheld] at hrow
        exact congrArg some hrow
      | some row => rfl
    · rw [if_neg hslot, if_neg hslot]
      rfl

/-- What a call to `store_server_signing_key` does: nothing, or it writes the row to the table and
to the mirror of the process. -/
lemma store_cases {commits ok : Bool}
    (hstep : Step backend system (.store process key commits, ok) system') :
    (ok = false ∧ system' = system) ∨
    (ok = true ∧ (key.expiredTs ≠ 0 → key.secretKey = []) ∧
      (key.secretKey = [] → ∀ held, system.heldBy process key.slot = some held →
        key.clamped.refusedBy held = false) ∧
      upsertServerSigningKey backend key.clamped.columns system.database = some system'.database ∧
      system'.mirror = update system.mirror process
        (upsertBy slot key.slot key.clamped key.clamped.mergeWithSecret
          (system.mirror process))) := by
  have hsame : ∀ {ok' : Bool},
      (ok', (⟨system.database, update system.mirror process (system.mirror process)⟩ :
        SigningKeySystem P)) = (ok, system') → ok' = false → ok = false ∧ system' = system := by
    intro ok' heq hok'
    rw [update_eq_self] at heq
    cases heq
    exact ⟨hok', rfl⟩
  unfold Step effect storeServerSigningKey at hstep
  simp only at hstep
  split_ifs at hstep with hinvalid hretired hrefused hcommits
  iterate 4 exact .inl (hsame hstep rfl)
  · cases hupsert : upsertServerSigningKey backend key.clamped.columns system.database with
    | none =>
      rw [hupsert] at hstep
      exact .inl (hsame hstep rfl)
    | some database =>
      rw [hupsert] at hstep
      cases hstep
      refine .inr ⟨rfl, fun hexpired => ?_, fun hsecret held hheld => ?_, rfl, rfl⟩
      · by_contra hsecret
        exact hretired ⟨hexpired, hsecret⟩
      · by_contra hrefuses
        refine hrefused ⟨hsecret, ?_⟩
        rw [show lookupBy slot (system.mirror process) key.slot = some held from hheld]
        simpa using hrefuses

lemma lookupBy_write (key : PersistentServerSigningKey) (mirror : List PersistentServerSigningKey)
    (slot : Str × Str) :
    lookupBy PersistentServerSigningKey.slot (upsertBy PersistentServerSigningKey.slot key.slot
        key.clamped key.clamped.mergeWithSecret mirror) slot = if slot = key.slot then
        some ((lookupBy PersistentServerSigningKey.slot mirror key.slot).elim key.clamped
          key.clamped.mergeWithSecret)
      else lookupBy PersistentServerSigningKey.slot mirror slot := by
  have hkeep : ∀ held : PersistentServerSigningKey, held.slot = key.slot →
      (key.clamped.mergeWithSecret held).slot = key.slot := fun _ hheld => hheld
  exact lookupBy_upsertBy slot_clamped hkeep mirror slot

lemma heldBy_refresh (hnodup : (system.database.map SigningKeyRow.slot).Nodup) {serverName : Str}
    {ok : Bool} (hstep : Step backend system (.refresh process serverName true, ok) system')
    (slot : Str × Str) :
    system'.heldBy process slot =
      ((system.rowOf slot).filter fun row => row.serverName = serverName).elim
        (system.heldBy process slot) fun row =>
          some ((system.heldBy process slot).elim row.publicColumns fun held =>
            if held.secretKey = [] then row.publicColumns.merge held else held) := by
  cases hstep
  have hkeys : ((system.database.filter fun row => row.serverName = serverName).map
      SigningKeyRow.slot).Nodup := hnodup.sublist (filter_sublist.map _)
  have hmerge : ∀ (row : SigningKeyRow) (held : PersistentServerSigningKey), held.slot = row.slot →
      (if held.secretKey = [] then row.publicColumns.merge held else held).slot = row.slot := by
    intro row held hheld
    split_ifs <;> exact hheld
  have hcreate : ∀ row : SigningKeyRow, row.publicColumns.slot = row.slot := fun _ => rfl
  have hlookup := lookupBy_foldl_upsertBy hcreate hmerge hkeys (system.mirror process) slot
  rw [lookupBy_filter hnodup] at hlookup
  simp only [heldBy, update_self]
  exact hlookup

/-- A refresh does not write to the table. -/
lemma database_refresh {serverName : Str} {reads ok : Bool}
    (hstep : Step backend system (.refresh process serverName reads, ok) system') :
    system'.database = system.database := by
  cases hstep
  unfold refreshRemoteSigningKeys
  split <;> rfl

section Step

variable {call : SigningKeyCall P × Bool} (h : Sound system) (hbounded : call.1.Bounded)
  (hstep : Step backend system call system')

include h hbounded hstep

lemma Sound.rowOf_step (slot : Str × Str) :
    system'.rowOf slot = match written slot call with
      | none => system.rowOf slot
      | some key => some ((system.rowOf slot).elim key.columns fun row =>
          (key.mergeWithSecret row.key).columns) := by
  obtain ⟨call, ok⟩ := call
  cases call with
  | start process full =>
    cases hstep
    rfl
  | refresh process serverName reads =>
    rw [rowOf, database_refresh hstep]
    rfl
  | store process key commits =>
    rcases store_cases hstep with ⟨rfl, rfl⟩ | ⟨rfl, -, -, hupsert, -⟩
    · rfl
    · rw [(h.upsert (Bounded.clamped hbounded) hupsert).2.2 slot, slot_clamped, written]
      by_cases hslot : slot = key.slot
      · rw [if_pos hslot, if_pos hslot.symm]
      · rw [if_neg hslot, if_neg (Ne.symm hslot)]

lemma Sound.expiryOf_step (slot : Str × Str) :
    system'.expiryOf slot = min (system.expiryOf slot) ((written slot call).elim ⊤ expiry) := by
  rw [expiryOf, h.rowOf_step hbounded hstep slot, expiryOf]
  cases written slot call with
  | none => exact (min_top_right _).symm
  | some key =>
    cases system.rowOf slot with
    | none => simp
    | some row => simp [expiry_mergeWithSecret]

lemma Sound.keeps_row {slot : Str × Str} {row : SigningKeyRow}
    (hrow : system.rowOf slot = some row) :
    ∃ row', system'.rowOf slot = some row' ∧ row.key.Keeps row'.key := by
  rw [h.rowOf_step hbounded hstep slot, hrow]
  cases written slot call with
  | none => exact ⟨row, rfl, .refl _⟩
  | some key =>
    refine ⟨_, rfl, ?_⟩
    rw [Option.elim_some, key_columns]
    exact .mergeWithSecret

/-- What a call does to a row of a mirror, but for the start of its process: nothing, or it writes
the row that it writes to the table, or it reads the row of the table. -/
lemma Sound.heldBy_step (hstart : ¬ call.1.Starts process) (slot : Str × Str) :
    (system'.heldBy process slot = system.heldBy process slot ∧
      (call.1.process = process → written slot call = none)) ∨
    (∃ key, written slot call = some key ∧ call.1.process = process ∧
      (key.secretKey = [] → ∀ held, system.heldBy process slot = some held →
        key.refusedBy held = false) ∧
      system'.heldBy process slot =
        some ((system.heldBy process slot).elim key key.mergeWithSecret)) ∨
    ∃ row, system.rowOf slot = some row ∧ written slot call = none ∧
      call.1.process = process ∧
      system'.heldBy process slot = some ((system.heldBy process slot).elim row.publicColumns
        fun held => if held.secretKey = [] then row.publicColumns.merge held else held) := by
  obtain ⟨call, ok⟩ := call
  cases call with
  | start other full =>
    cases hstep
    refine .inl ⟨?_, fun _ => rfl⟩
    simp [heldBy, update_of_ne (Ne.symm hstart)]
  | store other key commits =>
    rcases store_cases hstep with ⟨rfl, rfl⟩ | ⟨rfl, -, hguard, -, hmirror⟩
    · exact .inl ⟨rfl, fun _ => rfl⟩
    by_cases hprocess : process = other
    · subst hprocess
      have hlookup := lookupBy_write key (system.mirror process) slot
      by_cases hslot : slot = key.slot
      · subst hslot
        refine .inr (.inl ⟨key.clamped, if_pos rfl, rfl, ?_, ?_⟩)
        · rw [secretKey_clamped]
          exact hguard
        · rw [heldBy, hmirror, update_self, hlookup, if_pos rfl]
          rfl
      · refine .inl ⟨?_, fun _ => if_neg (Ne.symm hslot)⟩
        rw [heldBy, hmirror, update_self, hlookup, if_neg hslot]
        rfl
    · refine .inl ⟨?_, fun hother => absurd hother.symm hprocess⟩
      rw [heldBy, hmirror, update_of_ne hprocess]
      rfl
  | refresh other serverName reads =>
    by_cases hprocess : process = other
    · subst hprocess
      cases reads with
      | false =>
        cases hstep
        refine .inl ⟨?_, fun _ => rfl⟩
        simp [refreshRemoteSigningKeys]
      | true =>
        rw [heldBy_refresh h.nodup hstep]
        cases hrow : (system.rowOf slot).filter fun row => row.serverName = serverName with
        | none => exact .inl ⟨rfl, fun _ => rfl⟩
        | some row => exact .inr (.inr
            ⟨row, (Option.filter_eq_some_iff.mp hrow).1, rfl, rfl, rfl⟩)
    · cases hstep
      refine .inl ⟨?_, fun _ => rfl⟩
      simp [heldBy, update_of_ne hprocess]

omit h in
lemma heldBy_start {full : Bool} (hcall : call.1 = .start process full) (slot : Str × Str) :
    system'.heldBy process slot =
      (system.rowOf slot).map fun row => if full then row.key else row.publicColumns := by
  obtain ⟨call, ok⟩ := call
  obtain rfl : call = .start process full := hcall
  cases hstep
  simp only [heldBy, rowOf, update_self, lookupBy, find?_map]
  have hslot : ((fun key : PersistentServerSigningKey => decide (key.slot = slot)) ∘
      fun row : SigningKeyRow => if full then row.key else row.publicColumns) =
        fun row => decide (row.slot = slot) := by
    cases full <;> rfl
  rw [hslot]

lemma Sound.keeps_held (hstart : ¬ call.1.Starts process) {slot : Str × Str}
    {held : PersistentServerSigningKey} (hheld : system.heldBy process slot = some held) :
    ∃ held', system'.heldBy process slot = some held' ∧ held.Keeps held' := by
  rcases h.heldBy_step hbounded hstep hstart slot with ⟨heq, -⟩ | ⟨key, -, -, -, heq⟩ |
    ⟨row, -, -, -, heq⟩ <;> rw [heq, hheld]
  · exact ⟨held, rfl, .refl _⟩
  · exact ⟨_, rfl, .mergeWithSecret⟩
  · refine ⟨_, rfl, ?_⟩
    rw [Option.elim_some]
    split_ifs
    exacts [.merge, .refl _]

lemma Sound.rows_step :
    (system'.database.map SigningKeyRow.slot).Nodup ∧
      ∀ row ∈ system'.database, ∃ key : PersistentServerSigningKey,
        row = key.columns ∧ key.WellFormed := by
  obtain ⟨call, ok⟩ := call
  cases call with
  | start process full =>
    cases hstep
    exact ⟨h.nodup, h.rows⟩
  | store process key commits =>
    rcases store_cases hstep with ⟨-, rfl⟩ | ⟨-, -, -, hupsert, -⟩
    · exact ⟨h.nodup, h.rows⟩
    · exact (h.upsert (Bounded.clamped hbounded) hupsert).imp_right And.left
  | refresh process serverName reads =>
    rw [database_refresh hstep]
    exact ⟨h.nodup, h.rows⟩

omit [DecidableEq P] hbounded hstep in
lemma Sound.loaded (full : Bool) {slot : Str × Str} {row : SigningKeyRow}
    (hrow : system.rowOf slot = some row) :
    (if full then row.key else row.publicColumns).WellFormed ∧
      (if full then row.key else row.publicColumns).expiry = system.expiryOf slot := by
  obtain ⟨key, rfl, hkey, -⟩ := h.row hrow
  rw [expiryOf, hrow, Option.elim_some, SigningKeyRow.publicColumns, key_columns]
  cases full with
  | true => exact ⟨hkey, rfl⟩
  | false => exact ⟨hkey.withSecret _, rfl⟩

omit [DecidableEq P] h hstep in
lemma written_wellFormed {slot : Str × Str}
    (hwritten : written slot call = some key) : key.WellFormed := by
  obtain ⟨call, ok⟩ := call
  cases call with
  | start | refresh => exact absurd hwritten (by simp [written])
  | store process other commits =>
    cases ok with
    | false => exact absurd hwritten (by simp [written])
    | true =>
      rw [written] at hwritten
      split_ifs at hwritten
      cases hwritten
      exact Bounded.clamped hbounded

lemma Sound.step : Sound system' := by
  obtain ⟨hnodup, hrows⟩ := h.rows_step hbounded hstep
  refine ⟨hnodup, hrows, fun process slot held hheld => ?_⟩
  have hexpiry := h.expiryOf_step hbounded hstep slot
  have hle : system'.expiryOf slot ≤ system.expiryOf slot := hexpiry ▸ min_le_left _ _
  have hkept : (system.rowOf slot).isSome → (system'.rowOf slot).isSome := by
    intro hsome
    obtain ⟨row, hrow⟩ := Option.isSome_iff_exists.mp hsome
    obtain ⟨row', hrow', -⟩ := h.keeps_row hbounded hstep hrow
    exact Option.isSome_iff_exists.mpr ⟨row', hrow'⟩
  by_cases hstart : call.1.Starts process
  · obtain ⟨full, hcall⟩ := hstart.exists_eq
    rw [heldBy_start hbounded hstep hcall, Option.map_eq_some_iff] at hheld
    obtain ⟨row, hrow, rfl⟩ := hheld
    obtain ⟨hwell, hsame⟩ := h.loaded full hrow
    exact ⟨hwell, hkept (Option.isSome_iff_exists.mpr ⟨_, hrow⟩), hle.trans hsame.ge⟩
  · rcases h.heldBy_step hbounded hstep hstart slot with ⟨heq, -⟩ | ⟨key, hwritten, -, -, heq⟩ |
      ⟨row, hread, -, -, heq⟩ <;> rw [heq] at hheld
    · obtain ⟨hwell, hsome, hbefore⟩ := h.held process slot held hheld
      exact ⟨hwell, hkept hsome, hle.trans hbefore⟩
    · have hkey := written_wellFormed hbounded hwritten
      have hstored : (system'.rowOf slot).isSome := by
        rw [h.rowOf_step hbounded hstep slot, hwritten]
        rfl
      rw [hwritten, Option.elim_some] at hexpiry
      cases hbefore : system.heldBy process slot with
      | none =>
        rw [hbefore] at hheld
        cases hheld
        exact ⟨hkey, hstored, hexpiry ▸ min_le_right _ _⟩
      | some old =>
        rw [hbefore] at hheld
        cases hheld
        obtain ⟨hwell, -, hold⟩ := h.held process slot old hbefore
        refine ⟨(hkey.merge hwell).withSecret _, hstored, ?_⟩
        rw [hexpiry, Option.elim_some, expiry_mergeWithSecret]
        exact min_le_min_right _ hold
    · have hrow : row.publicColumns.WellFormed ∧ row.publicColumns.expiry = system.expiryOf slot :=
        h.loaded false hread
      obtain ⟨hrowWell, hrowExpiry⟩ := hrow
      have hstored := hkept (Option.isSome_iff_exists.mpr ⟨row, hread⟩)
      cases hbefore : system.heldBy process slot with
      | none =>
        rw [hbefore] at hheld
        cases hheld
        exact ⟨hrowWell, hstored, hle.trans hrowExpiry.ge⟩
      | some old =>
        rw [hbefore, Option.elim_some] at hheld
        cases hheld
        obtain ⟨hwell, -, hold⟩ := h.held process slot old hbefore
        split_ifs
        · refine ⟨hrowWell.merge hwell, hstored, hle.trans ?_⟩
          rw [expiry_merge]
          exact le_min hold hrowExpiry.ge
        · exact ⟨hwell, hstored, hle.trans hold⟩

end Step

omit [DecidableEq P] in
lemma Sound.empty : Sound ({} : SigningKeySystem P) where
  nodup := nodup_nil
  rows _ h := absurd h not_mem_nil
  held _ _ _ h := by
    cases h

end SigningKeySystem

end Merovingian
