import Merovingian.Database.StateGroups
import Merovingian.Lib.Run

/-!
# State groups lose nothing

Every group of delta depth `d` has a chain of `d + 1` groups, and a new group never gets a depth
over `max_state_group_delta_depth`; so no chain becomes too long to be read, and what was asked to
be stored is what is read, then and after every later call.

The store's own keys join type and state key with a NUL.  They agree with `stateOf`, the map the
callers mean, because no event type holds a NUL.
-/

namespace Merovingian

open List StateGroupEntryTable

/-! ### Well-formed stores and calls -/

/-- What every store reached from the empty one keeps. -/
structure StoreInvariant (store : StateGroupStore) : Prop where
  depth_le : ∀ id group, store.stateGroups.find id = some group →
    group.deltaDepth ≤ maxStateGroupDeltaDepth
  parent : ∀ id group parent, store.stateGroups.find id = some group →
    group.parentStateGroupId = some parent →
      ∃ parentGroup, store.stateGroups.find parent = some parentGroup ∧
        parentGroup.deltaDepth + 1 = group.deltaDepth
  id_eq : ∀ id group, store.stateGroups.find id = some group → group.stateGroupId = id
  owner : ∀ entry ∈ store.stateGroupState.rows, store.stateGroups.find entry.stateGroupId ≠ none
  nulFree : ∀ entry ∈ store.stateGroupState.rows, 0 ∉ entry.eventType

/-- The calls that are considered: a fresh id, a parent of the store or none, and a state with
distinct keys that are free of NUL. -/
structure WellFormedCall (store : StateGroupStore) (call : StateGroupCall) : Prop where
  fresh : store.stateGroups.find call.newStateGroupId = none
  parent : ∀ parent, call.parentStateGroupId = some parent → store.stateGroups.find parent ≠ none
  distinct : (call.fullState.map fun entry => (entry.eventType, entry.stateKey)).Nodup
  nulFree : ∀ entry ∈ call.fullState, 0 ∉ entry.eventType ∧ 0 ∉ entry.stateKey

/-- The slot an entry is about. -/
def StateGroupEntry.slot (entry : StateGroupEntry) : Str × Str := (entry.eventType, entry.stateKey)

/-- A state as a map from type and state key to event id. -/
def stateOf (entries : List StateGroupEntry) (slot : Str × Str) : Option Str :=
  (lookupBy (fun entry => (entry.eventType, entry.stateKey)) entries slot).map
    StateGroupEntry.eventId

/-! ### Keys -/

lemma append_nul_inj {t u k l : Str} (ht : 0 ∉ t) (hu : 0 ∉ u) (h : t ++ 0 :: k = u ++ 0 :: l) :
    t = u ∧ k = l := by
  have htype : ∀ {t k : Str}, 0 ∉ t → (t ++ 0 :: k).takeWhile (· != 0) = t := by
    intro t k ht
    rw [takeWhile_append_of_pos fun a ha => by simpa using ne_of_mem_of_not_mem ha ht]
    simp
  obtain rfl : t = u := by rw [← htype ht, h, htype hu]
  exact ⟨rfl, (cons.inj (append_cancel_left h)).2⟩

variable {entries : List StateGroupEntry} {id : Str} {group : PersistentStateGroup}
  {call : StateGroupCall} {store store' : StateGroupStore} {chain : List PersistentStateGroup}

lemma stateOf_eq (hnul : ∀ entry ∈ entries, 0 ∉ entry.eventType) {eventType : Str}
    (htype : 0 ∉ eventType) (stateKey : Str) :
    stateOf entries (eventType, stateKey) = toStateGroupMap entries (eventType ++ 0 :: stateKey) := by
  unfold stateOf toStateGroupMap
  congr 1
  induction entries with
  | nil => rfl
  | cons entry entries ih =>
    rw [lookupBy_cons, lookupBy_cons, ih fun e he => hnul e (mem_cons_of_mem _ he)]
    have hiff : (entry.eventType, entry.stateKey) = (eventType, stateKey) ↔
        stateGroupEntryKey entry = eventType ++ 0 :: stateKey := by
      rw [Prod.mk.injEq]
      refine ⟨?_, append_nul_inj (hnul entry mem_cons_self) htype⟩
      rintro ⟨rfl, rfl⟩
      rfl
    simp [hiff]

lemma stateOf_congr {a b : List StateGroupEntry} (ha : ∀ entry ∈ a, 0 ∉ entry.eventType)
    (hb : ∀ entry ∈ b, 0 ∉ entry.eventType) (h : ∀ key, toStateGroupMap a key = toStateGroupMap b key) :
    stateOf a = stateOf b := by
  funext ⟨eventType, stateKey⟩
  by_cases htype : 0 ∈ eventType
  · have hnone : ∀ {entries : List StateGroupEntry}, (∀ entry ∈ entries, 0 ∉ entry.eventType) →
        stateOf entries (eventType, stateKey) = none := by
      intro entries hnul
      rw [stateOf, Option.map_eq_none_iff, lookupBy_eq_none]
      rintro entry hentry heq
      cases heq
      exact hnul entry hentry htype
    rw [hnone ha, hnone hb]
  · rw [stateOf_eq ha htype, stateOf_eq hb htype, h]

lemma nodup_stateGroupEntryKey
    (hdistinct : (entries.map fun entry => (entry.eventType, entry.stateKey)).Nodup)
    (hnul : ∀ entry ∈ entries, 0 ∉ entry.eventType) : (entries.map stateGroupEntryKey).Nodup := by
  have hinj := inj_on_of_nodup_map hdistinct
  refine (nodup_map_iff_inj_on hdistinct.of_map).mpr fun a ha b hb hab => ?_
  obtain ⟨htype, hkey⟩ := append_nul_inj (hnul a ha) (hnul b hb) hab
  exact hinj ha hb (by rw [htype, hkey])

/-! ### Chains -/

/-- The chain of a group, followed for as many parents as its depth says. -/
def ancestors (store : StateGroupStore) : ℕ → Str → List PersistentStateGroup
  | depth, id =>
    match store.stateGroups.find id with
    | none => []
    | some group =>
      match group.parentStateGroupId, depth with
      | none, _ => [group]
      | some _, 0 => [group]
      | some parent, depth + 1 => group :: ancestors store depth parent

lemma ancestors_root (hfind : store.stateGroups.find id = some group)
    (hroot : group.parentStateGroupId = none) (depth : ℕ) : ancestors store depth id = [group] := by
  rw [ancestors, hfind]
  simp [hroot]

lemma ancestors_delta {parent : Str} (hfind : store.stateGroups.find id = some group)
    (hparent : group.parentStateGroupId = some parent) (depth : ℕ) :
    ancestors store (depth + 1) id = group :: ancestors store depth parent := by
  rw [ancestors, hfind]
  simp [hparent]

section

variable (hinv : StoreInvariant store)

include hinv

/-- Induction along chains: from the parent, which is one less deep, to the group. -/
lemma StoreInvariant.chain_induction {P : Str → PersistentStateGroup → Prop}
    (root : ∀ id group, store.stateGroups.find id = some group →
      group.parentStateGroupId = none → P id group)
    (delta : ∀ id group up upGroup, store.stateGroups.find id = some group →
      group.parentStateGroupId = some up → store.stateGroups.find up = some upGroup →
      group.deltaDepth = upGroup.deltaDepth + 1 → P up upGroup → P id group) :
    ∀ id group, store.stateGroups.find id = some group → P id group := by
  intro id group hfind
  induction hdepth : group.deltaDepth using Nat.strong_induction_on generalizing id group with
  | _ depth ih =>
    cases hparent : group.parentStateGroupId with
    | none => exact root id group hfind hparent
    | some up =>
      obtain ⟨upGroup, hup, hlt⟩ := hinv.parent id group up hfind hparent
      exact delta id group up upGroup hfind hparent hup hlt.symm
        (ih _ (by omega) up upGroup hup rfl)

/-- A chain is read in full when its group's depth fits: depths fall along the chain, so it
does not come back to a group it has visited. -/
lemma StoreInvariant.readChain_eq :
    ∀ id group, store.stateGroups.find id = some group →
      ∀ (visited : List Str) (remaining : ℕ), group.deltaDepth ≤ remaining →
      (∀ v ∈ visited, ∀ g, store.stateGroups.find v = some g → group.deltaDepth < g.deltaDepth) →
        readChain store remaining visited id = some (ancestors store group.deltaDepth id) := by
  have hnew : ∀ id group (visited : List Str), store.stateGroups.find id = some group →
      (∀ v ∈ visited, ∀ g, store.stateGroups.find v = some g → group.deltaDepth < g.deltaDepth) →
      id ∉ visited := fun id group visited hfind hvisited hmem =>
    lt_irrefl _ (hvisited id hmem group hfind)
  refine hinv.chain_induction ?_ ?_
  · intro id group hfind hroot visited remaining _ hvisited
    rw [readChain, if_neg (hnew id group visited hfind hvisited), ancestors_root hfind hroot, hfind]
    simp [hroot]
  · intro id group up upGroup hfind hparent hup hdepth ih visited remaining hle hvisited
    obtain ⟨remaining, rfl⟩ : ∃ n, remaining = n + 1 := ⟨remaining - 1, by omega⟩
    rw [readChain, if_neg (hnew id group visited hfind hvisited), hdepth,
      ancestors_delta hfind hparent, hfind]
    simp only [hparent]
    rw [ih (id :: visited) remaining (by omega), Option.map_some]
    intro v hv g hg
    rcases mem_cons.mp hv with rfl | hv
    · obtain rfl : group = g := Option.some.inj (hfind ▸ hg)
      omega
    · have := hvisited v hv g hg
      omega

lemma StoreInvariant.read_eq (hfind : store.stateGroups.find id = some group) :
    readStateGroupFullState store id = some
      (firstBy stateGroupEntryKey [] (chainEntries store (ancestors store group.deltaDepth id))) := by
  rw [readStateGroupFullState, hinv.readChain_eq id group hfind [] maxStateGroupDeltaDepth
    (hinv.depth_le id group hfind) (by simp), Option.map_some]

end

lemma chainEntries_cons (hfind : store.stateGroups.find id = some group) :
    chainEntries store (group :: chain) =
      store.stateGroupState.entriesOf id ++ chainEntries store chain := by
  rw [chainEntries, flatMap_cons, StateGroupTable.stateGroupId_of_find hfind]
  rfl

lemma mem_rows_of_mem_chainEntries {entry : StateGroupEntry} (h : entry ∈ chainEntries store chain) :
    entry ∈ store.stateGroupState.rows := by
  obtain ⟨group, -, hentry⟩ := mem_flatMap.mp h
  rw [entriesOf_eq] at hentry
  exact (mem_filter.mp hentry).1

/-! ### Adding a group -/

section AddGroup

variable {roomId newId : Str} {parent : Option (Str × ℕ)} {rows : List StateGroupEntry}

/-- The store with a new group added. -/
def addGroup (store : StateGroupStore) (roomId newId : Str) (parent : Option (Str × ℕ))
    (rows : List StateGroupEntry) : StateGroupStore :=
  applyStateGroup store (newStateGroup roomId newId parent rows)

lemma find_addGroup (hfresh : store.stateGroups.find newId = none) (id : Str) :
    (addGroup store roomId newId parent rows).stateGroups.find id =
      if id = newId then (newStateGroup roomId newId parent rows).group
      else store.stateGroups.find id :=
  StateGroupTable.find_insert hfresh id

lemma entriesOf_addGroup (id : Str) :
    (addGroup store roomId newId parent rows).stateGroupState.entriesOf id =
      store.stateGroupState.entriesOf id ++
        if id = newId then (newStateGroup roomId newId parent rows).rows else [] := by
  have hrows : (addGroup store roomId newId parent rows).stateGroupState =
      store.stateGroupState.insertAll (newStateGroup roomId newId parent rows).rows := rfl
  rw [hrows, entriesOf_eq, entriesOf_eq, rows_insertAll, filter_append]
  congr 1
  have howner : ∀ entry ∈ (newStateGroup roomId newId parent rows).rows,
      entry.stateGroupId = newId := by simp [newStateGroup, StateGroupEntry.inGroup]
  split_ifs with hid
  · exact filter_eq_self.mpr fun entry hentry => by simp [hid, howner entry hentry]
  · exact filter_eq_nil_iff.mpr fun entry hentry => by simp [Ne.symm hid, howner entry hentry]

/-- What may be added: a snapshot, or a delta within the depth bound over a group of the store,
with rows without NUL in their types. -/
structure Addable (store : StateGroupStore) (newId : Str) (parent : Option (Str × ℕ))
    (rows : List StateGroupEntry) : Prop where
  fresh : store.stateGroups.find newId = none
  parent_found : ∀ p, parent = some p → p.2 + 1 ≤ maxStateGroupDeltaDepth ∧
    ∃ parentGroup, store.stateGroups.find p.1 = some parentGroup ∧ parentGroup.deltaDepth = p.2
  nulFree : ∀ row ∈ rows, 0 ∉ row.eventType

lemma find_addGroup_of_found (hfresh : store.stateGroups.find newId = none)
    (hfind : store.stateGroups.find id = some group) :
    id ≠ newId ∧ (addGroup store roomId newId parent rows).stateGroups.find id = some group := by
  have hne : id ≠ newId := by
    rintro rfl
    exact absurd (hfind.symm.trans hfresh) (by simp)
  rw [find_addGroup hfresh, if_neg hne]
  exact ⟨hne, hfind⟩

lemma rows_addGroup : (addGroup store roomId newId parent rows).stateGroupState.rows =
    store.stateGroupState.rows ++ (newStateGroup roomId newId parent rows).rows :=
  rows_insertAll _ _

lemma StoreInvariant.addGroup (hinv : StoreInvariant store) (h : Addable store newId parent rows) :
    StoreInvariant (addGroup store roomId newId parent rows) where
  depth_le := by
    intro id group hfind
    rw [find_addGroup h.fresh] at hfind
    split at hfind
    · cases hfind
      cases hp : parent with
      | none => exact Nat.zero_le _
      | some p => exact (h.parent_found p hp).1
    · exact hinv.depth_le id group hfind
  parent := by
    intro id group up hfind hup
    rw [find_addGroup h.fresh] at hfind
    split at hfind
    · cases hfind
      cases hp : parent with
      | none => simp [hp] at hup
      | some p =>
        obtain ⟨parentGroup, hfindParent, hdepth⟩ := (h.parent_found p hp).2
        simp only [hp, Option.map_some, Option.some.injEq] at hup
        subst hup
        exact ⟨parentGroup, (find_addGroup_of_found h.fresh hfindParent).2, by simp [hdepth]⟩
    · obtain ⟨parentGroup, hfindParent, hdepth⟩ := hinv.parent id group up hfind hup
      exact ⟨parentGroup, (find_addGroup_of_found h.fresh hfindParent).2, hdepth⟩
  id_eq _ _ := StateGroupTable.stateGroupId_of_find
  owner := by
    intro entry hentry
    rw [rows_addGroup, mem_append] at hentry
    rw [find_addGroup h.fresh]
    rcases hentry with hentry | hentry
    · split
      · exact Option.some_ne_none _
      · exact hinv.owner entry hentry
    · obtain ⟨row, -, rfl⟩ := mem_map.mp hentry
      simp [newStateGroup, StateGroupEntry.inGroup]
  nulFree := by
    intro entry hentry
    rw [rows_addGroup, mem_append] at hentry
    rcases hentry with hentry | hentry
    · exact hinv.nulFree entry hentry
    · obtain ⟨row, hrow, rfl⟩ := mem_map.mp hentry
      exact h.nulFree row hrow

lemma ancestors_addGroup (hinv : StoreInvariant store)
    (hfresh : store.stateGroups.find newId = none) :
    ∀ id group, store.stateGroups.find id = some group →
      ancestors (addGroup store roomId newId parent rows) group.deltaDepth id =
          ancestors store group.deltaDepth id ∧
        ∀ g ∈ ancestors store group.deltaDepth id, g.stateGroupId ≠ newId := by
  refine hinv.chain_induction ?_ ?_
  · intro id group hfind hroot
    obtain ⟨hne, hfind'⟩ := find_addGroup_of_found hfresh hfind
    rw [ancestors_root hfind' hroot, ancestors_root hfind hroot]
    refine ⟨rfl, fun g hg => ?_⟩
    rwa [mem_singleton.mp hg, hinv.id_eq id group hfind]
  · rintro id group up upGroup hfind hparent - hdepth ⟨heq, hothers⟩
    obtain ⟨hne, hfind'⟩ := find_addGroup_of_found hfresh hfind
    rw [hdepth, ancestors_delta hfind' hparent, ancestors_delta hfind hparent, heq]
    refine ⟨rfl, fun g hg => ?_⟩
    rcases mem_cons.mp hg with rfl | hg
    · rwa [hinv.id_eq id _ hfind]
    · exact hothers g hg

lemma chainEntries_addGroup (hchain : ∀ group ∈ chain, group.stateGroupId ≠ newId) :
    chainEntries (addGroup store roomId newId parent rows) chain = chainEntries store chain := by
  refine flatMap_congr fun group hgroup => ?_
  rw [entriesOf_addGroup, if_neg (hchain group hgroup), append_nil]

variable (hinv : StoreInvariant store)

include hinv

lemma read_addGroup_of_found (h : Addable store newId parent rows)
    (hfound : store.stateGroups.find id ≠ none) :
    readStateGroupFullState (addGroup store roomId newId parent rows) id =
      readStateGroupFullState store id := by
  obtain ⟨group, hfind⟩ := Option.ne_none_iff_exists'.mp hfound
  obtain ⟨-, hfind'⟩ := find_addGroup_of_found h.fresh hfind
  obtain ⟨hchain, hothers⟩ := ancestors_addGroup hinv h.fresh id group hfind
  rw [(hinv.addGroup h).read_eq hfind', hinv.read_eq hfind, hchain, chainEntries_addGroup hothers]

lemma entriesOf_addGroup_self (hfresh : store.stateGroups.find newId = none) :
    (addGroup store roomId newId parent rows).stateGroupState.entriesOf newId =
      rows.map (.inGroup newId) := by
  have hnone : store.stateGroupState.entriesOf newId = [] := by
    rw [entriesOf_eq, filter_eq_nil_iff]
    intro entry hentry hid
    exact hinv.owner entry hentry (by rw [of_decide_eq_true hid, hfresh])
  rw [entriesOf_addGroup, hnone, if_pos rfl]
  rfl

lemma read_addGroup_self (h : Addable store newId parent rows) :
    ∃ entries, readStateGroupFullState (addGroup store roomId newId parent rows) newId =
        some entries ∧
      ∀ key, toStateGroupMap entries key = (toStateGroupMap rows key).or
        ((parent.bind fun p => readStateGroupFullState store p.1).bind (toStateGroupMap · key)) := by
  have hfind : (addGroup store roomId newId parent rows).stateGroups.find newId =
      (newStateGroup roomId newId parent rows).group := by
    rw [find_addGroup h.fresh, if_pos rfl]
  refine ⟨_, (hinv.addGroup h).read_eq hfind, fun key => ?_⟩
  have hrows : toStateGroupMap (rows.map (.inGroup newId)) key =
      toStateGroupMap rows key := by
    have hkey : ∀ row, stateGroupEntryKey (StateGroupEntry.inGroup newId row) =
        stateGroupEntryKey row := fun _ => rfl
    rw [toStateGroupMap, lookupBy_map hkey, Option.map_map]
    rfl
  rw [toStateGroupMap_firstBy]
  cases parent with
  | none =>
    rw [ancestors_root hfind rfl, chainEntries_cons hfind, entriesOf_addGroup_self hinv h.fresh,
      toStateGroupMap_append, hrows]
    rfl
  | some p =>
    obtain ⟨-, parentGroup, hparent, hdepth⟩ := h.parent_found p rfl
    obtain ⟨hchain, hothers⟩ := ancestors_addGroup hinv h.fresh p.1 parentGroup hparent
    show toStateGroupMap (chainEntries (addGroup store roomId newId (some p) rows)
      (ancestors (addGroup store roomId newId (some p) rows) (p.2 + 1) newId)) key = _
    rw [ancestors_delta hfind rfl, ← hdepth, hchain, chainEntries_cons hfind,
      entriesOf_addGroup_self hinv h.fresh, chainEntries_addGroup hothers, toStateGroupMap_append,
      hrows, Option.bind_some, hinv.read_eq hparent, Option.bind_some, toStateGroupMap_firstBy]

end AddGroup

/-! ### Calls -/

lemma toStateGroupMap_eq_none {key : Str} :
    toStateGroupMap entries key = none ↔ ∀ entry ∈ entries, stateGroupEntryKey entry ≠ key := by
  rw [toStateGroupMap, Option.map_eq_none_iff, lookupBy_eq_none]

lemma toStateGroupMap_eq_of_same {a b : List StateGroupEntry} (h : sameStateGroupMap a b)
    (key : Str) : toStateGroupMap a key = toStateGroupMap b key := by
  simp only [sameStateGroupMap, all_eq_true, decide_eq_true_eq] at h
  by_cases hkey : ∃ entry ∈ a ++ b, stateGroupEntryKey entry = key
  · obtain ⟨entry, hentry, rfl⟩ := hkey
    exact h entry hentry
  · -- neither list holds the key
    have hnone : ∀ entry ∈ a ++ b, stateGroupEntryKey entry ≠ key := fun entry hentry heq =>
      hkey ⟨entry, hentry, heq⟩
    rw [toStateGroupMap_eq_none.mpr fun entry he => hnone entry (mem_append_left _ he),
      toStateGroupMap_eq_none.mpr fun entry he => hnone entry (mem_append_right _ he)]

lemma toStateGroupMap_deltaRows {parentFull fullState : List StateGroupEntry}
    (hnodup : (fullState.map stateGroupEntryKey).Nodup)
    (hkept : ∀ entry ∈ parentFull, (toStateGroupMap fullState (stateGroupEntryKey entry)).isSome)
    (key : Str) :
    (toStateGroupMap (deltaRows parentFull fullState) key).or (toStateGroupMap parentFull key) =
      toStateGroupMap fullState key := by
  rw [toStateGroupMap, deltaRows, lookupBy_filter hnodup]
  have hfull : toStateGroupMap fullState key =
      (lookupBy stateGroupEntryKey fullState key).map StateGroupEntry.eventId := rfl
  rw [hfull]
  cases hlookup : lookupBy stateGroupEntryKey fullState key with
  | none =>
    refine toStateGroupMap_eq_none.mpr ?_
    rintro entry hentry rfl
    have hsome := hkept entry hentry
    rw [hfull, hlookup] at hsome
    cases hsome
  | some entry =>
    obtain rfl := key_of_lookupBy hlookup
    by_cases hsame : toStateGroupMap parentFull (stateGroupEntryKey entry) = some entry.eventId <;>
      simp [Option.filter, hsame]

/-- What a successful call does: it reuses its parent, or adds a group that reads back the
requested state. -/
lemma createOrReuseStateGroup_cases {group : Str} (hinv : StoreInvariant store)
    (hcall : WellFormedCall store call)
    (h : createOrReuseStateGroup store call = some (group, store')) :
    (store' = store ∧ ∃ parentFull, readStateGroupFullState store group = some parentFull ∧
      ∀ key, toStateGroupMap parentFull key = toStateGroupMap call.fullState key) ∨
    ∃ parent rows, group = call.newStateGroupId ∧
      store' = addGroup store call.roomId call.newStateGroupId parent rows ∧
      Addable store call.newStateGroupId parent rows ∧
      ∀ key, (toStateGroupMap rows key).or
          ((parent.bind fun p => readStateGroupFullState store p.1).bind (toStateGroupMap · key)) =
        toStateGroupMap call.fullState key := by
  have hnul : ∀ entry ∈ call.fullState, 0 ∉ entry.eventType := fun entry he =>
    (hcall.nulFree entry he).1
  have hnodup := nodup_stateGroupEntryKey hcall.distinct hnul
  rw [createOrReuseStateGroup] at h
  split at h
  · cases h
  rename_i prepared hprepared
  split at h
  · cases h
  obtain ⟨hgroup, hstore⟩ := Prod.mk.inj (Option.some.inj h)
  -- a snapshot holds the requested rows themselves
  have hsnapshot : Addable store call.newStateGroupId none call.fullState := ⟨hcall.fresh, nofun, hnul⟩
  cases hparent : call.parentStateGroupId with
  | none =>
    rw [hparent] at hprepared
    cases hprepared
    exact .inr ⟨none, call.fullState, hgroup.symm, hstore.symm, hsnapshot, by simp⟩
  | some parent =>
    obtain ⟨parentGroup, hfind⟩ := Option.ne_none_iff_exists'.mp (hcall.parent parent hparent)
    obtain ⟨parentFull, hread⟩ : ∃ full, readStateGroupFullState store parent = some full :=
      ⟨_, hinv.read_eq hfind⟩
    simp only [prepareStateGroup, hparent, hfind, hread] at hprepared
    split at hprepared
    · rename_i hsame
      cases hprepared
      obtain rfl : parent = group := hgroup
      refine .inl ⟨hstore.symm, parentFull, hread, fun key => ?_⟩
      exact (toStateGroupMap_eq_of_same hsame key).symm
    · split at hprepared
      · cases hprepared
        exact .inr ⟨none, call.fullState, hgroup.symm, hstore.symm, hsnapshot, by simp⟩
      · rename_i hdelta
        rw [not_or, not_lt, not_not, all_eq_true] at hdelta
        cases hprepared
        refine .inr ⟨some (parent, parentGroup.deltaDepth), deltaRows parentFull call.fullState,
          hgroup.symm, hstore.symm, ⟨hcall.fresh, ?_, ?_⟩, fun key => ?_⟩
        · rintro p hp
          cases hp
          exact ⟨hdelta.1, parentGroup, hfind, rfl⟩
        · exact fun row hrow => hnul row (mem_of_mem_filter hrow)
        · rw [Option.bind_some, hread]
          exact toStateGroupMap_deltaRows hnodup hdelta.2 key

/-- What a group's chain reads has no NUL in its types. -/
lemma StoreInvariant.read_nulFree (hinv : StoreInvariant store)
    (hread : readStateGroupFullState store id = some entries) :
    ∀ entry ∈ entries, 0 ∉ entry.eventType := by
  intro entry hentry
  obtain ⟨chain, -, rfl⟩ := Option.map_eq_some_iff.mp hread
  exact hinv.nulFree entry (mem_rows_of_mem_chainEntries (mem_of_mem_firstBy hentry).1)

lemma nodup_slots_of_read (hread : readStateGroupFullState store id = some entries) :
    (entries.map fun entry => (entry.eventType, entry.stateKey)).Nodup := by
  obtain ⟨chain, -, rfl⟩ := Option.map_eq_some_iff.mp hread
  have hkeys : ((firstBy stateGroupEntryKey [] (chainEntries store chain)).map
      stateGroupEntryKey).Nodup := nodup_firstBy [] _
  rw [nodup_map_iff_inj_on hkeys.of_map]
  intro a ha b hb hab
  obtain ⟨htype, hkey⟩ := Prod.mk.inj hab
  exact inj_on_of_nodup_map hkeys ha hb (by rw [stateGroupEntryKey, htype, hkey]; rfl)

/-- A step: a well-formed call, whether it succeeds or not. -/
def StateGroupStep (store : StateGroupStore) (call : StateGroupCall) (store' : StateGroupStore) :
    Prop :=
  WellFormedCall store call ∧
    store' = ((createOrReuseStateGroup store call).map Prod.snd).getD store

lemma StoreInvariant.empty : StoreInvariant .empty where
  depth_le := nofun
  parent := nofun
  id_eq := nofun
  owner := nofun
  nulFree := nofun

lemma StoreInvariant.createOrReuse {group : Str} (hinv : StoreInvariant store)
    (hcall : WellFormedCall store call)
    (h : createOrReuseStateGroup store call = some (group, store')) : StoreInvariant store' := by
  rcases createOrReuseStateGroup_cases hinv hcall h with ⟨rfl, -⟩ | ⟨parent, rows, -, rfl, hadd, -⟩
  · exact hinv
  · exact hinv.addGroup hadd

lemma StoreInvariant.step (h : StateGroupStep store call store') (hinv : StoreInvariant store) :
    StoreInvariant store' := by
  obtain ⟨hcall, rfl⟩ := h
  cases hresult : createOrReuseStateGroup store call with
  | none => exact hinv
  | some result => exact hinv.createOrReuse hcall hresult

lemma StoreInvariant.run {calls : List StateGroupCall} (h : Run StateGroupStep .empty calls store) :
    StoreInvariant store :=
  h.invariant StoreInvariant (fun _ => True) (fun _ hstep hinv => hinv.step hstep)
    (fun _ _ => trivial) .empty

/-- State groups lose nothing: in every store reached by well-formed calls every group can be
read, and a successful call returns a group that reads back the requested state, while every
group that was there reads back what it read before. -/
theorem stateGroups_lossless {store : StateGroupStore} {calls : List StateGroupCall}
    (hrun : Run StateGroupStep .empty calls store) :
    (∀ id, store.stateGroups.find id ≠ none → (readStateGroupFullState store id).isSome) ∧
    ∀ call group store', WellFormedCall store call →
      createOrReuseStateGroup store call = some (group, store') →
        (∃ entries, readStateGroupFullState store' group = some entries ∧
          (entries.map fun entry => (entry.eventType, entry.stateKey)).Nodup ∧
          stateOf entries = stateOf call.fullState) ∧
        ∀ id, store.stateGroups.find id ≠ none →
          readStateGroupFullState store' id = readStateGroupFullState store id := by
  have hinv := StoreInvariant.run hrun
  refine ⟨fun id hfound => ?_, fun call group store' hcall h => ?_⟩
  · obtain ⟨group, hfind⟩ := Option.ne_none_iff_exists'.mp hfound
    rw [hinv.read_eq hfind]
    rfl
  · -- a group reads back the requested state when it does under the joined keys
    have hread : ∀ {entries}, readStateGroupFullState store' group = some entries →
        (∀ key, toStateGroupMap entries key = toStateGroupMap call.fullState key) →
        (entries.map fun entry => (entry.eventType, entry.stateKey)).Nodup ∧
          stateOf entries = stateOf call.fullState := fun hentries hmap =>
      ⟨nodup_slots_of_read hentries, stateOf_congr
        ((hinv.createOrReuse hcall h).read_nulFree hentries) (fun e he => (hcall.nulFree e he).1) hmap⟩
    rcases createOrReuseStateGroup_cases hinv hcall h with
      ⟨rfl, entries, hentries, hmap⟩ | ⟨parent, rows, rfl, rfl, hadd, hmap⟩
    · exact ⟨⟨entries, hentries, hread hentries hmap⟩, fun _ _ => rfl⟩
    · obtain ⟨entries, hentries, hkeys⟩ := read_addGroup_self hinv hadd
      exact ⟨⟨entries, hentries, hread hentries fun key => (hkeys key).trans (hmap key)⟩,
        fun id hfound => read_addGroup_of_found hinv hadd hfound⟩

/-- A call that stores a topic, and for the second group a name. -/
def exampleCall (id : Str) (parent : Option Str) (entries : List (Str × Str)) : StateGroupCall where
  roomId := "!r"
  newStateGroupId := id
  parentStateGroupId := parent
  fullState := entries.map fun entry => ⟨"", entry.1, "", entry.2⟩
  committed := true

/-- The store after a snapshot was written. -/
def exampleStore : StateGroupStore :=
  ((createOrReuseStateGroup .empty
    (exampleCall "g1" none [("m.room.topic", "$topic")])).map Prod.snd).getD .empty

theorem stateGroups_lossless_delta :
    ∃ store', createOrReuseStateGroup exampleStore
        (exampleCall "g2" (some (lit "g1")) [("m.room.topic", "$topic"), ("m.room.name", "$name")]) =
          some (lit "g2", store') ∧
      (∃ entries, readStateGroupFullState store' "g2" = some entries ∧
        stateOf entries = stateOf
          [⟨"", "m.room.topic", "", "$topic"⟩, ⟨"", "m.room.name", "", "$name"⟩]) ∧
      readStateGroupFullState store' "g1" = readStateGroupFullState exampleStore "g1" := by
  have hfirst : WellFormedCall .empty (exampleCall "g1" none [("m.room.topic", "$topic")]) :=
    ⟨by decide, by simp [exampleCall], by decide, by decide⟩
  have hsecond : WellFormedCall exampleStore (exampleCall "g2" (some (lit "g1"))
      [("m.room.topic", "$topic"), ("m.room.name", "$name")]) := by
    refine ⟨by decide, fun parent hparent => ?_, by decide, by decide⟩
    obtain rfl : lit "g1" = parent := Option.some.inj hparent
    decide
  have hgroup : (createOrReuseStateGroup exampleStore (exampleCall "g2" (some (lit "g1"))
      [("m.room.topic", "$topic"), ("m.room.name", "$name")])).map Prod.fst = some (lit "g2") := by
    decide
  obtain ⟨⟨group, store'⟩, hresult, rfl⟩ := Option.map_eq_some_iff.mp hgroup
  obtain ⟨⟨entries, hread, -, hstate⟩, hothers⟩ :=
    (stateGroups_lossless (.cons ⟨hfirst, rfl⟩ (.nil _))).2 _ _ store' hsecond hresult
  exact ⟨store', hresult, ⟨entries, hread, hstate⟩, hothers "g1" (by decide)⟩

end Merovingian
