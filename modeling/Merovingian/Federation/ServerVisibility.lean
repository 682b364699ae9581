import Merovingian.Federation.ServerEventFilter

/-!
# Server visibility is decided by the state at the event

`ServerEventFilter` never rebuilds the state of a group.  It looks the visibility up along the
chain of the group, and in a second walk it visits the member entries of the requesting server's
users, newest first, and stops at the first join.  Where `read_state_group_full_state` can rebuild
the state, the verdict is the one that the state gives (`sees_iff_allowed`).  The rebuilt state's
joined keys agree with the walks because no type holds a NUL.
-/

namespace Merovingian

open List

namespace ServerEventFilter

variable (filter : ServerEventFilter)

/-! ### What a state says -/

/-- The visibility that an event sets. -/
def visibilitySetBy (eventId : Str) : ServerVisibility :=
  (((filter.findEvent eventId).bind fun event =>
    contentStringOf filter.parseLossless event.json "history_visibility").map
      parseServerVisibility).getD .shared

/-- The visibility in a state.  It is `shared` where it is absent or cannot be read. -/
def visibilityIn (state : List StateGroupEntry) : ServerVisibility :=
  match stateOf state (historyVisibilityType, []) with
  | none => .shared
  | some eventId => filter.visibilitySetBy eventId

/-- The membership that the event of an entry sets. -/
def membershipOf (entry : StateGroupEntry) : Option Str :=
  (filter.findEvent entry.eventId).bind fun event =>
    contentStringOf filter.parseLossless event.json "membership"

/-- A member entry of a user of the requesting server. -/
def ofOrigin (entry : StateGroupEntry) : Bool :=
  entry.eventType = memberType && userIdServerName entry.stateKey = filter.origin

/-- A user of the requesting server has this membership in a state. -/
def HasMember (state : List StateGroupEntry) (membership : Str) : Prop :=
  ∃ entry ∈ state, filter.ofOrigin entry ∧ filter.membershipOf entry = some membership

/-- The rule, as a state decides it. -/
def AllowedIn (state : List StateGroupEntry) : Prop :=
  match filter.visibilityIn state with
  | .worldReadable => True
  | .shared => True
  | .invited => filter.HasMember state "invite" ∨ filter.HasMember state "join"
  | .joined => filter.HasMember state "join"

variable {filter} {shadowed : List Str} {entry : StateGroupEntry}
  {entries state : List StateGroupEntry}
  {view : GroupView}

/-! ### The walk over the members -/

/-- The entries that the walk looks at: the first of each user of the requesting server. -/
def scanned (filter : ServerEventFilter) (shadowed : List Str) (entries : List StateGroupEntry) :
    List StateGroupEntry :=
  firstBy StateGroupEntry.stateKey shadowed (entries.filter filter.ofOrigin)

lemma scanned_cons_of_not
    (h : entry.eventType ≠ memberType ∨ userIdServerName entry.stateKey ≠ filter.origin ∨
      entry.stateKey ∈ shadowed) :
    filter.scanned shadowed (entry :: entries) = filter.scanned shadowed entries := by
  rw [scanned, scanned, filter_cons]
  by_cases hmine : filter.ofOrigin entry = true
  · have hshadowed : entry.stateKey ∈ shadowed := by
      simp only [ofOrigin, Bool.and_eq_true, decide_eq_true_eq] at hmine
      exact (h.resolve_left (not_not.mpr hmine.1)).resolve_left (not_not.mpr hmine.2)
    rw [if_pos hmine, firstBy, if_pos hshadowed]
  · rw [if_neg hmine]

section

variable (h : ¬ (entry.eventType ≠ memberType ∨
    userIdServerName entry.stateKey ≠ filter.origin ∨ entry.stateKey ∈ shadowed))

include h

lemma scanned_cons :
    filter.scanned shadowed (entry :: entries) =
      entry :: filter.scanned (entry.stateKey :: shadowed) entries := by
  simp only [not_or, not_not] at h
  have hmine : filter.ofOrigin entry = true := by simp [ofOrigin, h.1, h.2.1]
  rw [scanned, scanned, filter_cons, if_pos hmine, firstBy, if_neg h.2.2]

lemma scanEntries_cons (hheld : (filter.findEvent entry.eventId).isSome) :
    filter.scanEntries shadowed view (entry :: entries) =
      if filter.membershipOf entry = some (lit "join") then
        .joined ⟨view.valid, view.visibility, true, true⟩
      else filter.scanEntries (entry.stateKey :: shadowed)
        ⟨view.valid, view.visibility, view.originJoined,
          view.originInvitedOrJoined || filter.membershipOf entry = some (lit "invite")⟩ entries := by
  obtain ⟨memberEvent, hfind⟩ := Option.isSome_iff_exists.mp hheld
  have hmembership : filter.membershipOf entry =
      contentStringOf filter.parseLossless memberEvent.json "membership" := by
    rw [membershipOf, hfind, Option.bind_some]
  rw [scanEntries, if_neg h, hfind, hmembership]
  by_cases hinvite : contentStringOf filter.parseLossless memberEvent.json "membership" =
      some (lit "invite")
  · simp [hinvite]
  · simp [hinvite]

end

/-- The walk ends at a join.  Without one it goes on to the end, and has noted whether there is an
invite. -/
lemma scanEntries_eq
    (hheld : ∀ entry ∈ filter.scanned shadowed entries, (filter.findEvent entry.eventId).isSome) :
    ∃ shadowed', filter.scanEntries shadowed view entries =
      if ∃ entry ∈ filter.scanned shadowed entries,
          filter.membershipOf entry = some (lit "join") then
        .joined ⟨view.valid, view.visibility, true, true⟩ else .more shadowed'
        { view with originInvitedOrJoined := view.originInvitedOrJoined || (filter.scanned shadowed
          entries).any fun entry => filter.membershipOf entry = some (lit "invite") } := by
  induction entries generalizing shadowed view with
  | nil => exact ⟨shadowed, by simp [scanEntries, scanned, firstBy]⟩
  | cons entry entries ih =>
    by_cases hskip : entry.eventType ≠ memberType ∨
        userIdServerName entry.stateKey ≠ filter.origin ∨ entry.stateKey ∈ shadowed
    · rw [scanned_cons_of_not hskip] at hheld ⊢
      rw [scanEntries, if_pos hskip]
      exact ih hheld
    · rw [scanned_cons hskip] at hheld ⊢
      rw [scanEntries_cons hskip (hheld entry mem_cons_self)]
      simp only [mem_cons, exists_eq_or_imp, any_cons, ← Bool.or_assoc]
      by_cases hjoin : filter.membershipOf entry = some (lit "join")
      · exact ⟨shadowed, by rw [if_pos hjoin, if_pos (.inl hjoin)]⟩
      · simp only [hjoin, false_or]
        exact ih fun e he => hheld e (mem_cons_of_mem _ he)

lemma scanEntries_append (shadowed : List Str) (view : GroupView) (a b : List StateGroupEntry) :
    filter.scanEntries shadowed view (a ++ b) = match filter.scanEntries shadowed view a with
      | .failed view => .failed view
      | .joined view => .joined view
      | .more shadowed view => filter.scanEntries shadowed view b := by
  fun_induction scanEntries filter shadowed view a with
  | case1 => rfl
  | case2 shadowed view entry entries hskip ih =>
    rw [cons_append, scanEntries, if_pos hskip, ih]
  | case3 shadowed view entry entries hskip hfind =>
    rw [cons_append, scanEntries, if_neg hskip, hfind]
  | case4 shadowed view entry entries hskip memberEvent hfind membership hjoin =>
    rw [cons_append, scanEntries, if_neg hskip, hfind]
    exact if_pos hjoin
  | case5 shadowed view entry entries hskip memberEvent hfind membership hjoin hinvite ih =>
    rw [cons_append, scanEntries, if_neg hskip, hfind, ← ih]
    exact (if_neg hjoin).trans (if_pos hinvite)
  | case6 shadowed view entry entries hskip memberEvent hfind membership hjoin hinvite ih =>
    rw [cons_append, scanEntries, if_neg hskip, hfind, ← ih]
    exact (if_neg hjoin).trans (if_neg hinvite)

/-- What a walk returns. -/
def Scan.result : Scan → Bool × GroupView
  | .failed view => (false, view)
  | .joined view => (true, view)
  | .more _ view => (true, view)

lemma scanFrom_of_readChain {remaining : ℕ} {visited : List Str} {current : Str}
    {chain : List PersistentStateGroup}
    (h : readChain filter.store.groups remaining visited current = some chain)
    (shadowed : List Str) (view : GroupView) :
    filter.scanFrom remaining visited current shadowed view =
      (filter.scanEntries shadowed view (chainEntries filter.store.groups chain)).result := by
  revert shadowed view
  refine readChain_induction ?_ ?_ h
  · intro remaining visited current group hvisited hfind hparent shadowed view
    rw [scanFrom, if_neg hvisited, hfind, chainEntries_cons hfind, scanEntries_append]
    cases filter.scanEntries shadowed view
        (filter.store.groups.stateGroupState.entriesOf current) with
    | failed view => rfl
    | joined view => rfl
    | more shadowed view =>
      simp only [hparent]
      rfl
  · intro remaining visited current group parent chain hvisited hfind hparent ih shadowed view
    rw [scanFrom, if_neg hvisited, hfind, chainEntries_cons hfind, scanEntries_append]
    cases filter.scanEntries shadowed view
        (filter.store.groups.stateGroupState.entriesOf current) with
    | failed view => rfl
    | joined view => rfl
    | more shadowed view =>
      simp only [hparent]
      exact ih shadowed view

/-! ### Compared with the state -/

section State

variable {groupId : Str} {chain : List PersistentStateGroup}

lemma mem_scanned_iff (hnul : ∀ entry ∈ entries, 0 ∉ entry.eventType) :
    entry ∈ filter.scanned [] entries ↔
      entry ∈ firstBy stateGroupEntryKey [] entries ∧ filter.ofOrigin entry = true := by
  have hread : filter.ofOrigin entry = true →
      (lookupBy StateGroupEntry.stateKey (entries.filter filter.ofOrigin) entry.stateKey =
        lookupBy stateGroupEntryKey entries (stateGroupEntryKey entry)) := by
    intro hmine
    simp only [ofOrigin, Bool.and_eq_true, decide_eq_true_eq] at hmine
    have hmember : (0 : UInt8) ∉ memberType := by decide
    rw [lookupBy, find?_filter]
    refine find?_congr fun other hother => ?_
    -- among types without NUL, equal joined keys are equal slots
    have hkey : stateGroupEntryKey other = stateGroupEntryKey entry ↔
        other.eventType = memberType ∧ other.stateKey = entry.stateKey := by
      constructor
      · intro hsame
        rw [stateGroupEntryKey, stateGroupEntryKey, hmine.1] at hsame
        exact append_nul_inj (hnul other hother) hmember hsame
      · rintro ⟨htype, hstate⟩
        rw [stateGroupEntryKey, stateGroupEntryKey, htype, hstate, hmine.1]
    by_cases hstate : other.stateKey = entry.stateKey
    · simp [ofOrigin, hkey, hstate, hmine.2]
    · simp [hkey, hstate]
  rw [scanned, mem_firstBy_iff, mem_firstBy_iff]
  constructor
  · intro h
    have hmine : filter.ofOrigin entry = true := (mem_filter.mp (mem_of_lookupBy h)).2
    exact ⟨(hread hmine).symm.trans h, hmine⟩
  · rintro ⟨h, hmine⟩
    exact (hread hmine).trans h

lemma scanOriginMembership_of_read
    (hchain : readChain filter.store.groups maxStateGroupDeltaDepth [] groupId = some chain)
    (hnul : ∀ entry ∈ chainEntries filter.store.groups chain, 0 ∉ entry.eventType)
    (hstate : state = firstBy stateGroupEntryKey [] (chainEntries filter.store.groups chain))
    (hheld : ∀ entry ∈ state, (filter.findEvent entry.eventId).isSome) (visibility : ServerVisibility) :
    ∃ view : GroupView,
      filter.scanOriginMembership groupId ⟨true, visibility, false, false⟩ = (true, view) ∧
      view.visibility = visibility ∧
      (view.originJoined = true ↔ filter.HasMember state "join") ∧
      (view.originInvitedOrJoined = true ↔
        filter.HasMember state "invite" ∨ filter.HasMember state "join") := by
  have hmem : ∀ entry, entry ∈ filter.scanned [] (chainEntries filter.store.groups chain) ↔
      entry ∈ state ∧ filter.ofOrigin entry = true := by
    intro entry
    rw [hstate]
    exact mem_scanned_iff hnul
  have hhas : ∀ membership, filter.HasMember state membership ↔
      ∃ entry ∈ filter.scanned [] (chainEntries filter.store.groups chain),
        filter.membershipOf entry = some membership := by
    intro membership
    constructor
    · rintro ⟨entry, hentry, hmine, hmembership⟩
      exact ⟨entry, (hmem entry).mpr ⟨hentry, hmine⟩, hmembership⟩
    · rintro ⟨entry, hentry, hmembership⟩
      exact ⟨entry, ((hmem entry).mp hentry).1, ((hmem entry).mp hentry).2, hmembership⟩
  have hheld' : ∀ entry ∈ filter.scanned [] (chainEntries filter.store.groups chain),
      (filter.findEvent entry.eventId).isSome :=
    fun entry hentry => hheld entry ((hmem entry).mp hentry).1
  obtain ⟨shadowed, hscan⟩ := scanEntries_eq hheld'
  rw [scanOriginMembership, scanFrom_of_readChain hchain, hscan]
  by_cases hjoin : filter.HasMember state "join"
  · rw [if_pos ((hhas _).mp hjoin)]
    exact ⟨_, rfl, rfl, by simp [hjoin], by simp [hjoin]⟩
  · rw [if_neg fun h => hjoin ((hhas _).mpr h)]
    refine ⟨_, rfl, rfl, by simp [hjoin], ?_⟩
    rw [Bool.false_or, or_iff_left hjoin, hhas]
    simp

lemma computeView_visible_iff
    (hread : readStateGroupFullState filter.store.groups groupId = some state)
    (hnul : ∀ entry ∈ filter.store.groups.stateGroupState.rows, 0 ∉ entry.eventType)
    (hheld : ∀ entry ∈ state, (filter.findEvent entry.eventId).isSome) :
    (filter.computeView groupId).visible = true ↔ filter.AllowedIn state := by
  obtain ⟨chain, hchain, hstate⟩ := Option.map_eq_some_iff.mp hread
  have hnulChain : ∀ entry ∈ chainEntries filter.store.groups chain, 0 ∉ entry.eventType :=
    fun entry hentry => hnul entry (mem_rows_of_mem_chainEntries hentry)
  have hlookup : filter.lookupInGroup groupId historyVisibilityType [] =
      .ofOption (stateOf state (historyVisibilityType, [])) := by
    rw [lookupInGroup, lookupStateInGroup_of_read hchain hnulChain (by decide), hstate]
  -- the visibility event is held, being named by the state
  have hview : filter.visibilityView (filter.lookupInGroup groupId historyVisibilityType []) =
      ⟨true, filter.visibilityIn state, false, false⟩ := by
    rw [hlookup, visibilityIn]
    cases hslot : stateOf state (historyVisibilityType, []) with
    | none => rfl
    | some eventId =>
      obtain ⟨entry, hentry, rfl⟩ := Option.map_eq_some_iff.mp hslot
      obtain ⟨event, hfind⟩ := Option.isSome_iff_exists.mp (hheld entry (mem_of_lookupBy hentry))
      simp [GroupLookup.ofOption, visibilityView, visibilitySetBy, hfind]
  have hbroken : filter.lookupInGroup groupId historyVisibilityType [] ≠ .broken := by
    rw [hlookup]
    cases stateOf state (historyVisibilityType, []) <;> simp [GroupLookup.ofOption]
  rw [computeView, if_neg hbroken, hview, AllowedIn]
  obtain ⟨view, hscan, hvisibility, hjoined, hinvited⟩ :=
    scanOriginMembership_of_read hchain hnulChain hstate.symm hheld (filter.visibilityIn state)
  cases hwhich : filter.visibilityIn state with
  | worldReadable | shared => simp [GroupView.visible]
  | invited =>
    rw [hwhich] at hscan hvisibility
    simp [hscan, GroupView.visible, hvisibility, hinvited]
  | joined =>
    rw [hwhich] at hscan hvisibility
    simp [hscan, GroupView.visible, hvisibility, hjoined]

end State

/-- An event is seen by a server when the state recorded for it allows it. -/
theorem sees_iff_allowed (horigin : filter.origin ≠ []) {event : PersistentEvent} {groupId : Str}
    (hgroup : filter.groupOf event.eventId = some groupId)
    (hread : readStateGroupFullState filter.store.groups groupId = some state)
    (hnul : ∀ entry ∈ filter.store.groups.stateGroupState.rows, 0 ∉ entry.eventType)
    (hheld : ∀ entry ∈ state, (filter.findEvent entry.eventId).isSome) :
    filter.sees event = true ↔ filter.AllowedIn state := by
  rw [sees, if_neg horigin, hgroup]
  exact computeView_visible_iff hread hnul hheld

end ServerEventFilter

end Merovingian
