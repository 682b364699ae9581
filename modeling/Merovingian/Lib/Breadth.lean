import Merovingian.Lib.Keyed
import Mathlib.Data.List.Perm.Subperm
import Mathlib.Data.List.Shortlex

/-!
# Breadth-first walks

A walk takes nodes from the front of a queue and puts what it has not seen of their successors at
its end; a node that `expand` has nothing for is dropped.  A walk that empties its queue comes to
exactly the nodes that can be reached (`mem_walk_iff`), and it does empty it when its fuel covers
every node there is (`walk_ends`).  It comes to each node beside its roots once (`nodup_taken`), in
the order of the first paths to them (`taken_sorted`), so that an order of the nodes is kept exactly
where the paths keep it (`taken_pairwise_iff`).
-/

namespace Merovingian

open List Relation

namespace Breadth

variable {α : Type} [DecidableEq α] (expand : α → Option (List α))

/-- The nodes that are expanded, in order, and the queue that is left when the fuel is used up. -/
def walk : (fuel : ℕ) → (queue seen : List α) → List α × List α
  | 0, queue, _ => ([], queue)
  | _ + 1, [], _ => ([], [])
  | fuel + 1, a :: queue, seen =>
    match expand a with
    | none => walk fuel queue seen
    | some found =>
      let fresh := firstBy (fun b => b) seen found
      let rest := walk fuel (queue ++ fresh) (fresh ++ seen)
      (a :: rest.1, rest.2)

/-- The successors of a node, none where it is not expanded. -/
def successors (a : α) : List α := (expand a).getD []

/-- A walk that drops no node. -/
def walkAll (fuel : ℕ) (queue seen : List α) : List α × List α :=
  walk (fun a => some (successors expand a)) fuel queue seen

/-- From one node to another that is expanded, past none that is to be avoided. -/
def Step (avoid : List α) (a b : α) : Prop :=
  ∃ found, expand a = some found ∧ b ∈ found ∧ b ∉ avoid ∧ (expand b).isSome

variable {expand} {fuel : ℕ} {queue seen avoid : List α} {a : α}

lemma walk_cons_none (h : expand a = none) :
    walk expand (fuel + 1) (a :: queue) seen = walk expand fuel queue seen := by
  simp [walk, h]

lemma walk_cons_some {found fresh : List α} (h : expand a = some found)
    (hfresh : firstBy (fun b => b) seen found = fresh) :
    walk expand (fuel + 1) (a :: queue) seen =
      (a :: (walk expand fuel (queue ++ fresh) (fresh ++ seen)).1,
        (walk expand fuel (queue ++ fresh) (fresh ++ seen)).2) := by
  simp [walk, h, hfresh]

variable (expand fuel queue seen) in
lemma walk_eq_filter : (walk expand fuel queue seen).1 =
    (walkAll expand fuel queue seen).1.filter fun a => (expand a).isSome := by
  unfold walkAll
  fun_induction walk expand fuel queue seen with
  | case1 | case2 => simp [walk]
  | case3 fuel a queue seen hnone ih =>
    rw [walk_cons_some rfl rfl, filter_cons_of_neg (by simp [hnone]), ih]
    simp [successors, hnone, firstBy]
  | case4 fuel a queue seen found hfound fresh rest ih =>
    rw [walk_cons_some rfl rfl, filter_cons_of_pos (by simp [hfound]), ih, successors, hfound]
    rfl

lemma isSome_of_mem_walk (ha : a ∈ (walk expand fuel queue seen).1) : (expand a).isSome := by
  rw [walk_eq_filter] at ha
  exact (mem_filter.mp ha).2

/-! ### What is reached -/

lemma exists_path_of_mem_walk (havoid : avoid ⊆ seen) (ha : a ∈ (walk expand fuel queue seen).1) :
    ∃ r ∈ queue, (expand r).isSome ∧ ReflTransGen (Step expand avoid) r a := by
  fun_induction walk expand fuel queue seen with
  | case1 | case2 => cases ha
  | case3 _ _ _ _ _ ih =>
    obtain ⟨r, hr, hpath⟩ := ih havoid ha
    exact ⟨r, mem_cons_of_mem _ hr, hpath⟩
  | case4 fuel b queue seen found hfound fresh rest ih =>
    have hb : (expand b).isSome := by simp [hfound]
    rcases mem_cons.mp ha with rfl | ha
    · exact ⟨a, mem_cons_self, hb, .refl⟩
    · obtain ⟨r, hr, hsome, hpath⟩ := ih (Subset.trans havoid (subset_append_right _ _)) ha
      rcases mem_append.mp hr with hr | hr
      · exact ⟨r, mem_cons_of_mem _ hr, hsome, hpath⟩
      · obtain ⟨hin, hout⟩ := mem_of_mem_firstBy hr
        have hstep : Step expand avoid b r := ⟨found, hfound, hin, fun h => hout (havoid h), hsome⟩
        exact ⟨b, mem_cons_self, hb, .head hstep hpath⟩

/-- A walk that empties its queue expands what the queue held and what those nodes lead to, but
for what was seen before. -/
lemma walk_closed (hend : (walk expand fuel queue seen).2 = []) :
    (∀ r ∈ queue, (expand r).isSome → r ∈ (walk expand fuel queue seen).1) ∧
      ∀ a ∈ (walk expand fuel queue seen).1, ∀ b, Step expand seen a b →
        b ∈ (walk expand fuel queue seen).1 := by
  fun_induction walk expand fuel queue seen with
  | case1 => simp_all
  | case2 => simp
  | case3 fuel b queue seen hnone ih =>
    refine ⟨fun r hr hsome => ?_, (ih hend).2⟩
    rcases mem_cons.mp hr with rfl | hr
    · simp [hnone] at hsome
    · exact (ih hend).1 r hr hsome
  | case4 fuel b queue seen found hfound fresh rest ih =>
    obtain ⟨hqueue, hclosed⟩ := ih hend
    refine ⟨fun r hr hsome => ?_, fun a ha c hstep => mem_cons_of_mem _ ?_⟩
    · rcases mem_cons.mp hr with rfl | hr
      · exact mem_cons_self
      · exact mem_cons_of_mem _ (hqueue r (mem_append_left _ hr) hsome)
    · obtain ⟨found', hfound', hc, hunseen, hsome⟩ := hstep
      by_cases hfresh : c ∈ fresh
      · exact hqueue c (mem_append_right _ hfresh) hsome
      · rcases mem_cons.mp ha with rfl | ha
        · have hfirst : ∃ c' ∈ fresh, c' = c :=
            exists_mem_firstBy (Option.some.inj (hfound.symm.trans hfound') ▸ hc) hunseen
          obtain ⟨c', hc', rfl⟩ := hfirst
          exact absurd hc' hfresh
        · exact hclosed a ha c ⟨found', hfound', hc, by simp [hfresh, hunseen], hsome⟩

/-- A walk that empties its queue expands exactly what can be reached. -/
theorem mem_walk_iff (hend : (walk expand fuel queue (avoid ++ queue)).2 = []) :
    a ∈ (walk expand fuel queue (avoid ++ queue)).1 ↔
      ∃ r ∈ queue, (expand r).isSome ∧ ReflTransGen (Step expand avoid) r a := by
  refine ⟨exists_path_of_mem_walk (subset_append_left _ _), ?_⟩
  rintro ⟨r, hr, hsome, hpath⟩
  obtain ⟨hqueue, hclosed⟩ := walk_closed hend
  induction hpath with
  | refl => exact hqueue r hr hsome
  | @tail b c _ hstep ih =>
    -- a node of the queue was seen before the walk began, and is expanded all the same
    obtain ⟨found, hfound, hc, hout, hsome⟩ := hstep
    by_cases hin : c ∈ queue
    · exact hqueue c hin hsome
    · exact hclosed b ih c ⟨found, hfound, hc, by simp [hout, hin], hsome⟩

/-! ### How long -/

lemma nodup_firstBy_append (hseen : seen.Nodup) (found : List α) :
    (firstBy (fun b => b) seen found ++ seen).Nodup :=
  nodup_append'.mpr
    ⟨(nodup_firstBy seen found).of_map, hseen, fun _ hb => (mem_of_mem_firstBy hb).2⟩

/-- A walk empties its queue when its fuel covers every node: each turn takes one from the queue,
and what is put there is new. -/
lemma walk_ends {nodes : List α} (hnodes : ∀ a found, expand a = some found → found ⊆ nodes)
    (hseen : seen.Nodup) (hsub : seen ⊆ nodes)
    (hfuel : queue.length + nodes.length ≤ fuel + seen.length) :
    (walk expand fuel queue seen).2 = [] := by
  have hroom : seen.length ≤ nodes.length := (hseen.subperm hsub).length_le
  fun_induction walk expand fuel queue seen with
  | case1 seen queue =>
    show queue = []
    exact length_eq_zero_iff.mp (by omega)
  | case2 => rfl
  | case3 fuel b queue seen hnone ih =>
    rw [length_cons] at hfuel
    exact ih hseen hsub (by omega) hroom
  | case4 fuel b queue seen found hfound fresh rest ih =>
    rw [length_cons] at hfuel
    have hnodup : (fresh ++ seen).Nodup := nodup_firstBy_append hseen found
    have hfresh : fresh ++ seen ⊆ nodes := append_subset.mpr
      ⟨fun c hc => hnodes b found hfound (mem_of_mem_firstBy hc).1, hsub⟩
    refine ih hnodup hfresh ?_ (hnodup.subperm hfresh).length_le
    simp only [length_append]
    omega

omit [DecidableEq α] in
lemma pairwise_of_split {r : α → α → Prop} {l : List α}
    (h : ∀ u a v, l = u ++ a :: v → ∀ b ∈ v, r a b) : l.Pairwise r := by
  induction l with
  | nil => exact .nil
  | cons a l ih =>
    refine pairwise_cons.mpr ⟨h [] a l rfl, ih fun u c v hl => ?_⟩
    exact h (a :: u) c v (hl ▸ rfl)

omit [DecidableEq α] in
lemma mem_take_filter {limit : ℕ} {p : α → Bool} {l m : List α} (hnodup : (l ++ a :: m).Nodup)
    (ha : p a) : a ∈ ((l ++ a :: m).filter p).take limit ↔ (l.filter p).length < limit := by
  rw [filter_append, filter_cons_of_pos ha, take_append, mem_append]
  constructor
  · rintro (h | h)
    · exact absurd mem_cons_self
        (disjoint_of_nodup_append hnodup (mem_of_mem_filter (mem_of_mem_take h)))
    · by_contra hle
      rw [Nat.sub_eq_zero_of_le (not_lt.mp hle)] at h
      cases h
  · intro h
    obtain ⟨k, hk⟩ := Nat.exists_eq_succ_of_ne_zero (Nat.sub_ne_zero_of_lt h)
    rw [hk]
    exact .inr mem_cons_self

/-! ### In what order -/

section Order

variable (expand) (roots avoid : List α)

/-- A path of positions leads to a node: the place of a root, then that of each further node among
the successors of the one before it, none of them to be avoided. -/
inductive Leads : List ℕ → α → Prop
  | root {i : ℕ} {a : α} : roots[i]? = some a → Leads [i] a
  | step {path : List ℕ} {i : ℕ} {a b : α} :
    Leads path a → (successors expand a)[i]? = some b → b ∉ avoid → Leads (path ++ [i]) b

/-- Every path to `b` comes after a path to `a`: shorter paths come first, and those of one length
in the order of their positions. -/
def Nearer (a b : α) : Prop :=
  ∀ path, Leads expand roots avoid path b → ∃ other, Leads expand roots avoid other a ∧
    Shortlex (· < ·) other path

/-- A node that can be reached and is not a root. -/
def Found (a : α) : Prop :=
  a ∉ roots ∧ ∃ r ∈ roots, (expand r).isSome ∧ ReflTransGen (Step expand avoid) r a

/-- The first nodes that a walk comes to, its roots apart. -/
def taken (fuel limit : ℕ) : List α :=
  ((walk expand fuel roots (avoid ++ roots)).1.filter fun a => a ∉ roots).take limit

/-- Nodes nearer than `b` are as many as are taken, or use up the fuel together with the roots. -/
def Late (fuel limit : ℕ) (b : α) : Prop :=
  ∃ others : List α, others.Nodup ∧ (∀ a ∈ others, a ∉ roots ∧ Nearer expand roots avoid a b) ∧
    (limit ≤ (others.filter fun a => (expand a).isSome).length ∨
      fuel ≤ roots.length + others.length)

variable {expand roots avoid} {path other : List ℕ} {i j limit : ℕ} {b : α}

lemma shortlex_append_singleton (h : Shortlex (· < ·) other path) :
    Shortlex (· < ·) (other ++ [i]) (path ++ [j]) := by
  rcases shortlex_def.mp h with hlt | ⟨hlength, hlex⟩
  · exact .of_length_lt (by simpa using hlt)
  · refine .of_lex (by simpa using hlength) ?_
    clear h
    induction hlex with
    | nil => cases hlength
    | cons _ ih => exact .cons (ih (Nat.succ.inj hlength))
    | rel h => exact .rel h

omit [DecidableEq α] in
lemma Nearer.asymm (h : Nearer expand roots avoid a b) (hpath : Leads expand roots avoid path b) :
    ¬ Nearer expand roots avoid b a := by
  intro h'
  have hwf : WellFounded (Shortlex (· < ·) : List ℕ → List ℕ → Prop) := Shortlex.wf Nat.lt_wfRel.wf
  have hnone : ∀ path, ¬ Leads expand roots avoid path a ∧ ¬ Leads expand roots avoid path b := by
    intro path
    induction path using hwf.induction with
    | _ path ih =>
      refine ⟨fun ha => ?_, fun hb => ?_⟩
      · obtain ⟨other, hother, hlt⟩ := h' path ha
        exact (ih other hlt).2 hother
      · obtain ⟨other, hother, hlt⟩ := h path hb
        exact (ih other hlt).1 hother
  exact (hnone path).2 hpath

lemma firstBy_congr {seen' : List α} (h : ∀ a, a ∈ seen ↔ a ∈ seen') (l : List α) :
    firstBy (fun b => b) seen l = firstBy (fun b => b) seen' l := by
  induction l generalizing seen seen' with
  | nil => rfl
  | cons a l ih =>
    have hcons : ∀ b, b ∈ a :: seen ↔ b ∈ a :: seen' := fun b => by rw [mem_cons, mem_cons, h b]
    simp only [firstBy, ih h, ih hcons, h a]

lemma firstBy_append (seen l m : List α) : firstBy (fun b => b) seen (l ++ m) =
    firstBy (fun b => b) seen l ++
      firstBy (fun b => b) (firstBy (fun b => b) seen l ++ seen) m := by
  induction l generalizing seen with
  | nil => rfl
  | cons a l ih =>
    rw [cons_append, firstBy, firstBy]
    split_ifs with hseen
    · exact ih seen
    · rw [ih, cons_append]
      congr 2
      exact firstBy_congr (fun b => by simp [or_left_comm]) m

/-- What is found before `b` occurs before each `b`. -/
lemma mem_of_firstBy_eq {l m u v : List α}
    (h : firstBy (fun b => b) seen (l ++ b :: m) = u ++ a :: v) (hb : b ∉ seen) (hu : b ∉ u)
    (hne : b ≠ a) : a ∈ l := by
  induction l generalizing seen u with
  | nil =>
    rw [nil_append, firstBy, if_neg hb] at h
    rcases cons_eq_append_iff.mp h with ⟨-, h⟩ | ⟨w, rfl, -⟩
    · exact absurd (cons_eq_cons.mp h).1.symm hne
    · exact absurd mem_cons_self hu
  | cons c l ih =>
    rw [cons_append, firstBy] at h
    split_ifs at h with hseen
    · exact mem_cons_of_mem _ (ih h hb hu)
    · rcases cons_eq_append_iff.mp h with ⟨-, h⟩ | ⟨w, rfl, hw⟩
      · exact (cons_eq_cons.mp h).1 ▸ mem_cons_self
      · obtain ⟨hc, hu⟩ := not_or.mp (mem_cons.not.mp hu)
        exact mem_cons_of_mem _ (ih hw (mem_cons.not.mpr (not_or.mpr ⟨hc, hb⟩)) hu)

variable (expand fuel queue seen) in
lemma walkAll_append_queue : (walkAll expand fuel queue seen).1 ++
    (walkAll expand fuel queue seen).2 = queue ++ firstBy (fun b => b) seen
      ((walkAll expand fuel queue seen).1.flatMap (successors expand)) := by
  unfold walkAll
  induction fuel generalizing queue seen with
  | zero => simp [walk, firstBy]
  | succ fuel ih =>
    cases queue with
    | nil => simp [walk, firstBy]
    | cons a queue =>
      rw [walk_cons_some rfl rfl, cons_append, ih, flatMap_cons, firstBy_append, cons_append,
        append_assoc]

variable (expand fuel queue seen) in
lemma length_walkAll : (walkAll expand fuel queue seen).1.length ≤ fuel ∧
    ((walkAll expand fuel queue seen).2 = [] ∨
      (walkAll expand fuel queue seen).1.length = fuel) := by
  unfold walkAll
  induction fuel generalizing queue seen with
  | zero => exact ⟨le_rfl, .inr rfl⟩
  | succ fuel ih =>
    cases queue with
    | nil => exact ⟨Nat.zero_le _, .inl rfl⟩
    | cons a queue =>
      rw [walk_cons_some rfl rfl, length_cons, Nat.add_le_add_iff_right, Nat.add_right_cancel_iff]
      exact ih _ _

variable {nodes left : List α} (hqueue : nodes ++ left =
  roots ++ firstBy (fun b => b) (avoid ++ roots) (nodes.flatMap (successors expand)))

include hqueue in
lemma eq_root_or_found {l m : List α} (hnodes : nodes = l ++ a :: m) :
    (∃ u, roots = l ++ a :: u) ∨ ∃ u v, l = roots ++ u ∧ firstBy (fun b => b) (avoid ++ roots)
      (nodes.flatMap (successors expand)) = u ++ a :: v := by
  rw [hnodes, append_assoc, ← hnodes] at hqueue
  rcases append_eq_append_iff.mp hqueue with ⟨u, hu, hv⟩ | ⟨u, hu, hv⟩
  · cases u with
    | nil => exact .inr ⟨[], _, by simpa using hu.symm, hv.symm⟩
    | cons c u =>
      obtain ⟨rfl, -⟩ := cons_eq_cons.mp hv
      exact .inl ⟨u, hu⟩
  · exact .inr ⟨u, _, hu, hv⟩

include hqueue in
/-- Each node of a walk is nearer than all that do not come before it: by induction on a path to
one of those, a path to its parent is not before all those to the parent of the node. -/
lemma nearer_of_queue {l m : List α} (hnodes : nodes = l ++ a :: m) (hl : b ∉ l) (hne : b ≠ a) :
    Nearer expand roots avoid a b := by
  intro path hpath
  induction hpath generalizing l a m with
  | @root i b hi =>
    rcases eq_root_or_found hqueue hnodes with ⟨u, hroots⟩ | ⟨u, v, rfl, -⟩
    · refine ⟨[l.length], .root (by simp [hroots]), (shortlex_singleton_iff _ _).mpr ?_⟩
      rw [hroots] at hi
      rcases lt_trichotomy i l.length with hlt | rfl | hlt
      · rw [getElem?_append_left hlt] at hi
        exact absurd (mem_of_getElem? hi) hl
      · simp [hne.symm] at hi
      · exact hlt
    · exact absurd (mem_append_left _ (mem_of_getElem? hi)) hl
  | @step path i c b hc hi havoid ih =>
    rcases eq_root_or_found hqueue hnodes with ⟨u, hroots⟩ | ⟨u, v, rfl, hfound⟩
    · refine ⟨[l.length], .root (by simp [hroots]), .of_length_lt ?_⟩
      cases hc <;> simp
    · obtain ⟨hroots, hu⟩ := not_or.mp (mem_append.not.mp hl)
      obtain ⟨hin, hnew⟩ : a ∈ nodes.flatMap (successors expand) ∧ a ∉ avoid ++ roots :=
        mem_of_mem_firstBy (hfound ▸ mem_append_right _ mem_cons_self)
      have hout : a ∉ avoid := fun h => hnew (mem_append_left _ h)
      have hparent : ∀ e d f, nodes = e ++ d :: f → c ∉ e → c ≠ d → a ∈ successors expand d →
          ∃ other, Leads expand roots avoid other a ∧ Shortlex (· < ·) other (path ++ [i]) := by
        intro e d f hsplit he hd ha
        obtain ⟨other, hother, hlt⟩ := ih hsplit he hd
        obtain ⟨j, hj⟩ := getElem?_of_mem ha
        exact ⟨other ++ [j], .step hother hj hout, shortlex_append_singleton hlt⟩
      by_cases hmem : c ∈ nodes
      · obtain ⟨e, f, hsplit, he⟩ := eq_append_cons_of_mem hmem
        obtain ⟨hlt, hget⟩ := List.getElem?_eq_some_iff.mp hi
        have hflat : nodes.flatMap (successors expand) =
            (e.flatMap (successors expand) ++ (successors expand c).take i) ++
              b :: ((successors expand c).drop (i + 1) ++ f.flatMap (successors expand)) := by
          rw [hsplit, ← hget, ← cons_append, ← drop_eq_getElem_cons, append_assoc,
            ← append_assoc (take i _), take_append_drop, flatMap_append, flatMap_cons]
        rw [hflat] at hfound
        have hbefore := mem_of_firstBy_eq hfound
          (mem_append.not.mpr (not_or.mpr ⟨havoid, hroots⟩)) hu hne
        rcases mem_append.mp hbefore with ha | ha
        · obtain ⟨d, hd, had⟩ := mem_flatMap.mp ha
          obtain ⟨g, h, rfl⟩ := append_of_mem hd
          obtain ⟨hg, hd⟩ := not_or.mp (mem_append.not.mp he)
          refine hparent g d (h ++ c :: f) (by simp [hsplit]) hg ?_ had
          exact fun h => hd (h ▸ mem_cons_self)
        · obtain ⟨j, hj, rfl⟩ := mem_take_iff_getElem.mp ha
          obtain ⟨hji, hj⟩ := lt_min_iff.mp hj
          exact ⟨path ++ [j], .step hc (getElem?_eq_getElem hj) hout,
            ((shortlex_singleton_iff _ _).mpr hji).append_left path⟩
      · obtain ⟨d, hd, ha⟩ := mem_flatMap.mp hin
        obtain ⟨e, f, hsplit⟩ := append_of_mem hd
        refine hparent e d f hsplit (fun h => hmem ?_) ?_ ha
        · exact hsplit ▸ mem_append_left _ h
        · rintro rfl
          exact hmem hd

/-! ### What is taken of a walk -/

omit [DecidableEq α] in
lemma Found.isSome (h : Found expand roots avoid a) : (expand a).isSome := by
  obtain ⟨-, r, -, hr, hpath⟩ := h
  cases hpath with
  | refl => exact hr
  | tail _ hstep =>
    obtain ⟨_, _, _, _, hsome⟩ := hstep
    exact hsome

omit [DecidableEq α] in
lemma Found.leads (h : Found expand roots avoid a) :
    ∃ path, Leads expand roots avoid path a := by
  obtain ⟨-, r, hr, -, hpath⟩ := h
  induction hpath with
  | refl =>
    obtain ⟨i, hi⟩ := getElem?_of_mem hr
    exact ⟨[i], .root hi⟩
  | tail _ hstep ih =>
    obtain ⟨path, hpath⟩ := ih
    obtain ⟨found, hfound, hb, hout, -⟩ := hstep
    obtain ⟨i, hi⟩ := getElem?_of_mem hb
    exact ⟨path ++ [i], .step hpath (by simpa [successors, hfound] using hi) hout⟩

lemma found_of_mem_taken (h : a ∈ taken expand roots avoid fuel limit) :
    Found expand roots avoid a := by
  obtain ⟨hwalk, hroot⟩ := mem_filter.mp (mem_of_mem_take h)
  exact ⟨of_decide_eq_true hroot, exists_path_of_mem_walk (subset_append_left _ _) hwalk⟩

variable (expand roots avoid fuel limit) in
/-- What a walk finds beside its roots, each nearer than all that is not found before it. -/
lemma exists_taken_eq : ∃ rest : List α, rest.Nodup ∧ (∀ a ∈ rest, a ∉ roots) ∧
    taken expand roots avoid fuel limit = (rest.filter fun a => (expand a).isSome).take limit ∧
    (rest ≠ [] → roots.length + rest.length ≤ fuel) ∧
    (∀ b, Found expand roots avoid b → b ∉ rest → fuel ≤ roots.length + rest.length) ∧
    ∀ l a m, rest = l ++ a :: m → ∀ b, b ∉ roots → b ∉ l → b ≠ a →
      Nearer expand roots avoid a b := by
  have hqueue := walkAll_append_queue expand fuel roots (avoid ++ roots)
  obtain ⟨hlength, hend⟩ := length_walkAll expand fuel roots (avoid ++ roots)
  -- the roots come first, as many of them as there is fuel for
  obtain ⟨first, rest, hnodes, hfirst, hall, hsub⟩ : ∃ first rest,
      (walkAll expand fuel roots (avoid ++ roots)).1 = first ++ rest ∧ first <+: roots ∧
      (rest ≠ [] → first = roots) ∧ rest.Sublist (firstBy (fun b => b) (avoid ++ roots)
        ((walkAll expand fuel roots (avoid ++ roots)).1.flatMap (successors expand))) := by
    rcases append_eq_append_iff.mp hqueue with ⟨u, hu, -⟩ | ⟨u, hu, hv⟩
    · exact ⟨_, [], (append_nil _).symm, ⟨u, hu.symm⟩, absurd rfl, nil_sublist _⟩
    · exact ⟨roots, u, hu, prefix_rfl, fun _ => rfl, hv ▸ sublist_append_left u _⟩
  have hnew : ∀ a ∈ rest, a ∉ roots := fun a ha h =>
    (mem_of_mem_firstBy (hsub.subset ha)).2 (mem_append_right _ h)
  rw [hnodes, length_append] at hlength hend
  refine ⟨rest, (nodup_firstBy _ _).of_map.sublist hsub, hnew, ?_, fun hrest => ?_,
    fun b hb hout => ?_, fun l a m hrest b hroot hl hne => ?_⟩
  · rw [taken, walk_eq_filter, hnodes, filter_append, filter_append, filter_filter, filter_filter,
      filter_eq_nil_iff.mpr, nil_append]
    · refine congrArg (take limit) (filter_congr fun a ha => ?_)
      rw [decide_eq_true (hnew a ha), Bool.true_and]
    · intro a ha
      simp [hfirst.subset ha]
  · rw [← hall hrest]
    exact hlength
  · have hfull := hend.resolve_left fun hend => hout ?_
    · have hle := hfirst.length_le
      omega
    · obtain ⟨hroot, r, hr, -, hpath⟩ := hb
      have hsteps : ReflTransGen (Step (fun a => some (successors expand a)) avoid) r b := by
        refine ReflTransGen.mono ?_ r b hpath
        rintro a c ⟨found, hfound, hc, hout, -⟩
        exact ⟨found, by simp [successors, hfound], hc, hout, rfl⟩
      have hmem : b ∈ (walkAll expand fuel roots (avoid ++ roots)).1 :=
        (mem_walk_iff hend).mpr ⟨r, hr, rfl, hsteps⟩
      rw [hnodes] at hmem
      exact (mem_append.mp hmem).resolve_left fun h => hroot (hfirst.subset h)
  · rw [hrest, ← append_assoc] at hnodes
    exact nearer_of_queue hqueue hnodes
      (mem_append.not.mpr (not_or.mpr ⟨fun h => hroot (hfirst.subset h), hl⟩)) hne

lemma nodup_taken : (taken expand roots avoid fuel limit).Nodup := by
  obtain ⟨rest, hnodup, -, htaken, -⟩ := exists_taken_eq expand fuel roots avoid limit
  rw [htaken]
  exact hnodup.sublist ((take_sublist _ _).trans filter_sublist)

lemma taken_sorted : (taken expand roots avoid fuel limit).Pairwise
    (Nearer expand roots avoid) := by
  obtain ⟨rest, hnodup, hnew, htaken, -, -, hnearer⟩ :=
    exists_taken_eq expand fuel roots avoid limit
  rw [htaken]
  refine Pairwise.sublist ((take_sublist _ _).trans filter_sublist) (pairwise_of_split ?_)
  rintro l a m rfl b hb
  obtain ⟨-, hm, hdisjoint⟩ := nodup_append'.mp hnodup
  refine hnearer l a m rfl b (hnew b (by simp [hb])) (fun h => ?_) ?_
  · exact hdisjoint h (mem_cons_of_mem _ hb)
  · rintro rfl
    exact (nodup_cons.mp hm).1 hb

lemma nearer_of_mem_taken (ha : a ∈ taken expand roots avoid fuel limit)
    (hfound : Found expand roots avoid b) (hb : b ∉ taken expand roots avoid fuel limit) :
    Nearer expand roots avoid a b := by
  obtain ⟨rest, hnodup, -, htaken, -, -, hnearer⟩ := exists_taken_eq expand fuel roots avoid limit
  rw [htaken] at ha hb
  obtain ⟨hrest, hsome⟩ := mem_filter.mp (mem_of_mem_take ha)
  obtain ⟨l, m, rfl⟩ := append_of_mem hrest
  have hroom := (mem_take_filter hnodup hsome).mp ha
  refine hnearer l a m rfl b hfound.1 (fun h => hb ?_) ?_
  · rw [filter_append, take_append, take_of_length_le hroom.le]
    exact mem_append_left _ (mem_filter.mpr ⟨h, hfound.isSome⟩)
  · rintro rfl
    exact hb ha

/-- What can be reached is taken, unless it is late. -/
lemma mem_taken_iff (hfound : Found expand roots avoid b) :
    b ∈ taken expand roots avoid fuel limit ↔ ¬ Late expand roots avoid fuel limit b := by
  obtain ⟨rest, hnodup, hnew, htaken, hfuel, hfull, hnearer⟩ :=
    exists_taken_eq expand fuel roots avoid limit
  rw [htaken]
  constructor
  · rintro hb ⟨others, hothers, hbefore, hmany⟩
    obtain ⟨l, m, rfl⟩ := append_of_mem (mem_filter.mp (mem_of_mem_take hb)).1
    have hroom := (mem_take_filter hnodup hfound.isSome).mp hb
    have hsub : others ⊆ l := by
      intro a ha
      obtain ⟨hout, hlt⟩ := hbefore a ha
      obtain ⟨path, hpath⟩ := hfound.leads
      by_contra hl
      by_cases hne : a = b
      · exact hlt.asymm hpath (hne ▸ hlt)
      · exact hlt.asymm hpath (hnearer l b m rfl a hout hl hne)
    have hle := ((hothers.filter fun a => (expand a).isSome).subperm
      (List.filter_subset _ hsub)).length_le
    have hle' := (hothers.subperm hsub).length_le
    have hroom' := hfuel (by simp)
    rw [length_append, length_cons] at hroom'
    omega
  · intro hlate
    by_contra hb
    refine hlate ?_
    by_cases hrest : b ∈ rest
    · obtain ⟨l, m, rfl⟩ := append_of_mem hrest
      obtain ⟨hl, -, hdisjoint⟩ := nodup_append'.mp hnodup
      rw [mem_take_filter hnodup hfound.isSome] at hb
      refine ⟨l, hl, fun a ha => ⟨hnew a (mem_append_left _ ha), ?_⟩, .inl (not_lt.mp hb)⟩
      obtain ⟨u, v, rfl⟩ := append_of_mem ha
      refine hnearer u a (v ++ b :: m) (by simp) b hfound.1 ?_ ?_
      · exact fun h => hdisjoint (mem_append_left _ h) mem_cons_self
      · rintro rfl
        exact hdisjoint ha mem_cons_self
    · refine ⟨rest, hnodup, fun a ha => ⟨hnew a ha, ?_⟩, .inr (hfull b hfound hrest)⟩
      obtain ⟨l, m, rfl⟩ := append_of_mem ha
      refine hnearer l a m rfl b hfound.1 (fun h => hrest (mem_append_left _ h)) ?_
      rintro rfl
      exact hrest ha

/-- Nothing is taken after what `r` takes it to, exactly where all that can be reached is nearer
than what `r` takes it to, or late. -/
theorem taken_pairwise_iff (r : α → α → Prop) :
    ((taken expand roots avoid fuel limit).Pairwise fun a b => ¬ r b a) ↔
      ∀ a b, Found expand roots avoid a → Found expand roots avoid b → a ≠ b → r a b →
        Nearer expand roots avoid a b ∨ Late expand roots avoid fuel limit a := by
  constructor
  · intro h a b ha hb hne hr
    by_contra hnot
    obtain ⟨hnot, hlate⟩ := not_or.mp hnot
    have hin := (mem_taken_iff ha).mpr hlate
    by_cases hout : b ∈ taken expand roots avoid fuel limit
    · obtain ⟨l, m, hsplit⟩ := append_of_mem hin
      have hsorted : (taken expand roots avoid fuel limit).Pairwise _ := taken_sorted
      rw [hsplit] at hsorted h hout
      rcases mem_append.mp hout with hb | hb
      · exact (pairwise_append.mp h).2.2 b hb a mem_cons_self hr
      · exact hnot (rel_of_pairwise_cons (pairwise_append.mp hsorted).2.1
          ((mem_cons.mp hb).resolve_left hne.symm))
    · exact hnot (nearer_of_mem_taken hin hb hout)
  · intro h
    refine taken_sorted.imp_of_mem fun {a b} ha hb hlt hr => ?_
    have hfound := found_of_mem_taken hb
    obtain ⟨path, hpath⟩ := hfound.leads
    have hne : b ≠ a := by
      rintro rfl
      exact hlt.asymm hpath hlt
    rcases h b a hfound (found_of_mem_taken ha) hne hr with hgt | hlate
    · exact hlt.asymm hpath hgt
    · exact (mem_taken_iff hfound).mp hb hlate

end Order

lemma append_take_cons {β : Type} {limit : ℕ} {taken : List β} (h : taken.length < limit) (b : β)
    (rest : List β) : taken ++ (b :: rest).take (limit - taken.length) =
      taken ++ [b] ++ rest.take (limit - (taken ++ [b]).length) := by
  have hroom : limit - taken.length = limit - (taken ++ [b]).length + 1 := by
    rw [length_append, length_singleton]
    omega
  rw [hroom, take_succ_cons, append_assoc, singleton_append]

end Breadth

end Merovingian
