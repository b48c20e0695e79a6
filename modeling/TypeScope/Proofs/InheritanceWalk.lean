import TypeScope.Ingest
import TypeScope.Proofs.Lookups
import TypeScope.Proofs.Reach

/-! The walk over everything a type inherits from. Whatever the workspace holds, the walk ends,
meets each decorated name once, and meets what any definition on it inherits from. -/
namespace TypeScope
namespace Query

def Edge (id : ScopeId) (w : Workspace) (d t : Definition) : Prop :=
  (∃ i base, d.body.bases[i]? = some base ∧
    ((resolveBase id d i base).run
      ((resolveBases id d 0 (d.body.bases.take i)).run w).2).1 = some t) ∨
  (d.body.base = none ∧ d.fullName ≠ objectName ∧
    ∃ root, w.findType id .deep .exact objectName 0 = some root ∧ t = .ofDeclared root)

inductive Exhausts (id : ScopeId) :
    Walk → Workspace → List (Definition × Workspace) → Workspace → Prop where
  | ends {walk w last} (idle : (advance id walk).run w = (none, last)) :
      Exhausts id walk w [] last
  | meets {walk w d later after visits last}
      (next : (advance id walk).run w = (some (d, later), after))
      (rest : Exhausts id later after visits last) :
      Exhausts id walk w ((d, w) :: visits) last

section Bases

theorem memResolveBases (id : ScopeId) (owner t : Definition) (i : Nat) (bases : List TypeRef)
    (w : Workspace) :
    t ∈ ((resolveBases id owner i bases).run w).1 ↔ ∃ k base, bases[k]? = some base ∧
      ((resolveBase id owner (i + k) base).run
        ((resolveBases id owner i (bases.take k)).run w).2).1 = some t := by
  induction bases generalizing i w with
  | nil =>
    constructor
    · intro mem
      cases mem
    · rintro ⟨k, base, empty, -⟩
      cases empty
  | cons first rest ih =>
    have cut : ((resolveBases id owner i (first :: rest)).run w).1 =
        ((resolveBase id owner i first).run w).1.toList ++
          ((resolveBases id owner (i + 1) rest).run
            ((resolveBase id owner i first).run w).2).1 := rfl
    rw [cut, List.mem_append, ih, Option.mem_toList]
    constructor
    · rintro (now | ⟨k, base, later, found⟩)
      · exact ⟨0, first, rfl, now⟩
      · refine ⟨k + 1, base, later, ?_⟩
        rw [Nat.add_right_comm, Nat.add_assoc] at found
        exact found
    · rintro ⟨k, base, listed, found⟩
      cases k with
      | zero =>
        cases listed
        exact .inl found
      | succ k =>
        refine .inr ⟨k, base, listed, ?_⟩
        rw [Nat.add_right_comm, Nat.add_assoc]
        exact found

variable {h : Horizon} {graph : List (String × Store × List ScopeId)}

theorem resolveBasesKeeps (id : ScopeId) {owner : Definition} (found : Found h owner) (i : Nat)
    (bases : List TypeRef) :
    Keeps (Within h graph) (resolveBases id owner i bases) (fun ds =>
      ds.length ≤ bases.length ∧ (∀ d ∈ ds, Found h d) ∧
        ((∀ base ∈ bases, base.marks.ranks = []) → ∀ d ∈ ds, h.covers d)) := by
  induction bases generalizing i with
  | nil =>
    refine keepsPure ⟨Nat.le_refl _, fun d empty => ?_, fun _ d empty => ?_⟩
    · cases empty
    · cases empty
  | cons first rest ih =>
    refine keepsBind (resolveBaseKeeps id found i first) fun answer ⟨direct, plain⟩ => ?_
    refine keepsBind (ih (i + 1)) fun others ⟨short, each, covered⟩ => keepsPure ⟨?_, ?_, ?_⟩
    · rw [List.length_append, List.length_cons]
      have one : answer.toList.length ≤ 1 := by cases answer <;> simp
      omega
    · intro d mem
      rcases List.mem_append.mp mem with now | later
      · exact direct d (Option.mem_toList.mp now)
      · exact each d later
    · intro rankless d mem
      rcases List.mem_append.mp mem with now | later
      · exact plain (rankless first List.mem_cons_self) d (Option.mem_toList.mp now)
      · exact covered (fun base inside => rankless base (List.mem_cons_of_mem _ inside)) d later

theorem rootOfKeeps (id : ScopeId) (d : Definition) :
    Keeps (Within h graph) (rootOf id d) (Answers h.covers) := by
  unfold rootOf
  split
  · refine keepsGet fun w within => keepsPure fun root found => ?_
    obtain ⟨t, stored, rfl⟩ := Option.map_eq_some_iff.mp found
    exact Horizon.coversDeclared (within.findType stored)
  · exact keepsPure answersNone

theorem rootRun (id : ScopeId) (d : Definition) (w : Workspace) :
    ((rootOf id d).run w).2 = w ∧ ∀ t, ((rootOf id d).run w).1 = some t ↔
      d.body.base = none ∧ d.fullName ≠ objectName ∧
        ∃ root, w.findType id .deep .exact objectName 0 = some root ∧ t = .ofDeclared root := by
  have whole : (rootOf id d).run w = ((if d.body.base.isNone && d.fullName != objectName then
      (w.findType id .deep .exact objectName 0).map Definition.ofDeclared else none), w) := by
    unfold rootOf
    split <;> rfl
  rw [whole]
  refine ⟨rfl, fun t => ?_⟩
  by_cases rooted : d.body.base.isNone && d.fullName != objectName
  · obtain ⟨bare, named⟩ := Bool.and_eq_true_iff.mp rooted
    rw [if_pos rooted, Option.map_eq_some_iff]
    constructor
    · rintro ⟨root, found, rfl⟩
      exact ⟨Option.isNone_iff_eq_none.mp bare, by simpa using named, root, found, rfl⟩
    · rintro ⟨-, -, root, found, rfl⟩
      exact ⟨root, found, rfl⟩
  · rw [if_neg rooted]
    constructor
    · intro empty
      cases empty
    · rintro ⟨bare, named, -⟩
      exact absurd (by simp [bare, named]) rooted

end Bases

section Advance
variable {id : ScopeId} {walk : Walk} {w : Workspace} {d t : Definition} {rest : List Definition}

def unmet (walk : Walk) : List Definition :=
  walk.pending.dropWhile (fun d => walk.visited.contains d.decoratedName)

def basesAt (id : ScopeId) (w : Workspace) (d : Definition) : List Definition × Workspace :=
  (resolveBases id d 0 d.body.bases).run w

def inherits (id : ScopeId) (w : Workspace) (d : Definition) : List Definition :=
  ((rootOf id d).run (basesAt id w d).2).1.toList ++ (basesAt id w d).1.reverse

theorem advanceOver (id : ScopeId) (w : Workspace) (ends : unmet walk = []) :
    (advance id walk).run w = (none, w) := by
  unfold advance
  rw [unmet] at ends
  rw [ends]
  rfl

theorem advanceMeets (id : ScopeId) (w : Workspace) (on : unmet walk = d :: rest) :
    (advance id walk).run w =
      (some (d, ⟨inherits id w d ++ rest, d.decoratedName :: walk.visited⟩),
        (basesAt id w d).2) := by
  have still := (rootRun id d (basesAt id w d).2).1
  have run : (advance id walk).run w =
      (some (d, ⟨inherits id w d ++ rest, d.decoratedName :: walk.visited⟩),
        ((rootOf id d).run (basesAt id w d).2).2) := by
    unfold advance
    rw [unmet] at on
    rw [on]
    rfl
  rw [run, still]

theorem unmetHead (on : unmet walk = d :: rest) :
    d ∈ walk.pending ∧ d.decoratedName ∉ walk.visited ∧
      (∀ x ∈ rest, x ∈ walk.pending) ∧
      ∀ x ∈ walk.pending, x.decoratedName ∈ walk.visited ∨ x = d ∨ x ∈ rest := by
  obtain ⟨fresh, here, left, parts⟩ := dropWhileHead on
  refine ⟨here, fun met => ?_, left, fun x mem => (parts x mem).imp_left List.contains_iff_mem.mp⟩
  rw [List.contains_iff_mem.mpr met] at fresh
  cases fresh

theorem lastingBases (id : ScopeId) (w : Workspace) (d : Definition) :
    (basesAt id w d).2.lasting = w.lasting := by
  have covered : (horizonOf w d).covers d := horizonCovers List.mem_cons_self
  exact (resolveBasesKeeps id (.inl covered) 0 d.body.bases w (horizonWithin w d)).1.graph

theorem memInherits : t ∈ inherits id w d ↔ Edge id w d t := by
  rw [inherits, List.mem_append, Option.mem_toList, List.mem_reverse, Edge, or_comm]
  refine or_congr ?_ ?_
  · have written := memResolveBases id d t 0 d.body.bases w
    simp only [Nat.zero_add] at written
    exact written
  · have root := (rootRun id d (basesAt id w d).2).2 t
    rw [Workspace.findTypeLasting (lastingBases id w d)] at root
    exact root

end Advance

section Visits
variable {id : ScopeId} {walk : Walk} {w last : Workspace} {visits : List (Definition × Workspace)}

def namesOf (visits : List (Definition × Workspace)) : List String :=
  visits.map (fun v => v.1.decoratedName)

theorem exhaustsCases (run : Exhausts id walk w visits last) :
    (unmet walk = [] ∧ visits = [] ∧ last = w) ∨
    ∃ d rest later, unmet walk = d :: rest ∧ visits = (d, w) :: later ∧
      Exhausts id ⟨inherits id w d ++ rest, d.decoratedName :: walk.visited⟩ (basesAt id w d).2
        later last := by
  cases pending : unmet walk with
  | nil =>
    have ends := advanceOver id w pending
    cases run with
    | ends idle =>
      rw [ends] at idle
      cases idle
      exact .inl ⟨rfl, rfl, rfl⟩
    | meets next rest =>
      rw [ends] at next
      cases next
  | cons d rest =>
    have on := advanceMeets id w pending
    cases run with
    | ends idle =>
      rw [on] at idle
      cases idle
    | meets next later =>
      rw [on] at next
      cases next
      exact .inr ⟨d, rest, _, rfl, rfl, later⟩

theorem visitsFresh (run : Exhausts id walk w visits last) :
    (namesOf visits).Nodup ∧ ∀ name ∈ namesOf visits, name ∉ walk.visited := by
  induction visits generalizing walk w with
  | nil => exact ⟨List.nodup_nil, fun name empty => by cases empty⟩
  | cons v visits ih =>
    rcases exhaustsCases run with ⟨-, empty, -⟩ | ⟨d, rest, later, on, same, next⟩
    · cases empty
    · cases same
      obtain ⟨distinct_, fresh⟩ := ih next
      have unmet_ := (unmetHead on).2.1
      refine ⟨List.nodup_cons.mpr ⟨fun again => ?_, distinct_⟩, fun name mem => ?_⟩
      · exact fresh _ again List.mem_cons_self
      · rcases List.mem_cons.mp mem with here | after
        · rw [here]
          exact unmet_
        · exact fun met => fresh name after (List.mem_cons_of_mem _ met)

theorem visitsPending (run : Exhausts id walk w visits last) :
    ∀ x ∈ walk.pending, x.decoratedName ∈ walk.visited ∨ x.decoratedName ∈ namesOf visits := by
  induction visits generalizing walk w with
  | nil =>
    intro x mem
    rcases exhaustsCases run with ⟨ends, -, -⟩ | ⟨d, rest, later, on, empty, next⟩
    · rw [unmet, List.dropWhile_eq_nil_iff] at ends
      exact .inl (by simpa using ends x mem)
    · cases empty
  | cons v visits ih =>
    intro x mem
    rcases exhaustsCases run with ⟨-, empty, -⟩ | ⟨d, rest, later, on, same, next⟩
    · cases empty
    · cases same
      rcases (unmetHead on).2.2.2 x mem with met | rfl | waits
      · exact .inl met
      · exact .inr List.mem_cons_self
      · rcases ih next x (List.mem_append_right _ waits) with met | after
        · rcases List.mem_cons.mp met with here | before
          · rw [here]
            exact .inr List.mem_cons_self
          · exact .inl before
        · exact .inr (List.mem_cons_of_mem _ after)

theorem visitsClosed (run : Exhausts id walk w visits last) :
    ∀ v ∈ visits, ∀ t, Edge id v.2 v.1 t →
      t.decoratedName ∈ walk.visited ∨ t.decoratedName ∈ namesOf visits := by
  induction visits generalizing walk w with
  | nil =>
    intro v empty
    cases empty
  | cons first visits ih =>
    intro v mem t edge
    rcases exhaustsCases run with ⟨-, empty, -⟩ | ⟨d, rest, later, on, same, next⟩
    · cases empty
    · cases same
      have reached : t.decoratedName ∈ d.decoratedName :: walk.visited ∨
          t.decoratedName ∈ namesOf visits := by
        rcases List.mem_cons.mp mem with here | after
        · cases here
          exact visitsPending next t (List.mem_append_left _ (memInherits.mpr edge))
        · exact ih next v after t edge
      rcases reached with met | after
      · rcases List.mem_cons.mp met with here | before
        · rw [here]
          exact .inr List.mem_cons_self
        · exact .inl before
      · exact .inr (List.mem_cons_of_mem _ after)

theorem visitsReached (run : Exhausts id walk w visits last) {k : Nat}
    {v : Definition × Workspace} (at_ : visits[k]? = some v) :
    v.1 ∈ walk.pending ∨ ∃ j < k, ∃ u, visits[j]? = some u ∧ Edge id u.2 u.1 v.1 := by
  induction visits generalizing walk w k with
  | nil => cases at_
  | cons first visits ih =>
    rcases exhaustsCases run with ⟨-, empty, -⟩ | ⟨d, rest, later, on, same, next⟩
    · cases empty
    · cases same
      cases k with
      | zero =>
        cases at_
        exact .inl (unmetHead on).1
      | succ k =>
        rcases ih next at_ with waits | ⟨j, before, u, found, edge⟩
        · rcases List.mem_append.mp waits with inherited | old
          · exact .inr ⟨0, Nat.succ_pos k, (d, w), rfl, memInherits.mp inherited⟩
          · exact .inl ((unmetHead on).2.2.1 v.1 old)
        · exact .inr ⟨j + 1, Nat.succ_lt_succ before, u, found, edge⟩

end Visits

section Bound
variable {h : Horizon} {graph : List (String × Store × List ScopeId)} {id : ScopeId}
  {walk : Walk} {w : Workspace}

open Classical in
noncomputable def loose (h : Horizon) (ds : List Definition) : Nat :=
  (ds.filter (fun d => ¬ h.covers d)).length

def unseen (h : Horizon) (visited : List String) : Nat :=
  (h.names.filter (fun name => name ∉ visited)).length

noncomputable def potential (h : Horizon) (walk : Walk) : Nat :=
  unseen h walk.visited * (1 + h.width) + loose h walk.pending

theorem looseAppend (ds more : List Definition) :
    loose h (ds ++ more) = loose h ds + loose h more := by
  rw [loose, List.filter_append, List.length_append]
  rfl

theorem looseCovered {ds : List Definition} (covered : ∀ d ∈ ds, h.covers d) : loose h ds = 0 := by
  rw [loose, List.length_eq_zero_iff, List.filter_eq_nil_iff]
  intro d mem
  simpa using covered d mem

theorem looseLength (ds : List Definition) : loose h ds ≤ ds.length := List.length_filter_le _ _

theorem unseenCons (visited : List String) (name : String) :
    unseen h (name :: visited) =
      ((h.names.filter (fun n => n ∉ visited)).filter (fun n => n ≠ name)).length := by
  rw [unseen, List.filter_filter]
  congr 1
  refine List.filter_congr fun other _ => ?_
  simp [not_or]

theorem unseenLess {visited : List String} {name : String} (inside : name ∈ h.names)
    (fresh : name ∉ visited) : unseen h (name :: visited) < unseen h visited := by
  rw [unseenCons, unseen, List.length_filter_lt_length_iff_exists]
  refine ⟨name, List.mem_filter.mpr ⟨inside, by simpa using fresh⟩, by simp⟩

theorem unseenLe (visited : List String) (name : String) :
    unseen h (name :: visited) ≤ unseen h visited := by
  rw [unseenCons]
  exact List.length_filter_le _ _

theorem arrayRankless (a : ArrayType) : ∀ base ∈ a.body.bases, base.marks.ranks = [] := by
  intro base mem
  have listed : base ∈ [TypeRef.named arrayRootName, TypeRef.generic listName [a.element]] := mem
  rcases List.mem_pair.mp listed with rfl | rfl <;> rfl

theorem inheritsFound (id : ScopeId) {d : Definition} (within : Within h graph w)
    (found : Found h d) :
    Within h graph (basesAt id w d).2 ∧ (∀ t ∈ inherits id w d, Found h t) ∧
      (h.covers d → loose h (inherits id w d) ≤ h.width) ∧
      (¬ h.covers d → loose h (inherits id w d) = 0) := by
  obtain ⟨after, short, each, plain⟩ := resolveBasesKeeps id found 0 d.body.bases w within
  have root := (rootOfKeeps id d (basesAt id w d).2 after).2
  have rooted : ∀ t ∈ ((rootOf id d).run (basesAt id w d).2).1.toList, h.covers t :=
    fun t mem => root t (Option.mem_toList.mp mem)
  have split : loose h (inherits id w d) = loose h (basesAt id w d).1.reverse := by
    rw [inherits, looseAppend, looseCovered rooted, Nat.zero_add]
  refine ⟨after, fun t mem => ?_, fun covered => ?_, fun made => ?_⟩
  · rcases List.mem_append.mp mem with fromRoot | fromBase
    · exact .inl (rooted t fromRoot)
    · exact each t (List.mem_reverse.mp fromBase)
  · have listed : (basesAt id w d).1.reverse.length ≤ d.body.bases.length := by
      rw [List.length_reverse]
      exact short
    rw [split]
    exact Nat.le_trans (looseLength _) (Nat.le_trans listed covered.2)
  · obtain ⟨a, rfl⟩ := found.resolve_left made
    rw [split]
    exact looseCovered fun t mem => plain (arrayRankless a) t (List.mem_reverse.mp mem)

theorem looseUnmet {d : Definition} {rest : List Definition} (on : unmet walk = d :: rest) :
    loose h rest + loose h [d] ≤ loose h walk.pending := by
  have sub : List.Sublist (d :: rest) walk.pending := by
    rw [← on]
    exact List.dropWhile_sublist _
  have counted : loose h (d :: rest) = loose h [d] + loose h rest := looseAppend [d] rest
  have shorter : loose h (d :: rest) ≤ loose h walk.pending := (sub.filter _).length_le
  omega

theorem looseAlone {d : Definition} (made : ¬ h.covers d) : loose h [d] = 1 := by
  simp [loose, made]

theorem potentialLess (id : ScopeId) {d : Definition} {rest : List Definition}
    (within : Within h graph w) (found : Found h d) (on : unmet walk = d :: rest) :
    potential h ⟨inherits id w d ++ rest, d.decoratedName :: walk.visited⟩ < potential h walk := by
  obtain ⟨-, fresh, -, -⟩ := unmetHead on
  obtain ⟨-, -, wide, narrow⟩ := inheritsFound id within found
  have waiting := looseUnmet (h := h) on
  simp only [potential, looseAppend]
  by_cases covered : h.covers d
  · have less : unseen h (d.decoratedName :: walk.visited) + 1 ≤ unseen h walk.visited :=
      unseenLess (Horizon.coversName covered) fresh
    have scaled := Nat.mul_le_mul_right (1 + h.width) less
    have pushed := wide covered
    rw [Nat.add_mul, Nat.one_mul] at scaled
    omega
  · have scaled :=
      Nat.mul_le_mul_right (1 + h.width) (unseenLe (h := h) walk.visited d.decoratedName)
    have pushed := narrow covered
    have alone := looseAlone covered
    omega

theorem potentialPositive {d : Definition} {rest : List Definition} (on : unmet walk = d :: rest) :
    0 < potential h walk := by
  obtain ⟨-, fresh, -, -⟩ := unmetHead on
  have waiting := looseUnmet (h := h) on
  rw [potential]
  by_cases covered : h.covers d
  · have less := unseenLess (Horizon.coversName covered) fresh
    have positive : 0 < unseen h walk.visited * (1 + h.width) :=
      Nat.mul_pos (Nat.lt_of_le_of_lt (Nat.zero_le _) less) (by omega)
    omega
  · have alone := looseAlone covered
    omega

theorem walkOnOver {last : Workspace} (steps : Nat)
    (ends : (advance id walk).run w = (none, last)) :
    (walkOn id (steps + 1) walk).run w = ([], last) := by
  rw [walkOn, StateT.run_bind, ends]
  rfl

theorem walkOnMeets {d : Definition} {later : Walk} {after : Workspace} (steps : Nat)
    (next : (advance id walk).run w = (some (d, later), after)) :
    (walkOn id (steps + 1) walk).run w =
      (d :: ((walkOn id steps later).run after).1, ((walkOn id steps later).run after).2) := by
  rw [walkOn, StateT.run_bind, next]
  rfl

theorem walkOnExhausts (id : ScopeId) {steps : Nat} (within : Within h graph w)
    (found : ∀ d ∈ walk.pending, Found h d) (enough : potential h walk ≤ steps) :
    ∃ visits last, Exhausts id walk w visits last ∧
      (walkOn id steps walk).run w = (visits.map Prod.fst, last) := by
  induction steps generalizing walk w with
  | zero =>
    cases on : unmet walk with
    | nil => exact ⟨[], w, .ends (advanceOver id w on), rfl⟩
    | cons d rest =>
      have positive := potentialPositive (h := h) on
      omega
  | succ steps ih =>
    cases on : unmet walk with
    | nil =>
      have ends := advanceOver id w on
      exact ⟨[], w, .ends ends, walkOnOver steps ends⟩
    | cons d rest =>
      have next := advanceMeets id w on
      obtain ⟨pending, -, waits, -⟩ := unmetHead on
      have here := found d pending
      obtain ⟨after, each, -, -⟩ := inheritsFound id within here
      have less := potentialLess id within here on
      have foundLater : ∀ t ∈ inherits id w d ++ rest, Found h t := by
        intro t mem
        rcases List.mem_append.mp mem with inherited | old
        · exact each t inherited
        · exact found t (waits t old)
      have lower := Nat.le_of_lt_succ (Nat.lt_of_lt_of_le less enough)
      obtain ⟨visits, last, run, list⟩ := ih after foundLater lower
      refine ⟨(d, w) :: visits, last, .meets next run, ?_⟩
      rw [walkOnMeets steps next, list]
      rfl

end Bound

theorem startPotential (w : Workspace) (start : Definition) :
    potential (horizonOf w start) (startAt start) ≤ w.walkBound start := by
  have covered : (horizonOf w start).covers start := horizonCovers List.mem_cons_self
  have settled : loose (horizonOf w start) [start] = 0 := by
    refine looseCovered fun d mem => ?_
    rw [List.mem_singleton.mp mem]
    exact covered
  have seen : unseen (horizonOf w start) [] ≤ (horizonOf w start).names.length :=
    List.length_filter_le _ _
  rw [potential, startAt, settled, Nat.add_zero]
  exact Nat.mul_le_mul_right _ seen

/-- The walk ends; it begins with the type as it is stored now, meets each decorated name once,
meets what every definition on it inherits from, and nothing else. -/
theorem ancestryComplete (id : ScopeId) (d : Definition) (w : Workspace) :
    let start := ((refetch id d).run w).1
    let fetched := ((refetch id d).run w).2
    ∃ visits last, Exhausts id (startAt start) fetched visits last ∧
      (ancestry id d).run w = (visits.map Prod.fst, last) ∧
      visits.head? = some (start, fetched) ∧
      (namesOf visits).Nodup ∧
      (∀ v ∈ visits, ∀ t, Edge id v.2 v.1 t → t.decoratedName ∈ namesOf visits) ∧
      ∀ k v, visits[k]? = some v → k ≠ 0 →
        ∃ j < k, ∃ u, visits[j]? = some u ∧ Edge id u.2 u.1 v.1 := by
  intro start fetched
  have found : ∀ t ∈ (startAt start).pending, Found (horizonOf fetched start) t := by
    intro t mem
    rw [List.mem_singleton.mp mem]
    exact .inl (horizonCovers List.mem_cons_self)
  obtain ⟨visits, last, run, list⟩ := walkOnExhausts id (horizonWithin fetched start) found
    (startPotential fetched start)
  have first : visits.head? = some (start, fetched) := by
    rcases exhaustsCases run with ⟨ends, -, -⟩ | ⟨e, rest, later, on, same, -⟩
    · cases ends
    · cases on
      rw [same]
      rfl
  obtain ⟨distinct_, -⟩ := visitsFresh run
  refine ⟨visits, last, run, list, first, distinct_, fun v mem t edge => ?_, fun k v at_ later => ?_⟩
  · exact (visitsClosed run v mem t edge).resolve_left (by simp [startAt])
  · refine (visitsReached run at_).resolve_left fun again => ?_
    have same : v.1 = start := List.mem_singleton.mp again
    cases visits with
    | nil => cases at_
    | cons head rest =>
      obtain ⟨k, rfl⟩ := Nat.exists_eq_succ_of_ne_zero later
      have named : v.1.decoratedName ∈ namesOf rest :=
        List.mem_map.mpr ⟨v, List.mem_of_getElem? at_, rfl⟩
      cases Option.some.inj first
      rw [same] at named
      exact (List.nodup_cons.mp distinct_).1 named

def derived (name base : String) (tick : Nat) : Declared :=
  Blueprint.build (some ⟨0⟩) (Stamp.at tick)
    { Blueprint.bare name .classType with base := some (TypeRef.named base) }

def mutualTypes : Workspace :=
  ((ingest 0 ⟨⟨0⟩, "", [], [derived "A" "B" 0, derived "B" "A" 1]⟩).run
    ((openScope "app").run Workspace.empty).2).2

theorem ancestryCompleteMutual :
    ∃ visits last, Exhausts 0 (startAt (.ofDeclared (derived "A" "B" 0))) mutualTypes visits last ∧
      namesOf visits = ["A", "B"] := by
  obtain ⟨visits, last, run, list, -⟩ :=
    ancestryComplete 0 (.ofDeclared (derived "A" "B" 0)) mutualTypes
  refine ⟨visits, last, run, ?_⟩
  have met : visits.map Prod.fst =
      ((ancestry 0 (.ofDeclared (derived "A" "B" 0))).run mutualTypes).1 := by
    rw [list]
  have named : namesOf visits = (visits.map Prod.fst).map Definition.decoratedName := by
    rw [List.map_map]
    rfl
  rw [named, met]
  rfl

end Query
end TypeScope
