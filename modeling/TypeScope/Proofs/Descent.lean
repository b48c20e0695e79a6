import TypeScope.Proofs.BaseContexts

/-! What the walk over a type meets in a loaded scope: the types that can be reached over what the
bases name, each as itself or as an instantiation. -/
namespace TypeScope

section Parents
variable {xid : Char → Bool} {u : Workspace} {id : ScopeId} {t p : Declared}

namespace Workspace

def rootAbove (u : Workspace) (id : ScopeId) (t : Declared) : Option Declared :=
  if t.body.base.isNone && t.fullName != objectName then u.findType id .deep .exact objectName 0
  else none

def parents (u : Workspace) (id : ScopeId) (t : Declared) : List Declared :=
  (u.rootAbove id t).toList ++ t.body.bases.filterMap (u.named id t)

def Descends (u : Workspace) (id : ScopeId) : Declared → Declared → Prop :=
  Relation.ReflTransGen (fun t p => p ∈ u.parents id t)

theorem Charted.namedOwn (charted : u.Charted xid id) {base : TypeRef}
    (names : u.named id t base = some p) : u.Own id p := by
  rcases Option.or_eq_some_iff.mp names with direct | ⟨-, context⟩
  · exact (charted.offered direct).1
  · unfold Workspace.inContext at context
    split at context
    · cases context
    · obtain ⟨_, -, found⟩ := List.exists_of_findSome?_eq_some context
      exact (charted.offered found).1

theorem Charted.objectFound (charted : u.Charted xid id)
    (found : u.findType id .deep .exact objectName 0 = some p) :
    u.Own id p ∧ p.decoratedName = objectName := by
  obtain ⟨own, named, arity⟩ := charted.found found
  refine ⟨own, ?_⟩
  rw [Declared.decoratedName, named, arity]
  rfl

theorem Charted.parentOwn (charted : u.Charted xid id) (parent : p ∈ u.parents id t) :
    u.Own id p := by
  rcases List.mem_append.mp parent with root | base
  · have above := Option.mem_toList.mp root
    unfold Workspace.rootAbove at above
    split at above
    · exact (charted.objectFound above).1
    · cases above
  · obtain ⟨_, -, names⟩ := List.mem_filterMap.mp base
    exact charted.namedOwn names

theorem Charted.descendsOwn (charted : u.Charted xid id) (own : u.Own id t)
    (descends : u.Descends id t p) : u.Own id p := by
  induction descends with
  | refl => exact own
  | tail _ parent _ => exact charted.parentOwn parent

theorem Charted.parentNamed (charted : u.Charted xid id) (own : u.Own id p) :
    p.decoratedName ∈ u.basesNamed id t ↔ p ∈ u.parents id t := by
  rw [Workspace.basesNamed, Workspace.parents, List.mem_append, List.mem_append, or_comm]
  refine or_congr ?_ ?_
  · rw [Option.mem_toList, Workspace.rootAbove]
    split
    · rw [List.mem_singleton]
      constructor
      · intro name
        have plainName : Arity.decorate p.fullName p.arity = Arity.decorate objectName 0 := name
        obtain ⟨full, arity⟩ := decorateUnique
          (segmentedUnmarked charted.separate (charted.names p own)).1 (by decide) plainName
        rw [← full, ← arity]
        exact own
      · exact fun found => (charted.objectFound found).2
    · exact iff_of_false List.not_mem_nil fun never => by cases never
  · constructor
    · intro name
      obtain ⟨q, listed, same⟩ := List.mem_map.mp name
      obtain ⟨base, written, names⟩ := List.mem_filterMap.mp listed
      rw [← charted.decorated (charted.namedOwn names) own same]
      exact listed
    · exact fun listed => List.mem_map.mpr ⟨p, listed, rfl⟩

end Workspace

end Parents

section Walks
open Query
variable {xid : Char → Bool} {u w : Workspace} {id : ScopeId} {t : Declared} {d : Definition}
  {hosts : List Definition}

def StandFor (u : Workspace) (id : ScopeId) (w : Workspace) (ds : List Definition)
    (ts : List Declared) : Prop :=
  (∀ d ∈ ds, ∃ t ∈ ts, Known u id w d t) ∧ ∀ t ∈ ts, ∃ d ∈ ds, Known u id w d t

theorem AllKnown.standFor {ds : List Definition} {ts : List Declared}
    (all : AllKnown u id w ds ts) : StandFor u id w ds ts := by
  induction all with
  | nil => exact ⟨fun _ never => absurd never List.not_mem_nil,
      fun _ never => absurd never List.not_mem_nil⟩
  | cons known _ ih =>
    refine ⟨fun d mem => ?_, fun t mem => ?_⟩
    · rcases List.mem_cons.mp mem with rfl | mem
      · exact ⟨_, List.mem_cons_self, known⟩
      · obtain ⟨t, listed, known⟩ := ih.1 d mem
        exact ⟨t, List.mem_cons_of_mem _ listed, known⟩
    · rcases List.mem_cons.mp mem with rfl | mem
      · exact ⟨_, List.mem_cons_self, known⟩
      · obtain ⟨d, listed, known⟩ := ih.2 t mem
        exact ⟨d, List.mem_cons_of_mem _ listed, known⟩

theorem AllKnown.decorated {ds : List Definition} {ts : List Declared}
    (all : AllKnown u id w ds ts) :
    ds.map Definition.decoratedName = ts.map Declared.decoratedName := by
  induction all with
  | nil => rfl
  | cons known _ ih => rw [List.map_cons, List.map_cons, known.decorated, ih]

theorem StandFor.later {w' : Workspace} {ds : List Definition} {ts : List Declared}
    (stand : StandFor u id w ds ts) (later : Later id w w') : StandFor u id w' ds ts :=
  ⟨fun d mem => (stand.1 d mem).imp fun _ ⟨listed, known⟩ => ⟨listed, known.later later⟩,
    fun t mem => (stand.2 t mem).imp fun _ ⟨listed, known⟩ => ⟨listed, known.later later⟩⟩

theorem rootTold (charted : u.Charted xid id) (coherent : Coherent xid u id hosts w)
    (known : Known u id w d t) :
    ((rootOf id d).run w).1 = (u.rootAbove id t).map Definition.ofDeclared := by
  have name : d.fullName = t.fullName := congrArg OpenType.fullName known.2.1
  have bare := (known.retold charted coherent).base
  unfold rootOf Workspace.rootAbove
  rw [name, bare]
  split
  · show (w.findType id .deep .exact objectName 0).map _ = _
    rw [Workspace.findTypeLasting coherent.lasting]
  · rfl

theorem inheritsTold (charted : u.Charted xid id) (coherent : Coherent xid u id hosts w)
    (known : Known u id w d t) :
    Coherent xid u id hosts (basesAt id w d).2 ∧ Later id w (basesAt id w d).2 ∧
      StandFor u id (basesAt id w d).2 (inherits id w d) (u.parents id t) := by
  obtain ⟨coherent', later, all⟩ := basesTold charted coherent known
  have coherent' : Coherent xid u id hosts (basesAt id w d).2 := coherent'
  have bases : StandFor u id (basesAt id w d).2 (basesAt id w d).1
    (t.body.bases.filterMap (u.named id t)) := all.standFor
  refine ⟨coherent', later, ?_⟩
  rw [inherits, rootTold charted coherent' (known.later later)]
  have root : ∀ p, u.rootAbove id t = some p → Known u id (basesAt id w d).2 (.ofDeclared p) p :=
    fun p above => knownOwn (charted.parentOwn
      (List.mem_append_left _ (Option.mem_toList.mpr above)))
  refine ⟨fun e mem => ?_, fun p mem => ?_⟩
  · rcases List.mem_append.mp mem with above | base
    · obtain ⟨p, found, rfl⟩ := Option.map_eq_some_iff.mp (Option.mem_toList.mp above)
      exact ⟨p, List.mem_append_left _ (Option.mem_toList.mpr found), root p found⟩
    · obtain ⟨p, listed, known⟩ := bases.1 e (List.mem_reverse.mp base)
      exact ⟨p, List.mem_append_right _ listed, known⟩
  · rcases List.mem_append.mp mem with above | base
    · have found : u.rootAbove id t = some p := Option.mem_toList.mp above
      refine ⟨.ofDeclared p, List.mem_append_left _ ?_, root p found⟩
      rw [found]
      exact List.mem_singleton_self _
    · obtain ⟨e, listed, known⟩ := bases.2 p base
      exact ⟨e, List.mem_append_right _ (List.mem_reverse.mpr listed), known⟩

theorem startKnown (known : Known u id w d t) :
    ∀ e ∈ (startAt d).pending, ∃ t, Known u id w e t := by
  intro e mem
  rw [List.mem_singleton.mp mem]
  exact ⟨t, known⟩

theorem pendingTold {walk : Walk} {rest : List Definition} (charted : u.Charted xid id)
    (coherent : Coherent xid u id hosts w) (pending : ∀ e ∈ walk.pending, ∃ t, Known u id w e t)
    (on : unmet walk = d :: rest) (known : Known u id w d t) :
    ∀ e ∈ inherits id w d ++ rest, ∃ t, Known u id (basesAt id w d).2 e t := by
  obtain ⟨-, later, stand⟩ := inheritsTold charted coherent known
  intro e mem
  rcases List.mem_append.mp mem with new | old
  · exact (stand.1 e new).imp fun _ h => h.2
  · exact (pending e ((unmetHead on).2.2.1 e old)).imp fun _ known => known.later later

theorem walkOnTold (charted : u.Charted xid id) (steps : Nat) {walk : Walk}
    (coherent : Coherent xid u id hosts w) (pending : ∀ e ∈ walk.pending, ∃ t, Known u id w e t) :
    Told xid u id hosts w (walkOn id steps walk) (fun _ _ => True) := by
  induction steps generalizing walk w with
  | zero => exact toldPure coherent trivial
  | succ steps ih =>
    unfold Told
    cases on : unmet walk with
    | nil =>
      rw [walkOnOver steps (advanceOver id w on)]
      exact ⟨coherent, Later.refl id w, trivial⟩
    | cons d rest =>
      obtain ⟨t, known⟩ := pending d (unmetHead on).1
      obtain ⟨coherent', later, -⟩ := inheritsTold charted coherent known
      obtain ⟨coherent'', later', -⟩ :=
        @ih _ ⟨inherits id w d ++ rest, d.decoratedName :: walk.visited⟩ coherent'
          (pendingTold charted coherent pending on known)
      rw [walkOnMeets steps (advanceMeets id w on)]
      exact ⟨coherent'', later.trans later', trivial⟩

theorem visitsTold (charted : u.Charted xid id) {walk : Walk} {last : Workspace}
    {visits : List (Definition × Workspace)} (run : Exhausts id walk w visits last)
    (coherent : Coherent xid u id hosts w) (pending : ∀ e ∈ walk.pending, ∃ t, Known u id w e t) :
    Coherent xid u id hosts last ∧ Later id w last ∧ ∀ v ∈ visits, ∃ t, Known u id last v.1 t ∧
      StandFor u id last (inherits id v.2 v.1) (u.parents id t) := by
  induction visits generalizing walk w with
  | nil =>
    rcases exhaustsCases run with ⟨-, -, rfl⟩ | ⟨d, rest, later, -, empty, -⟩
    · exact ⟨coherent, Later.refl id _, fun v never => by cases never⟩
    · cases empty
  | cons v visits ih =>
    rcases exhaustsCases run with ⟨-, empty, -⟩ | ⟨d, rest, later, on, same, next⟩
    · cases empty
    · cases same
      obtain ⟨t, known⟩ := pending d (unmetHead on).1
      obtain ⟨coherent', kept, stand⟩ := inheritsTold charted coherent known
      obtain ⟨coherent'', kept', each⟩ :=
        ih next coherent' (pendingTold charted coherent pending on known)
      refine ⟨coherent'', kept.trans kept', fun v mem => ?_⟩
      rcases List.mem_cons.mp mem with rfl | mem
      · exact ⟨t, known.later (kept.trans kept'), stand.later kept'⟩
      · exact each v mem

def Meets (u : Workspace) (id : ScopeId) (t : Declared) (w : Workspace) (met : List Definition) :
    Prop :=
  (∀ d ∈ met, ∃ p, Known u id w d p ∧ u.Descends id t p) ∧
    ∀ p, u.Descends id t p → p.decoratedName ∈ met.map Definition.decoratedName

theorem Meets.named {met : List Definition} (meets : Meets u id t w met)
    (charted : u.Charted xid id) {p : Declared} (own : u.Own id p) :
    p.decoratedName ∈ met.map Definition.decoratedName ↔ u.Descends id t p := by
  refine ⟨fun named => ?_, meets.2 p⟩
  obtain ⟨d, mem, name⟩ := List.mem_map.mp named
  obtain ⟨q, known, descends⟩ := meets.1 d mem
  rw [known.decorated] at name
  rwa [← charted.decorated known.1 own name]

theorem visitsDescend (charted : u.Charted xid id) (coherent : Coherent xid u id hosts w)
    (known : Known u id w d t) {last : Workspace} {visits : List (Definition × Workspace)}
    (run : Exhausts id (startAt d) w visits last) :
    Meets u id t last (visits.map Prod.fst) := by
  obtain ⟨-, later, each⟩ := visitsTold charted run coherent (startKnown known)
  -- a visit comes after one that leads to it, so the way grows with the position
  have reached : ∀ (k : Nat) (v : Definition × Workspace), visits[k]? = some v →
      ∀ q, Known u id last v.1 q → u.Descends id t q := by
    intro k
    induction k using Nat.strong_induction_on with
    | _ k ih =>
      intro v at_ q known'
      rcases visitsReached run at_ with start | ⟨j, before, v', at', edge⟩
      · rw [List.mem_singleton.mp start] at known'
        rw [(known.later later).same known']
        exact .refl
      · obtain ⟨q', known'', stand⟩ := each v' (List.mem_of_getElem? at')
        obtain ⟨p, parent, here⟩ := stand.1 v.1 (memInherits.mpr edge)
        rw [← here.same known']
        exact (ih j before v' at' q' known'').tail parent
  refine ⟨fun e mem => ?_, fun p descends => ?_⟩
  · obtain ⟨v, listed, rfl⟩ := List.mem_map.mp mem
    obtain ⟨q, known', -⟩ := each v listed
    obtain ⟨k, at_⟩ := List.mem_iff_getElem?.mp listed
    exact ⟨q, known', reached k v at_ q known'⟩
  · rw [List.map_map]
    induction descends with
    | refl =>
      have start := (visitsPending run d List.mem_cons_self).resolve_left fun never => by
        cases never
      rwa [known.decorated] at start
    | tail way parent ih =>
      have between := charted.descendsOwn known.1 way
      obtain ⟨v, mem, name⟩ := List.mem_map.mp ih
      obtain ⟨q, known', stand⟩ := each v mem
      have name : v.1.decoratedName = _ := name
      rw [known'.decorated] at name
      rw [← charted.decorated known'.1 between name] at parent
      obtain ⟨e, listed, here⟩ := stand.2 _ parent
      have closed := visitsClosed run v mem e (memInherits.mp listed)
      rw [here.decorated] at closed
      exact closed.resolve_left fun never => by cases never

theorem walkTold (charted : u.Charted xid id) (coherent : Coherent xid u id hosts w)
    (known : Known u id w d t) :
    Told xid u id hosts w (walkOn id (w.walkBound d) (startAt d)) (Meets u id t) := by
  have found : ∀ e ∈ (startAt d).pending, Found (horizonOf w d) e := by
    intro e mem
    rw [List.mem_singleton.mp mem]
    exact .inl (horizonCovers List.mem_cons_self)
  obtain ⟨visits, last, run, list⟩ := walkOnExhausts id (horizonWithin w d) found
    (startPotential w d)
  obtain ⟨coherent', later, -⟩ := visitsTold charted run coherent (startKnown known)
  unfold Told
  rw [list]
  exact ⟨coherent', later, visitsDescend charted coherent known run⟩

section Fetched
variable (charted : u.Charted xid id)
  (fetched : Told xid u id hosts w (refetch id d) (fun w' e => Known u id w' e t))
include charted fetched

theorem ancestryToOf (count : Nat) :
    Told xid u id hosts w (ancestryTo count id d) (fun _ _ => True) :=
  toldBind fetched fun _ _ coherent _ known =>
    toldGet (walkOnTold charted _ coherent (startKnown known))

theorem ancestryOf : Told xid u id hosts w (ancestry id d) (Meets u id t) :=
  toldBind fetched fun _ _ coherent _ known => toldGet (walkTold charted coherent known)

end Fetched

end Walks
end TypeScope
