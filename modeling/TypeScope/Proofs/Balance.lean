import TypeScope.Proofs.Mentions

/-! The account of a solution: every count of a scope is owed to someone, be it a client, a list
that is still to be released, or a scope that refers to it. Releasing settles what is owed; what
comes to zero on the way is unloaded and owes nothing afterwards. -/
namespace TypeScope

def owedOn (owed : ScopeId → Nat) (ids : List ScopeId) (id : ScopeId) : Nat :=
  owed id + ids.count id

theorem owedOnNil (owed : ScopeId → Nat) : owedOn owed [] = owed := by
  funext id
  simp [owedOn]

theorem owedOnCons (owed : ScopeId → Nat) (first : ScopeId) (rest : List ScopeId) :
    owedOn owed (first :: rest) = owedOn (owedOn owed rest) [first] := by
  funext id
  simp only [owedOn, List.count_cons, List.count_nil]
  omega

theorem owedOnAppend (owed : ScopeId → Nat) (ids more : List ScopeId) :
    owedOn owed (ids ++ more) = owedOn (owedOn owed more) ids := by
  funext id
  simp only [owedOn, List.count_append]
  omega

theorem owedOnOne (owed : ScopeId → Nat) (id other : ScopeId) :
    owedOn owed [id] other = owed other + if other = id then 1 else 0 := by
  by_cases same : other = id
  · simp [owedOn, same]
  · have absent : [id].count other = 0 := by simp [List.count_eq_zero, same]
    simp [owedOn, absent, same]

namespace Solution

def at? (s : Solution) (uri : String) : Option ScopeId := s.registry.scopes.get? uri

structure Balanced (owed : ScopeId → Nat) (s : Solution) : Prop where
  counts : ∀ id, s.count id = owed id + s.mentions.count id
  registered : ∀ {uri id}, s.at? uri = some id → s.uri id = uri ∧ 0 < s.count id
  unloaded : ∀ {id}, s.at? (s.uri id) ≠ some id → s.count id = 0 ∧ s.referencesOf id = []
  declaring : ∀ {uri}, s.at? uri = none → s.registry.declared.get? uri = none
  keys : s.registry.scopes.keys.Nodup

def Exact (s : Solution) (uri : String) : Prop :=
  ∀ id, s.at? uri = some id → s.referencesOf id = s.registry.references uri

structure Shrinks (s after : Solution) : Prop where
  uris : ∀ id, after.uri id = s.uri id
  scopes : ∀ {uri id}, after.at? uri = some id → s.at? uri = some id
  declared : ∀ {uri id}, after.at? uri = some id →
    after.registry.declaredBy uri = s.registry.declaredBy uri

structure Releases (s after : Solution) : Prop extends Shrinks s after where
  references : ∀ {uri id}, after.at? uri = some id → after.referencesOf id = s.referencesOf id

theorem Shrinks.refl (s : Solution) : Shrinks s s := ⟨fun _ => rfl, id, fun _ => rfl⟩

theorem Shrinks.trans {s between after : Solution} (first : Shrinks s between)
    (second : Shrinks between after) : Shrinks s after :=
  ⟨fun id => (second.uris id).trans (first.uris id), fun h => first.scopes (second.scopes h),
    fun h => (second.declared h).trans (first.declared (second.scopes h))⟩

theorem Releases.refl (s : Solution) : Releases s s := ⟨.refl s, fun _ => rfl⟩

theorem Releases.trans {s between after : Solution} (first : Releases s between)
    (second : Releases between after) : Releases s after :=
  ⟨first.toShrinks.trans second.toShrinks,
    fun h => (second.references h).trans (first.references (second.scopes h))⟩

theorem Balanced.counted {owed : ScopeId → Nat} {s : Solution} (balanced : Balanced owed s)
    {id : ScopeId} (positive : 0 < s.count id) : s.at? (s.uri id) = some id := by
  by_contra gone
  rw [(balanced.unloaded gone).1] at positive
  exact Nat.lt_irrefl 0 positive

theorem Balanced.mentioned {owed : ScopeId → Nat} {s : Solution} (balanced : Balanced owed s)
    {id : ScopeId} (mention : id ∈ s.mentions) : s.at? (s.uri id) = some id := by
  refine balanced.counted ?_
  have listed := List.count_pos_iff.mpr mention
  have account := balanced.counts id
  omega

theorem Balanced.owing {owed : ScopeId → Nat} {s : Solution} (balanced : Balanced owed s)
    {id : ScopeId} (owes : 0 < owed id) : s.at? (s.uri id) = some id := by
  refine balanced.counted ?_
  have account := balanced.counts id
  omega

theorem Balanced.known {owed : ScopeId → Nat} {s : Solution} (balanced : Balanced owed s)
    {uri : String} {id : ScopeId} (h : s.at? uri = some id) : s.Known id :=
  knownOfCount (balanced.registered h).2

theorem exactReleases {owed left : ScopeId → Nat} {s after : Solution} {uri : String}
    (before : Balanced owed s) (balanced : Balanced left after) (releases : Releases s after)
    (declares : Exact s uri) : Exact after uri := by
  -- nobody refers to a scope that is gone, so no list loses anything it declares
  intro id here
  have was := declares id (releases.scopes here)
  rw [releases.references here, was]
  simp only [Registry.references, releases.declared here]
  refine List.filterMap_congr fun other listed => ?_
  cases found : s.registry.scopes.get? other with
  | none =>
    cases later : after.registry.scopes.get? other with
    | none => rfl
    | some x =>
      have sooner : s.at? other = some x := releases.scopes later
      rw [at?, found] at sooner
      cases sooner
  | some x =>
    have inList : x ∈ after.referencesOf id := by
      rw [releases.references here, was]
      exact List.mem_filterMap.mpr ⟨other, listed, found⟩
    have still := balanced.mentioned (memMentions inList)
    rw [releases.uris, (before.registered found).1] at still
    exact still.symm

section Steps
variable {owed : ScopeId → Nat} {s : Solution} {id : ScopeId}

theorem balancedAcquire (balanced : Balanced owed s) {uri : String} (here : s.at? uri = some id) :
    Balanced (owedOn owed [id]) (s.acquire id) := by
  have known := balanced.known here
  have positive : ∀ other,
      (s.acquire id).count other = s.count other + if other = id then 1 else 0 :=
    fun other => countAcquire s id other known
  refine ⟨fun other => ?_, fun {uri other} found => ?_, fun {other} gone => ?_, balanced.declaring,
    balanced.keys⟩
  · rw [positive, mentionsAcquire, owedOnOne, balanced.counts other]
    omega
  · obtain ⟨named, counted⟩ := balanced.registered found
    refine ⟨(uriAcquire ..).trans named, ?_⟩
    rw [positive]
    omega
  · rw [uriAcquire] at gone
    have different : other ≠ id := by
      intro same
      subst same
      rw [(balanced.registered here).1] at gone
      exact gone here
    rw [positive, referencesAcquire, if_neg different]
    exact balanced.unloaded gone

theorem balancedAcquireAll {ids : List ScopeId} (balanced : Balanced owed s)
    (registered : ∀ id ∈ ids, s.at? (s.uri id) = some id) :
    Balanced (owedOn owed ids) (ids.foldl acquire s) := by
  induction ids generalizing owed s with
  | nil => rwa [owedOnNil]
  | cons first rest ih =>
    have here := registered first List.mem_cons_self
    have later : ∀ id ∈ rest, (s.acquire first).at? ((s.acquire first).uri id) = some id := by
      intro id mem
      rw [uriAcquire]
      exact registered id (List.mem_cons_of_mem _ mem)
    have whole := ih (balancedAcquire balanced here) later
    have same : owedOn (owedOn owed [first]) rest = owedOn owed (first :: rest) := by
      funext id
      simp only [owedOn, List.count_cons, List.count_nil]
      omega
    rwa [same] at whole

theorem balancedSetReferences {references : List ScopeId}
    (balanced : Balanced (owedOn owed references) s)
    (known : s.at? (s.uri id) = some id ∨ references = []) :
    Balanced (owedOn owed (s.referencesOf id)) (s.setReferences id references) := by
  have inside : s.Known id ∨ references = [] := known.imp_left balanced.known
  refine ⟨fun other => ?_, fun {uri other} found => ?_, fun {other} gone => ?_, balanced.declaring,
    balanced.keys⟩
  · have moved := (mentionsSetReferences s id references inside).count_eq other
    have account := balanced.counts other
    rw [countSetReferences, account]
    simp only [owedOn, List.count_append] at moved ⊢
    omega
  · rw [uriSetReferences, countSetReferences]
    exact balanced.registered found
  · rw [uriSetReferences] at gone
    rw [countSetReferences]
    refine ⟨(balanced.unloaded gone).1, ?_⟩
    by_cases same : other = id
    · subst same
      rw [referencesSetSame s other references inside]
      exact known.resolve_left gone
    · rw [referencesSetOther s id other references same]
      exact (balanced.unloaded gone).2

theorem balancedRelease (balanced : Balanced (owedOn owed [id]) s)
    (remains : (s.release id).count id ≠ 0) : Balanced owed (s.release id) := by
  rw [countRelease, if_pos rfl] at remains
  refine ⟨fun other => ?_, fun {uri other} found => ?_, fun {other} gone => ?_, balanced.declaring,
    balanced.keys⟩
  · have account := balanced.counts other
    rw [owedOnOne] at account
    rw [countRelease, mentionsRelease]
    by_cases same : other = id
    · subst same
      rw [if_pos rfl] at account ⊢
      omega
    · rw [if_neg same] at account ⊢
      omega
  · obtain ⟨named, counted⟩ := balanced.registered found
    refine ⟨(uriRelease ..).trans named, ?_⟩
    rw [countRelease]
    split
    · omega
    · exact counted
  · rw [uriRelease] at gone
    have zero := (balanced.unloaded gone).1
    rw [referencesRelease, countRelease]
    refine ⟨?_, (balanced.unloaded gone).2⟩
    split
    · rename_i same
      rw [same] at zero
      omega
    · exact zero

end Steps

section Unload
variable {owed : ScopeId → Nat} {s : Solution} {id : ScopeId}

theorem registryUnload (here : s.at? (s.uri id) = some id) :
    (s.unload id).registry = s.registry.forget (s.uri id) := by
  have holds : s.registry.holds (s.uri id) id = true := by
    simpa [Registry.holds, at?] using here
  simp only [unload, holds, if_true]
  rfl

theorem atUnload (here : s.at? (s.uri id) = some id) (uri : String) :
    (s.unload id).at? uri = if uri = s.uri id then none else s.at? uri := by
  rw [at?, registryUnload here]
  exact Table.getErase

theorem releasesRelease (s : Solution) (id : ScopeId) : Releases s (s.release id) :=
  ⟨⟨fun _ => uriRelease .., fun found => found, fun _ => rfl⟩, fun _ => referencesRelease ..⟩

theorem releasesUnload (here : s.at? (s.uri id) = some id)
    (named : ∀ {uri other}, s.at? uri = some other → s.uri other = uri) :
    Releases s (s.unload id) := by
  have scopes : ∀ {uri other}, (s.unload id).at? uri = some other →
      uri ≠ s.uri id ∧ s.at? uri = some other := by
    intro uri other found
    rw [atUnload here] at found
    split at found
    · cases found
    · rename_i different
      exact ⟨different, found⟩
  refine ⟨⟨fun other => uriSetReferences .., fun found => (scopes found).2, ?_⟩, ?_⟩
  · intro uri other found
    simp only [Registry.declaredBy, registryUnload here, Registry.forget, Table.getErase]
    rw [if_neg (scopes found).1]
  · intro uri other found
    obtain ⟨different, was⟩ := scopes found
    refine referencesSetOther _ id other [] ?_
    intro same
    rw [same] at was
    exact different (named was).symm

theorem balancedUnload (balanced : Balanced (owedOn owed [id]) s)
    (here : s.at? (s.uri id) = some id) (drained : s.count id = 1) :
    Balanced (owedOn owed (s.referencesOf id)) ((s.release id).unload id) := by
  -- the last count is given back, and what the scope referred to is owed to its old list
  have here' : (s.release id).at? ((s.release id).uri id) = some id := by
    rw [uriRelease]
    exact here
  have unlisted : owed id = 0 ∧ s.mentions.count id = 0 := by
    have account := balanced.counts id
    rw [owedOnOne, if_pos rfl] at account
    omega
  have named : ∀ other, ((s.release id).unload id).uri other = s.uri other := fun other =>
    (uriSetReferences ..).trans (uriRelease ..)
  have counted : ∀ other, ((s.release id).unload id).count other =
      if other = id then 0 else s.count other := by
    intro other
    have kept : ((s.release id).unload id).count other = (s.release id).count other :=
      countSetReferences ..
    rw [kept, countRelease, drained]
  refine ⟨fun other => ?_, fun {uri other} found => ?_, fun {other} gone => ?_,
    fun {uri} gone => ?_, ?_⟩
  · have moved : (((s.release id).unload id).mentions ++ s.referencesOf id).Perm s.mentions := by
      have old := mentionsSetReferences (s.release id) id [] (Or.inr rfl)
      rwa [List.append_nil, referencesRelease, mentionsRelease] at old
    have lists := moved.count_eq other
    have account := balanced.counts other
    rw [List.count_append] at lists
    rw [owedOnOne] at account
    rw [counted, owedOn]
    by_cases same : other = id
    · subst same
      rw [if_pos rfl]
      omega
    · rw [if_neg same] at account ⊢
      omega
  · rw [atUnload here', uriRelease] at found
    split at found
    · cases found
    · rename_i different
      have was : s.at? uri = some other := found
      have other_ : other ≠ id := by
        intro same
        rw [same] at was
        exact different (balanced.registered was).1.symm
      rw [named, counted, if_neg other_]
      exact balanced.registered was
  · by_cases same : other = id
    · rw [counted, if_pos same, same]
      exact ⟨rfl, referencesSetSame _ id [] (Or.inr rfl)⟩
    · rw [named, atUnload here', uriRelease] at gone
      have was : s.at? (s.uri other) ≠ some other := by
        intro found
        have different : s.uri other ≠ s.uri id := by
          intro both
          rw [both, here] at found
          exact same (Option.some.inj found).symm
        rw [if_neg different] at gone
        exact gone found
      rw [counted, if_neg same]
      have lists : ((s.release id).unload id).referencesOf other = s.referencesOf other :=
        (referencesSetOther _ id other [] same).trans (referencesRelease ..)
      rw [lists]
      exact balanced.unloaded was
  · rw [registryUnload here', Registry.forget, Table.getErase, uriRelease]
    rw [atUnload here', uriRelease] at gone
    split
    · rfl
    · rename_i different
      rw [if_neg different] at gone
      exact balanced.declaring gone
  · rw [registryUnload here']
    exact Table.keysNodupErase balanced.keys

theorem lengthUnload (s : Solution) (id : ScopeId) :
    (s.unload id).mentions.length + (s.referencesOf id).length = s.mentions.length := by
  have moved := (mentionsSetReferences s id [] (Or.inr rfl)).length_eq
  rwa [List.length_append, List.append_nil] at moved

end Unload

theorem releaseToBalanced {owed : ScopeId → Nat} {steps : Nat} {unloaded : List String}
    {ids : List ScopeId} {s : Solution} (balanced : Balanced (owedOn owed ids) s)
    (enough : ids.length + s.mentions.length ≤ steps)
    (gone : ∀ uri ∈ unloaded, s.at? uri = none) :
    Balanced owed (releaseTo steps unloaded ids s) ∧
      Releases s (releaseTo steps unloaded ids s) := by
  induction steps generalizing unloaded ids s with
  | zero =>
    have empty : ids = [] := List.length_eq_zero_iff.mp (by omega)
    subst empty
    rw [owedOnNil] at balanced
    exact ⟨balanced, .refl s⟩
  | succ steps ih =>
    cases ids with
    | nil =>
      rw [owedOnNil] at balanced
      exact ⟨balanced, .refl s⟩
    | cons id rest =>
      rw [owedOnCons] at balanced
      have here : s.at? (s.uri id) = some id := by
        refine balanced.owing ?_
        rw [owedOnOne, if_pos rfl]
        exact Nat.succ_pos _
      have positive := (balanced.registered here).2
      rw [List.length_cons] at enough
      have fresh : s.uri id ∉ unloaded := by
        intro old
        have missing := gone _ old
        rw [here] at missing
        cases missing
      simp only [releaseTo]
      by_cases drained : (s.release id).count id = 0
      · -- The scope is unloaded, and its list is owed in its place.
        have here' : (s.release id).at? ((s.release id).uri id) = some id := by
          rw [uriRelease]
          exact here
        rw [uriRelease, if_pos ⟨drained, fresh⟩, referencesRelease]
        rw [countRelease, if_pos rfl] at drained
        have named : ∀ {uri other}, (s.release id).at? uri = some other →
            (s.release id).uri other = uri := by
          intro uri other found
          rw [uriRelease]
          exact (balanced.registered found).1
        have releases : Releases s ((s.release id).unload id) :=
          (releasesRelease s id).trans (releasesUnload here' named)
        have settled := balancedUnload balanced here (by omega)
        rw [← owedOnAppend] at settled
        have moved := lengthUnload (s.release id) id
        rw [referencesRelease, mentionsRelease] at moved
        have cleared : ∀ uri ∈ s.uri id :: unloaded,
            ((s.release id).unload id).at? uri = none := by
          intro uri old
          rw [atUnload here', uriRelease]
          rcases List.mem_cons.mp old with same | older
          · rw [if_pos same]
          · split
            · rfl
            · exact gone uri older
        have whole := ih settled (by rw [List.length_append]; omega) cleared
        exact ⟨whole.1, releases.trans whole.2⟩
      · rw [if_neg fun both => drained both.1]
        have settled := balancedRelease balanced drained
        obtain ⟨after, releases⟩ := ih settled (by rw [mentionsRelease]; omega) gone
        exact ⟨after, (releasesRelease s id).trans releases⟩

theorem releaseAllBalanced {owed : ScopeId → Nat} {ids : List ScopeId} {s : Solution}
    (balanced : Balanced (owedOn owed ids) s) :
    Balanced owed (s.releaseAll ids) ∧ Releases s (s.releaseAll ids) := by
  refine releaseToBalanced balanced (Nat.le_refl _) fun uri empty => ?_
  cases empty

end Solution
end TypeScope
