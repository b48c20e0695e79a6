import TypeScope.Proofs.Balance

/-! What registering a scope and making references anew do to the account. Every operation leaves
the counts balanced, and brings the lists it is about to what their uris declare. -/
namespace TypeScope.Solution

structure Settled (owed : ScopeId → Nat) (s : Solution) : Prop where
  balanced : Balanced owed s
  exactly : ∀ uri, Exact s uri

section Rebuild
variable {owed : ScopeId → Nat} {s : Solution} {id : ScopeId}

theorem registryAcquireAll (ids : List ScopeId) (s : Solution) :
    (ids.foldl acquire s).registry = s.registry := by
  induction ids generalizing s with
  | nil => rfl
  | cons first rest ih => exact ih (s.acquire first)

theorem uriAcquireAll (ids : List ScopeId) (s : Solution) (other : ScopeId) :
    (ids.foldl acquire s).uri other = s.uri other := by
  induction ids generalizing s with
  | nil => rfl
  | cons first rest ih => exact (ih (s.acquire first)).trans (uriAcquire ..)

theorem referencesAcquireAll (ids : List ScopeId) (s : Solution) (other : ScopeId) :
    (ids.foldl acquire s).referencesOf other = s.referencesOf other := by
  induction ids generalizing s with
  | nil => rfl
  | cons first rest ih => exact (ih (s.acquire first)).trans (referencesAcquire ..)

def renewed (s : Solution) (id : ScopeId) : Solution :=
  ((s.registry.references (s.uri id)).foldl acquire s).setReferences id
    (s.registry.references (s.uri id))

theorem registryRenewed (s : Solution) (id : ScopeId) : (s.renewed id).registry = s.registry :=
  registryAcquireAll ..

theorem uriRenewed (s : Solution) (id other : ScopeId) :
    (s.renewed id).uri other = s.uri other :=
  (uriSetReferences ..).trans (uriAcquireAll ..)

theorem atRenewed (s : Solution) (id : ScopeId) (uri : String) :
    (s.renewed id).at? uri = s.at? uri := by
  rw [at?, registryRenewed, at?]

theorem balancedDeclared (balanced : Balanced owed s) (uri : String) :
    Balanced (owedOn owed (s.registry.references uri))
      ((s.registry.references uri).foldl acquire s) := by
  refine balancedAcquireAll balanced fun r listed => ?_
  obtain ⟨other, -, found⟩ := List.mem_filterMap.mp listed
  have here : s.at? other = some r := found
  rwa [(balanced.registered here).1]

theorem referencesNone (balanced : Balanced owed s) {uri : String} (gone : s.at? uri = none) :
    s.registry.references uri = [] := by
  simp [Registry.references, Registry.declaredBy, balanced.declaring gone, distinct]

theorem balancedRenewed (balanced : Balanced owed s)
    (current : ∀ other, s.at? (s.uri id) = some other → other = id) :
    Balanced (owedOn owed (s.referencesOf id)) (s.renewed id) := by
  have acquired := balancedDeclared balanced (s.uri id)
  have lists : ((s.registry.references (s.uri id)).foldl acquire s).referencesOf id =
      s.referencesOf id := referencesAcquireAll ..
  rw [← lists]
  refine balancedSetReferences acquired ?_
  rw [at?, registryAcquireAll, uriAcquireAll]
  cases found : s.at? (s.uri id) with
  | none => exact .inr (referencesNone balanced found)
  | some other =>
    left
    rw [← current other found]
    rw [← current other found] at found
    exact found

theorem exactRenewed (balanced : Balanced owed s)
    (current : ∀ other, s.at? (s.uri id) = some other → other = id) {uri : String}
    (declares : uri = s.uri id ∨ Exact s uri) : Exact (s.renewed id) uri := by
  intro other here
  rw [atRenewed] at here
  rw [registryRenewed]
  have named := (balanced.registered here).1
  have acquired : ∀ x, ((s.registry.references (s.uri id)).foldl acquire s).referencesOf x =
      s.referencesOf x := fun x => referencesAcquireAll ..
  by_cases same : other = id
  · subst same
    have here' : ((s.registry.references (s.uri other)).foldl acquire s).at? uri = some other := by
      rw [at?, registryAcquireAll]
      exact here
    have known := (balancedDeclared balanced (s.uri other)).known here'
    rw [← named]
    exact referencesSetSame _ other _ (.inl known)
  · have kept : (s.renewed id).referencesOf other = s.referencesOf other :=
      (referencesSetOther _ id other _ same).trans (acquired other)
    have different : uri ≠ s.uri id := by
      intro both
      rw [both] at here
      exact same (current other here)
    rw [kept]
    exact declares.resolve_left different other here

theorem rebuildBalanced (balanced : Balanced owed s)
    (current : ∀ other, s.at? (s.uri id) = some other → other = id) :
    Balanced owed (s.rebuildReferences id) ∧ Shrinks s (s.rebuildReferences id) ∧
      ∀ uri, (uri = s.uri id ∨ Exact s uri) → Exact (s.rebuildReferences id) uri := by
  have before := balancedRenewed balanced current
  obtain ⟨after, releases⟩ := releaseAllBalanced before
  have renews : Shrinks s (s.renewed id) := by
    refine ⟨uriRenewed s id, fun {uri other} found => ?_, fun {uri other} _ => ?_⟩
    · rwa [atRenewed] at found
    · rw [registryRenewed]
  refine ⟨after, renews.trans releases.toShrinks, fun uri declares => ?_⟩
  exact exactReleases before after releases (exactRenewed balanced current declares)

theorem rebuildSettled (balanced : Balanced owed s) {uri : String} (here : s.at? uri = some id)
    (others : ∀ other, other ≠ uri → Exact s other) : Settled owed (s.rebuildReferences id) := by
  have named := (balanced.registered here).1
  have current : ∀ other, s.at? (s.uri id) = some other → other = id := by
    intro other found
    rw [named, here] at found
    exact (Option.some.inj found).symm
  obtain ⟨after, -, exactly⟩ := rebuildBalanced balanced current
  refine ⟨after, fun other => exactly other ?_⟩
  rw [named]
  by_cases same : other = uri
  · exact .inl same
  · exact .inr (others other same)

theorem rebuildAllSettled {ids : List ScopeId} (balanced : Balanced owed s)
    (current : ∀ id ∈ ids, ∀ other, s.at? (s.uri id) = some other → other = id)
    (others : ∀ uri, uri ∈ ids.map s.uri ∨ Exact s uri) :
    Settled owed (ids.foldl rebuildReferences s) := by
  induction ids generalizing s with
  | nil => exact ⟨balanced, fun uri => (others uri).resolve_left (by simp)⟩
  | cons first rest ih =>
    obtain ⟨after, shrinks, exactly⟩ := rebuildBalanced balanced (current first List.mem_cons_self)
    refine ih after (fun id mem other found => ?_) fun uri => ?_
    · rw [shrinks.uris] at found
      exact current id (List.mem_cons_of_mem _ mem) other (shrinks.scopes found)
    · have names : rest.map (s.rebuildReferences first).uri = rest.map s.uri :=
        List.map_congr_left fun id _ => shrinks.uris id
      rw [names]
      rcases others uri with listed | declares
      · rcases List.mem_cons.mp listed with now | later
        · exact .inr (exactly uri (.inl now))
        · exact .inl later
      · exact .inr (exactly uri (.inr declares))

end Rebuild

section Open
variable {owed : ScopeId → Nat} {s : Solution} {uri : String} {references : List String}

def opened (s : Solution) (uri : String) : Solution :=
  { s with workspace := ((Query.openScope uri).run s.workspace).2 }

def newest (s : Solution) : ScopeId := s.workspace.scopes.length

theorem scopeOpened (s : Solution) (uri : String) (id : ScopeId) :
    (s.opened uri).workspace.scope id =
      if id = s.newest then Scope.fresh uri else s.workspace.scope id := by
  have scopes : (s.opened uri).workspace.scopes = s.workspace.scopes ++ [Scope.fresh uri] := rfl
  simp only [Workspace.scope, scopes, newest, List.getD_eq_getElem?_getD]
  by_cases same : id = s.workspace.scopes.length
  · simp [same]
  · rw [if_neg same]
    by_cases known : id < s.workspace.scopes.length
    · rw [List.getElem?_append_left known]
    · have least : s.workspace.scopes.length ≤ id := Nat.le_of_not_lt known
      have beyond : (s.workspace.scopes ++ [Scope.fresh uri]).length ≤ id := by
        rw [List.length_append, List.length_singleton]
        exact Nat.lt_of_le_of_ne least (Ne.symm same)
      rw [List.getElem?_eq_none beyond, List.getElem?_eq_none least]

theorem newestUnknown (s : Solution) : ¬ s.Known s.newest := Nat.lt_irrefl _

theorem countOpened (s : Solution) (uri : String) (id : ScopeId) :
    (s.opened uri).count id = s.count id := by
  rw [count, scopeOpened]
  split
  · rename_i same
    rw [same, (unknownCount s.newestUnknown).1]
    rfl
  · rfl

theorem referencesOpened (s : Solution) (uri : String) (id : ScopeId) :
    (s.opened uri).referencesOf id = s.referencesOf id := by
  rw [referencesOf, scopeOpened]
  split
  · rename_i same
    rw [same, (unknownCount s.newestUnknown).2]
    rfl
  · rfl

theorem mentionsOpened (s : Solution) (uri : String) : (s.opened uri).mentions = s.mentions := by
  have scopes : (s.opened uri).workspace.scopes = s.workspace.scopes ++ [Scope.fresh uri] := rfl
  simp [mentions, scopes, Scope.fresh]

theorem uriOpened (s : Solution) (uri : String) {id : ScopeId} (old : id ≠ s.newest) :
    (s.opened uri).uri id = s.uri id := by
  rw [Solution.uri, Workspace.uri, scopeOpened, if_neg old]
  rfl

theorem balancedOpened (balanced : Balanced owed s) (uri : String) :
    Balanced owed (s.opened uri) := by
  refine ⟨fun id => ?_, fun {other id} found => ?_, fun {id} gone => ?_, balanced.declaring,
    balanced.keys⟩
  · rw [countOpened, mentionsOpened]
    exact balanced.counts id
  · have was : s.at? other = some id := found
    have old : id ≠ s.newest := by
      intro same
      exact s.newestUnknown (same ▸ balanced.known was)
    rw [uriOpened s uri old, countOpened]
    exact balanced.registered was
  · rw [countOpened, referencesOpened]
    by_cases new : id = s.newest
    · subst new
      exact unknownCount s.newestUnknown
    · rw [uriOpened s uri new] at gone
      exact balanced.unloaded gone

theorem balancedDeclare (balanced : Balanced owed s) {id : ScopeId} (here : s.at? uri = some id) :
    Balanced owed { s with registry := s.registry.declare uri references } := by
  refine ⟨balanced.counts, balanced.registered, balanced.unloaded, fun {other} gone => ?_,
    balanced.keys⟩
  have missing : s.at? other = none := gone
  have different : uri ≠ other := by
    intro same
    rw [same, missing] at here
    cases here
  rw [Registry.declare, Table.getPut, if_neg different]
  exact balanced.declaring missing

theorem exactDeclare {other : String} (different : other ≠ uri) (declares : Exact s other) :
    Exact { s with registry := s.registry.declare uri references } other := by
  intro id here
  have was := declares id here
  have same : (s.registry.declare uri references).declaredBy other =
      s.registry.declaredBy other := by
    rw [Registry.declaredBy, Registry.declare, Table.getPut, if_neg (Ne.symm different)]
    rfl
  have lists : (s.registry.declare uri references).references other =
      s.registry.references other := by
    rw [Registry.references, same]
    rfl
  rw [lists]
  exact was

def enrol (s : Solution) (uri : String) (references : List String) (id : ScopeId) : Solution :=
  let registry := { s.registry with scopes := s.registry.scopes.put uri id }.declare uri references
  ({ s with registry := registry } : Solution).acquire id

theorem atEnrol (s : Solution) (uri : String) (references : List String) (id : ScopeId)
    (other : String) :
    (s.enrol uri references id).at? other = if uri = other then some id else s.at? other :=
  Table.getPut

theorem balancedEnrol (balanced : Balanced owed s) {id : ScopeId} (free : s.at? uri = none)
    (named : s.uri id = uri) (known : s.Known id) (references : List String) :
    Balanced (owedOn owed [id]) (s.enrol uri references id) := by
  have counted : ∀ other, (s.enrol uri references id).count other =
      s.count other + if other = id then 1 else 0 := fun other => countAcquire _ id other known
  have called : ∀ other, (s.enrol uri references id).uri other = s.uri other := fun other =>
    uriAcquire ..
  refine ⟨fun other => ?_, fun {other x} found => ?_, fun {x} gone => ?_, fun {other} gone => ?_,
    Table.keysNodupPut balanced.keys⟩
  · have same : (s.enrol uri references id).mentions = s.mentions := mentionsAcquire ..
    rw [counted, owedOnOne, same, balanced.counts other]
    omega
  · rw [atEnrol] at found
    rw [called, counted]
    split at found
    · rename_i here
      cases Option.some.inj found
      rw [if_pos rfl, named]
      exact ⟨here, Nat.succ_pos _⟩
    · have was := balanced.registered found
      exact ⟨was.1, Nat.add_pos_left was.2 _⟩
  · rw [atEnrol, called] at gone
    have lists : (s.enrol uri references id).referencesOf x = s.referencesOf x :=
      referencesAcquire ..
    rw [counted, lists]
    have other : x ≠ id := by
      intro same
      rw [same, if_pos named.symm] at gone
      exact gone rfl
    have away : s.at? (s.uri x) ≠ some x := by
      intro found
      split at gone
      · rename_i here
        rw [← here, free] at found
        cases found
      · exact gone found
    rw [if_neg other]
    exact balanced.unloaded away
  · rw [atEnrol] at gone
    split at gone
    · cases gone
    · rename_i different
      have kept : (s.enrol uri references id).registry.declared.get? other =
          s.registry.declared.get? other := by
        have put : (s.enrol uri references id).registry.declared =
            s.registry.declared.put uri references := rfl
        rw [put, Table.getPut, if_neg different]
      rw [kept]
      exact balanced.declaring gone

theorem exactEnrol {id : ScopeId} {other : String} (different : other ≠ uri)
    (silent : uri ∉ (s.enrol uri references id).registry.declaredBy other)
    (declares : Exact s other) : Exact (s.enrol uri references id) other := by
  intro x here
  rw [atEnrol, if_neg (Ne.symm different)] at here
  have lists : (s.enrol uri references id).referencesOf x = s.referencesOf x :=
    referencesAcquire ..
  have same : (s.enrol uri references id).registry.declaredBy other =
      s.registry.declaredBy other := by
    have put : (s.enrol uri references id).registry.declared =
        s.registry.declared.put uri references := rfl
    rw [Registry.declaredBy, put, Table.getPut, if_neg (Ne.symm different)]
    rfl
  rw [lists, declares x here]
  simp only [Registry.references, same]
  refine List.filterMap_congr fun target listed => ?_
  have apart : uri ≠ target := by
    intro both
    rw [same] at silent
    have declared := (List.mem_filter.mp (memDistinct.mp listed)).1
    exact silent (both ▸ declared)
  have kept := atEnrol s uri references id target
  rw [if_neg apart] at kept
  exact kept.symm

theorem dependentsSettled (balanced : Balanced owed s)
    (others : ∀ other, other = uri ∨ uri ∉ s.registry.declaredBy other → Exact s other) :
    Settled owed ((s.registry.dependents uri).foldl rebuildReferences s) := by
  refine rebuildAllSettled balanced (fun id mem other found => ?_) fun other => ?_
  · obtain ⟨e, -, registered⟩ := List.mem_filterMap.mp mem
    have here : s.at? e.1 = some id := registered
    rw [(balanced.registered here).1, here] at found
    exact (Option.some.inj found).symm
  · by_cases listed : other ≠ uri ∧ uri ∈ s.registry.declaredBy other
    · obtain ⟨different, mem⟩ := listed
      cases found : s.at? other with
      | none =>
        right
        intro id here
        rw [found] at here
        cases here
      | some id =>
        left
        cases declared : s.registry.declared.get? other with
        | none =>
          rw [Registry.declaredBy, declared] at mem
          cases mem
        | some uris =>
          rw [Registry.declaredBy, declared] at mem
          have entry := Table.memOfGet declared
          refine List.mem_map.mpr ⟨id, List.mem_filterMap.mpr ⟨(other, uris), ?_, found⟩,
            (balanced.registered found).1⟩
          refine List.mem_filter.mpr ⟨entry, ?_⟩
          have inList : uri ∈ uris := mem
          simp [different, inList]
    · right
      refine others other ?_
      by_cases same : other = uri
      · exact .inl same
      · exact .inr fun mem => listed ⟨same, mem⟩

def joined (s : Solution) (uri : String) (references : List String) : Solution :=
  ((s.opened uri).enrol uri references s.newest).rebuildReferences s.newest

theorem registerNewJoined (s : Solution) (uri : String) (references : List String) :
    (s.registerNew uri references).1 =
      ((s.joined uri references).registry.dependents uri).foldl rebuildReferences
        (s.joined uri references) := rfl

theorem registerNewSettled (settled : Settled owed s) (free : s.at? uri = none) :
    Settled (owedOn owed [s.newest]) (s.registerNew uri references).1 := by
  have named : (s.opened uri).uri s.newest = uri := by
    rw [Solution.uri, Workspace.uri, scopeOpened, if_pos rfl]
    rfl
  have known : (s.opened uri).Known s.newest := by
    have scopes : (s.opened uri).workspace.scopes = s.workspace.scopes ++ [Scope.fresh uri] := rfl
    simp [Known, scopes, newest]
  have exactOpened : ∀ other, Exact (s.opened uri) other := by
    intro other x found
    rw [referencesOpened]
    exact settled.exactly other x found
  have enrolled := balancedEnrol (balancedOpened settled.balanced uri) free named known references
  have here := atEnrol (s.opened uri) uri references s.newest uri
  rw [if_pos rfl] at here
  have called := (enrolled.registered here).1
  have current : ∀ other, ((s.opened uri).enrol uri references s.newest).at?
      (((s.opened uri).enrol uri references s.newest).uri s.newest) = some other →
      other = s.newest := by
    intro other found
    rw [called, here] at found
    exact (Option.some.inj found).symm
  obtain ⟨after, shrinks, exactly⟩ := rebuildBalanced enrolled current
  rw [registerNewJoined]
  refine dependentsSettled after fun other quiet x found => ?_
  refine exactly other ?_ x found
  rw [joined, shrinks.declared found] at quiet
  rw [called]
  by_cases same : other = uri
  · exact .inl same
  · exact .inr (exactEnrol same (quiet.resolve_left same) (exactOpened other))

end Open

section Operations
variable {owed : ScopeId → Nat} {s : Solution} {uri : String}

theorem settledAcquire (settled : Settled owed s) {id : ScopeId} (here : s.at? uri = some id) :
    Settled (owedOn owed [id]) (s.acquire id) := by
  refine ⟨balancedAcquire settled.balanced here, fun other x found => ?_⟩
  rw [referencesAcquire]
  exact settled.exactly other x found

theorem declareSettled (settled : Settled owed s) {id : ScopeId} (here : s.at? uri = some id)
    (references : List String) :
    Settled owed
      (rebuildReferences { s with registry := s.registry.declare uri references } id) :=
  rebuildSettled (balancedDeclare settled.balanced here) here
    fun other different => exactDeclare different (settled.exactly other)

theorem registerSettled (settled : Settled owed s) (references : List String) :
    Settled (owedOn owed [(s.register uri references).2]) (s.register uri references).1 := by
  rw [register]
  cases found : s.registry.scopes.get? uri with
  | some id => exact declareSettled (settledAcquire settled found) found references
  | none => exact registerNewSettled settled found

theorem settledReleaseAll {ids : List ScopeId} (settled : Settled (owedOn owed ids) s) :
    Settled owed (s.releaseAll ids) := by
  obtain ⟨after, releases⟩ := releaseAllBalanced settled.balanced
  exact ⟨after, fun other =>
    exactReleases settled.balanced after releases (settled.exactly other)⟩

end Operations
end TypeScope.Solution
