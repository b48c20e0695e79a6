import TypeScope.Proofs.Registration

/-! Runs of a registry. Clients register, take and give back counts and change what uris declare;
after every operation the count of a registered scope is what clients hold on it and what refers
to it, and an unloaded scope counts nothing and refers to nothing. -/
namespace TypeScope

def Scope.outline (scope : Scope) : String × Nat × List ScopeId :=
  (scope.uri, scope.count, scope.references)

namespace Workspace

def outlines (w : Workspace) : List (String × Nat × List ScopeId) := w.scopes.map Scope.outline

theorem outlineAt (w : Workspace) (id : ScopeId) :
    (w.scope id).outline = w.outlines.getD id (Scope.fresh "").outline :=
  viewAt Scope.outline ..

end Workspace

theorem outlineReplaceFile (scope : Scope) (links : Links) (stamp : Stamp) (file : FileId)
    (unit : Option CompilationUnit) :
    (scope.replaceFile links stamp file unit).1.outline = scope.outline := by
  have evicted : ∀ (names : List String) (s : Scope),
      (names.foldl Scope.evict s).outline = s.outline := by
    intro names
    induction names with
    | nil => intro s; rfl
    | cons name rest ih => intro s; exact ih (s.evict name)
  simp only [Scope.replaceFile]
  split
  · exact evicted _ _
  · exact evicted _ _

theorem outlinesReplaceFile (w : Workspace) (id : ScopeId) (file : FileId)
    (unit : Option CompilationUnit) :
    ((Query.replaceFile id file unit).run w).2.outlines = w.outlines := by
  have settled := outlineReplaceFile (w.scope id) w.links (Stamp.at w.clock) file unit
  exact Workspace.viewModify Scope.outline { w with clock := w.clock + 1 } id settled

namespace Pending

theorem outlinesApply (w : Workspace) (p : Pending) : (p.apply w).outlines = w.outlines := by
  obtain ⟨scope, update⟩ := p
  cases update with
  | ingest unit => exact outlinesReplaceFile ..
  | remove file => exact outlinesReplaceFile ..

theorem outlinesApplyAll (w : Workspace) (jobs : List Pending) :
    (applyAll w jobs).outlines = w.outlines := by
  induction jobs generalizing w with
  | nil => rfl
  | cons job rest ih => exact (ih (job.apply w)).trans (outlinesApply ..)

end Pending

theorem UpdateQueue.outlinesDrain (rounds : Nat) (q : UpdateQueue) (w : Workspace) :
    (UpdateQueue.drain rounds q w).2.outlines = w.outlines := by
  induction rounds generalizing q w with
  | zero => rfl
  | succ rounds ih =>
    unfold UpdateQueue.drain
    split
    · rfl
    · exact (ih _ _).trans (Pending.outlinesApplyAll ..)

namespace Solution

structure Alike (s after : Solution) : Prop where
  outlines : after.workspace.outlines = s.workspace.outlines
  scopes : after.registry.scopes = s.registry.scopes
  declared : after.registry.declared = s.registry.declared

section Alike
variable {owed : ScopeId → Nat} {s after : Solution}

theorem Alike.outline (alike : Alike s after) (id : ScopeId) :
    (after.workspace.scope id).outline = (s.workspace.scope id).outline := by
  rw [Workspace.outlineAt, Workspace.outlineAt, alike.outlines]

theorem Alike.uri (alike : Alike s after) (id : ScopeId) : after.uri id = s.uri id :=
  congrArg Prod.fst (alike.outline id)

theorem Alike.count (alike : Alike s after) (id : ScopeId) : after.count id = s.count id :=
  congrArg (fun outline => outline.2.1) (alike.outline id)

theorem Alike.references (alike : Alike s after) (id : ScopeId) :
    after.referencesOf id = s.referencesOf id :=
  congrArg (fun outline => outline.2.2) (alike.outline id)

theorem Alike.mentions (alike : Alike s after) : after.mentions = s.mentions := by
  have outlined : ∀ t : Solution, t.mentions = t.workspace.outlines.flatMap (fun o => o.2.2) := by
    intro t
    rw [Workspace.outlines, List.flatMap_map]
    rfl
  rw [outlined, outlined, alike.outlines]

theorem Alike.at? (alike : Alike s after) (uri : String) : after.at? uri = s.at? uri := by
  rw [Solution.at?, alike.scopes, Solution.at?]

theorem settledAlike (settled : Settled owed s) (alike : Alike s after) : Settled owed after := by
  obtain ⟨balanced, exactly⟩ := settled
  refine ⟨⟨fun id => ?_, fun {uri id} found => ?_, fun {id} gone => ?_, fun {uri} gone => ?_, ?_⟩,
    fun uri id found => ?_⟩
  · rw [alike.count, alike.mentions]
    exact balanced.counts id
  · rw [alike.at?] at found
    rw [alike.uri, alike.count]
    exact balanced.registered found
  · rw [alike.at?, alike.uri] at gone
    rw [alike.count, alike.references]
    exact balanced.unloaded gone
  · rw [alike.at?] at gone
    rw [alike.declared]
    exact balanced.declaring gone
  · rw [alike.scopes]
    exact balanced.keys
  · rw [alike.at?] at found
    have declares := exactly uri id found
    rw [alike.references, declares]
    simp only [Registry.references, Registry.declaredBy, alike.scopes, alike.declared]

end Alike

theorem forceToSettled {owed : ScopeId → Nat} {renew : Bool} {steps : Nat}
    {visited : List String} {stack : List ScopeId} {s : Solution} (settled : Settled owed s) :
    Settled owed (forceTo renew steps visited stack s) := by
  induction steps generalizing visited stack s with
  | zero => exact settled
  | succ steps ih =>
    unfold forceTo
    split
    · exact settled
    · rename_i id rest next
      refine ih (settledAlike ?_ ⟨Pending.outlinesApplyAll .., rfl, rfl⟩)
      split
      · rename_i held
        have here : s.at? (s.uri id) = some id := by
          have both := (Bool.and_eq_true_iff.mp held).2
          simpa [Registry.holds, at?] using both
        exact rebuildSettled settled.balanced here fun other _ => settled.exactly other
      · exact settled

end Solution

inductive Action where
  | register (uri : String) (references : List String)
  | getScope (uri : String) (keep : Bool)
  | unref (uri : String)
  | updateReferences (uri : String)
  | addReference (uri target : String)
  | removeReference (uri target : String)
  | enqueue (uri : String) (update : Update)
  | forceUpdate (uri : String) (renew : Bool)
  | waitIdle

namespace Action

def perform (s : Solution) : Action → Solution
  | register uri references => (s.register uri references).1
  | getScope uri keep => (s.getScope uri keep).1
  | unref uri => (s.unref uri).toOption.getD s
  | updateReferences uri => (s.updateReferences uri).toOption.getD s
  | addReference uri target => (s.addReference uri target).toOption.getD s
  | removeReference uri target => (s.removeReference uri target).toOption.getD s
  | enqueue uri update => (s.enqueue uri update).toOption.getD s
  | forceUpdate uri renew => (s.forceUpdate uri renew).toOption.getD s
  | waitIdle => s.waitIdle

def taken (s : Solution) : Action → List ScopeId
  | register uri references => [(s.register uri references).2]
  | getScope uri true => (s.registry.scopes.get? uri).toList
  | _ => []

def givenBack (s : Solution) : Action → List ScopeId
  | unref uri => (s.registry.scopes.get? uri).toList
  | _ => []

def held (s : Solution) (action : Action) (before : ScopeId → Nat) (id : ScopeId) : Nat :=
  before id + (action.taken s).count id - (action.givenBack s).count id

def Fair (s : Solution) (held : ScopeId → Nat) (action : Action) : Prop :=
  ∀ id ∈ action.givenBack s, 0 < held id

end Action

inductive Run (settings : QueueSettings) : Solution → (ScopeId → Nat) → Prop where
  | start : Run settings (Solution.start settings) (fun _ => 0)
  | step {s held} (before : Run settings s held) (action : Action) (fair : action.Fair s held) :
      Run settings (action.perform s) (action.held s held)

section Run
variable {settings : QueueSettings} {s : Solution} {held : ScopeId → Nat}

theorem heldSame {action : Action} (taken : action.taken s = [])
    (givenBack : action.givenBack s = []) : action.held s held = held := by
  funext id
  simp [Action.held, taken, givenBack]

theorem heldTaken {action : Action} {id : ScopeId} (taken : action.taken s = [id])
    (givenBack : action.givenBack s = []) : action.held s held = owedOn held [id] := by
  funext other
  simp [Action.held, taken, givenBack, owedOn]

theorem findAt {uri : String} :
    s.registry.find uri = (s.at? uri).elim (.error (.unknownScope uri)) .ok := by
  rw [Registry.find, Solution.at?]
  cases s.registry.scopes.get? uri <;> rfl

theorem unrefSettled {uri : String} (settled : Solution.Settled held s)
    (fair : (Action.unref uri).Fair s held) :
    Solution.Settled ((Action.unref uri).held s held) ((Action.unref uri).perform s) := by
  simp only [Action.perform, Solution.unref, findAt]
  cases found : s.at? uri with
  | none =>
    rw [heldSame rfl (by simp only [Action.givenBack]; rw [← Solution.at?, found]; rfl)]
    exact settled
  | some id =>
    have givenBack : (Action.unref uri).givenBack s = [id] := by
      simp only [Action.givenBack]
      rw [← Solution.at?, found]
      rfl
    have positive : 0 < held id := fair id (by rw [givenBack]; exact List.mem_cons_self)
    have owed : owedOn ((Action.unref uri).held s held) [id] = held := by
      funext other
      simp only [owedOnOne, Action.held, givenBack, Action.taken, List.count_nil]
      by_cases same : other = id
      · subst same
        simp
        omega
      · have absent : [id].count other = 0 := by simp [List.count_eq_zero, same]
        simp [absent, same]
    rw [← owed] at settled
    have released := Solution.settledReleaseAll settled
    simp only [Option.elim, bind, Except.bind]
    split
    · exact Solution.settledAlike released ⟨rfl, rfl, rfl⟩
    · exact released

theorem getScopeSettled (settled : Solution.Settled held s) (uri : String) (keep : Bool) :
    Solution.Settled ((Action.getScope uri keep).held s held)
      ((Action.getScope uri keep).perform s) := by
  simp only [Action.perform, Solution.getScope]
  cases keep with
  | false =>
    rw [heldSame rfl rfl]
    cases s.registry.scopes.get? uri <;> exact settled
  | true =>
    cases found : s.registry.scopes.get? uri with
    | none =>
      rw [heldSame (by rw [Action.taken, found]; rfl) rfl]
      exact settled
    | some id =>
      rw [heldTaken (by rw [Action.taken, found]; rfl) rfl]
      exact Solution.settledAcquire settled found

theorem performSettled (settled : Solution.Settled held s) (action : Action)
    (fair : action.Fair s held) :
    Solution.Settled (action.held s held) (action.perform s) := by
  cases action with
  | register uri references =>
    rw [heldTaken rfl rfl]
    exact Solution.registerSettled settled references
  | getScope uri keep => exact getScopeSettled settled uri keep
  | unref uri => exact unrefSettled settled fair
  | updateReferences uri =>
    rw [heldSame rfl rfl]
    simp only [Action.perform, Solution.updateReferences, findAt]
    cases found : s.at? uri with
    | none => exact settled
    | some id =>
      exact Solution.rebuildSettled settled.balanced found fun other _ => settled.exactly other
  | addReference uri target =>
    rw [heldSame rfl rfl]
    simp only [Action.perform, Solution.addReference, findAt]
    cases found : s.at? uri with
    | none => exact settled
    | some id =>
      simp only [Option.elim, bind, Except.bind]
      split
      · exact settled
      · exact Solution.declareSettled settled found _
  | removeReference uri target =>
    rw [heldSame rfl rfl]
    simp only [Action.perform, Solution.removeReference, findAt]
    cases found : s.at? uri with
    | none => exact settled
    | some id =>
      simp only [Option.elim, bind, Except.bind]
      split
      · exact Solution.declareSettled settled found _
      · exact settled
  | enqueue uri update =>
    rw [heldSame rfl rfl]
    simp only [Action.perform, Solution.enqueue, findAt]
    cases found : s.at? uri with
    | none => exact settled
    | some id => exact Solution.settledAlike settled ⟨rfl, rfl, rfl⟩
  | forceUpdate uri renew =>
    rw [heldSame rfl rfl]
    simp only [Action.perform, Solution.forceUpdate, findAt]
    cases found : s.at? uri with
    | none => exact settled
    | some id => exact Solution.forceToSettled settled
  | waitIdle =>
    rw [heldSame rfl rfl]
    exact Solution.settledAlike settled ⟨UpdateQueue.outlinesDrain .., rfl, rfl⟩

theorem startSettled (settings : QueueSettings) :
    Solution.Settled (fun _ => 0) (Solution.start settings) := by
  refine ⟨⟨fun id => rfl, fun found => ?_, fun _ => ⟨rfl, rfl⟩, fun _ => rfl, List.nodup_nil⟩,
    fun uri id found => ?_⟩
  · cases found
  · cases found

theorem runSettled (run : Run settings s held) : Solution.Settled held s := by
  induction run with
  | start => exact startSettled settings
  | step before action fair ih => exact performSettled ih action fair

end Run

section Counting

theorem countFlatMap {ids : List ScopeId} {lists : ScopeId → List ScopeId}
    (nodup : ∀ other, (lists other).Nodup) (id : ScopeId) :
    (ids.flatMap lists).count id = (ids.filter (fun other => id ∈ lists other)).length := by
  induction ids with
  | nil => rfl
  | cons first rest ih =>
    rw [List.flatMap_cons, List.count_append, ih]
    by_cases mem : id ∈ lists first
    · rw [List.count_eq_one_of_mem (nodup first) mem, List.filter_cons_of_pos (by simpa using mem)]
      rw [List.length_cons, Nat.add_comm]
    · rw [List.count_eq_zero.mpr mem, List.filter_cons_of_neg (by simpa using mem), Nat.zero_add]

variable {owed : ScopeId → Nat} {s : Solution}

theorem Solution.valuesRegistered (balanced : Balanced owed s) {id : ScopeId} :
    id ∈ s.registry.scopes.values ↔ s.at? (s.uri id) = some id := by
  refine ⟨fun mem => ?_, Table.valueOfGet⟩
  obtain ⟨⟨uri, other⟩, entry, same⟩ := List.mem_map.mp mem
  cases same
  have here : s.at? uri = some other := (Table.getIffMem balanced.keys).mpr entry
  rwa [(balanced.registered here).1]

theorem Solution.valuesNodup (balanced : Balanced owed s) : s.registry.scopes.values.Nodup := by
  have named : s.registry.scopes.values.map s.uri = s.registry.scopes.keys := by
    rw [Table.values, List.map_map, Table.keys]
    refine List.map_congr_left fun e entry => ?_
    have here : s.at? e.1 = some e.2 := (Table.getIffMem balanced.keys).mpr entry
    exact (balanced.registered here).1
  have keys := balanced.keys
  rw [← named] at keys
  exact keys.of_map

theorem Solution.referencesNodup (settled : Settled owed s) (id : ScopeId) :
    (s.referencesOf id).Nodup := by
  by_cases here : s.at? (s.uri id) = some id
  · rw [settled.exactly _ id here, Registry.references]
    refine (distinctNodup _).filterMap fun uri other r first second => ?_
    have one : s.at? uri = some r := first
    have two : s.at? other = some r := second
    rw [← (settled.balanced.registered one).1, (settled.balanced.registered two).1]
  · rw [(settled.balanced.unloaded here).2]
    exact List.nodup_nil

theorem Solution.mentionsCount (settled : Settled owed s) (id : ScopeId) :
    s.mentions.count id =
      (s.registry.scopes.values.filter (fun other => id ∈ s.referencesOf other)).length := by
  rw [mentionsByScope, countFlatMap (referencesNodup settled)]
  refine List.Perm.length_eq ?_
  rw [List.perm_ext_iff_of_nodup (List.nodup_range.filter _)
    ((valuesNodup settled.balanced).filter _)]
  intro other
  simp only [List.mem_filter, List.mem_range, decide_eq_true_eq, valuesRegistered settled.balanced]
  refine and_congr_left fun mem => ⟨fun _ => ?_, fun here => settled.balanced.known here⟩
  by_contra gone
  rw [(settled.balanced.unloaded gone).2] at mem
  cases mem

theorem Solution.referencesDeclared (settled : Settled owed s) {uri : String} {id : ScopeId}
    (here : s.at? uri = some id) :
    (s.referencesOf id).map s.uri = (distinct (s.registry.declaredBy uri)).filter
      (fun other => other ≠ uri ∧ s.registry.contains other) := by
  rw [settled.exactly uri id here, Registry.references, distinctFilter]
  induction distinct (s.registry.declaredBy uri) with
  | nil => rfl
  | cons first rest ih =>
    by_cases same : first = uri
    · simpa [List.filter_cons, same] using ih
    · rw [List.filter_cons_of_pos (by simpa using same), List.filterMap_cons, List.filter_cons]
      cases found : s.at? first with
      | none =>
        have absent : s.registry.contains first = false := by
          rw [Registry.contains, Table.contains, ← Solution.at?, found]
          rfl
        rw [Solution.at?] at found
        simpa [found, absent, same] using ih
      | some r =>
        have named := (settled.balanced.registered found).1
        have present : s.registry.contains first = true := by
          rw [Registry.contains, Table.contains, ← Solution.at?, found]
          rfl
        rw [Solution.at?] at found
        simpa [found, present, same, named] using ih

end Counting

section Run
variable {settings : QueueSettings} {s : Solution} {held : ScopeId → Nat}

theorem referenceCountsExact (run : Run settings s held) :
    (∀ uri id, s.registry.scopes.get? uri = some id →
      s.count id = held id +
        (s.registry.scopes.values.filter (fun other => id ∈ s.referencesOf other)).length ∧
      (s.referencesOf id).map s.uri = (distinct (s.registry.declaredBy uri)).filter
        (fun other => other ≠ uri ∧ s.registry.contains other) ∧
      (∀ r ∈ s.referencesOf id, s.registry.scopes.get? (s.uri r) = some r) ∧
      0 < s.count id) ∧
    ∀ id, id ∉ s.registry.scopes.values → s.count id = 0 ∧ s.referencesOf id = [] := by
  have settled := runSettled run
  refine ⟨fun uri id here => ⟨?_, ?_, fun r mem => ?_, ?_⟩, fun id gone => ?_⟩
  · rw [settled.balanced.counts, Solution.mentionsCount settled]
  · exact Solution.referencesDeclared settled here
  · exact settled.balanced.mentioned (Solution.memMentions mem)
  · exact (settled.balanced.registered here).2
  · rw [Solution.valuesRegistered settled.balanced] at gone
    exact settled.balanced.unloaded gone

def cycle : List Action :=
  [.register "c" ["a", "c", "a", "z"], .register "a" ["b"], .register "b" ["a"], .unref "b",
    .removeReference "a" "b"]

def cyclic : Solution := cycle.foldl Action.perform (Solution.start .inline)

theorem referenceCountsCyclic :
    ∃ held, Run .inline cyclic held ∧ cyclic.count 1 = held 1 + 1 ∧
      (cyclic.referencesOf 0).map cyclic.uri = ["a"] ∧
      cyclic.count 2 = 0 ∧ cyclic.referencesOf 2 = [] := by
  have registered : Run .inline _ _ :=
    ((Run.start.step (.register "c" ["a", "c", "a", "z"]) fun _ mem => by cases mem).step
      (.register "a" ["b"]) fun _ mem => by cases mem).step
      (.register "b" ["a"]) fun _ mem => by cases mem
  have run : Run .inline cyclic _ :=
    (registered.step (.unref "b") (by unfold Action.Fair; decide)).step
      (.removeReference "a" "b") fun _ mem => by cases mem
  obtain ⟨present, absent⟩ := referenceCountsExact run
  obtain ⟨counted, -, -, -⟩ := present "a" 1 (by decide)
  obtain ⟨-, declared, -, -⟩ := present "c" 0 (by decide)
  have mentioned : (cyclic.registry.scopes.values.filter
      (fun other => 1 ∈ cyclic.referencesOf other)).length = 1 := by decide
  rw [mentioned] at counted
  refine ⟨_, run, counted, declared.trans (by decide), absent 2 (by decide)⟩

end Run
end TypeScope
