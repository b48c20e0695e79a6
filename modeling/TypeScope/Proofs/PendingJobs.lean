import TypeScope.Proofs.ForcedUpdates

/-! Whose the pending jobs are. A job waits for a registered scope; when the client gives back the
last count on that scope, its jobs are dropped. A scope that is unloaded in the wake of an operation
on another uri leaves its jobs behind, and they wait on for a scope that nobody can ask for. -/
namespace TypeScope

namespace Solution

structure Quiet (s after : Solution) : Prop where
  queue : after.registry.queue = s.registry.queue
  length : after.workspace.scopes.length = s.workspace.scopes.length
  uris : after.uri = s.uri
  scopes : ∀ {uri id}, after.at? uri = some id → s.at? uri = some id

structure Proceeds (s after : Solution) : Prop where
  known : ∀ {id}, s.Known id → after.Known id
  uris : ∀ {id}, s.Known id → after.uri id = s.uri id
  scopes : ∀ {uri id}, after.at? uri = some id → s.at? uri = some id ∨ ¬ s.Known id

section Quiet
variable {s middle after : Solution}

theorem Quiet.refl (s : Solution) : Quiet s s := ⟨rfl, rfl, rfl, id⟩

theorem Quiet.trans (first : Quiet s middle) (second : Quiet middle after) : Quiet s after where
  queue := second.queue.trans first.queue
  length := second.length.trans first.length
  uris := second.uris.trans first.uris
  scopes found := first.scopes (second.scopes found)

theorem quietModify (s : Solution) (id : ScopeId) {f : Scope → Scope}
    (hidden : ∀ scope, (f scope).uri = scope.uri) : Quiet s (s.modifyScope id f) where
  queue := rfl
  length := Workspace.lengthModify ..
  uris := funext fun other => Workspace.viewScope Scope.uri _ _ other (hidden _)
  scopes := fun found => found

theorem quietDeclare (s : Solution) (uri : String) (references : List String) :
    Quiet s { s with registry := s.registry.declare uri references } := ⟨rfl, rfl, rfl, id⟩

theorem quietForget (s : Solution) (uri : String) :
    Quiet s { s with registry := s.registry.forget uri } := by
  refine ⟨rfl, rfl, rfl, fun {other id} found => ?_⟩
  rw [at?, Registry.forget, Table.getErase] at found
  split at found
  · cases found
  · exact found

theorem quietUnload (s : Solution) (id : ScopeId) : Quiet s (s.unload id) := by
  rw [unload]
  split
  · exact (quietForget s _).trans (quietModify _ id fun _ => rfl)
  · exact quietModify s id fun _ => rfl

theorem quietReleaseTo (steps : Nat) (unloaded : List String) (ids : List ScopeId) (s : Solution) :
    Quiet s (releaseTo steps unloaded ids s) := by
  induction steps generalizing unloaded ids s with
  | zero => exact .refl s
  | succ steps ih =>
    cases ids with
    | nil => exact .refl s
    | cons id rest =>
      have released : Quiet s (s.release id) := quietModify s id fun _ => rfl
      rw [releaseTo]
      split
      · exact (released.trans (quietUnload ..)).trans (ih ..)
      · exact released.trans (ih ..)

theorem quietFold {f : Solution → ScopeId → Solution} (each : ∀ s id, Quiet s (f s id))
    (ids : List ScopeId) (s : Solution) : Quiet s (ids.foldl f s) := by
  induction ids generalizing s with
  | nil => exact .refl s
  | cons id rest ih => exact (each s id).trans (ih (f s id))

theorem quietAcquire (s : Solution) (id : ScopeId) : Quiet s (s.acquire id) :=
  quietModify s id fun _ => rfl

theorem quietRebuild (s : Solution) (id : ScopeId) : Quiet s (s.rebuildReferences id) := by
  have acquired := quietFold quietAcquire (s.registry.references (s.uri id)) s
  have renewed : Quiet s (s.renewed id) := acquired.trans (quietModify _ id fun _ => rfl)
  exact renewed.trans (quietReleaseTo ..)

end Quiet

section Proceeds
variable {s middle after : Solution}

theorem Quiet.proceeds (quiet : Quiet s after) : Proceeds s after where
  known known := by rwa [Known, quiet.length]
  uris _ := by rw [quiet.uris]
  scopes found := .inl (quiet.scopes found)

theorem Alike.proceeds (alike : Alike s after) : Proceeds s after where
  known known := by
    have same := congrArg List.length alike.outlines
    simp only [Workspace.outlines, List.length_map] at same
    rwa [Known, same]
  uris _ := alike.uri _
  scopes found := .inl (by rwa [alike.at?] at found)

theorem Proceeds.quiet (proceeds : Proceeds s middle) (quiet : Quiet middle after) :
    Proceeds s after where
  known known := quiet.proceeds.known (proceeds.known known)
  uris known := by rw [quiet.uris, proceeds.uris known]
  scopes found := proceeds.scopes (quiet.scopes found)

theorem proceedsEnrol (s : Solution) (uri : String) (references : List String) :
    Proceeds s ((s.opened uri).enrol uri references s.newest) where
  known {id} known := by
    have longer : ((s.opened uri).enrol uri references s.newest).workspace.scopes.length =
        s.workspace.scopes.length + 1 := (Workspace.lengthModify ..).trans List.length_append
    exact Nat.lt_of_lt_of_eq (Nat.lt_succ_of_lt known) longer.symm
  uris {id} known := by
    have old : id ≠ s.newest := Nat.ne_of_lt known
    exact (uriAcquire ..).trans (uriOpened s uri old)
  scopes {other id} found := by
    rw [atEnrol] at found
    split at found
    · cases found
      exact .inr s.newestUnknown
    · exact .inl found

theorem quietRegister (references : List String) {uri : String} {id : ScopeId}
    (here : s.at? uri = some id) : Quiet s (s.register uri references).1 := by
  rw [register, show s.registry.scopes.get? uri = some id from here]
  exact (quietAcquire s id).trans ((quietDeclare _ uri references).trans (quietRebuild ..))

theorem proceedsRegister (s : Solution) (uri : String) (references : List String) :
    Proceeds s (s.register uri references).1 ∧
      (s.register uri references).1.registry.queue = s.registry.queue := by
  cases found : s.at? uri with
  | some id => exact ⟨(quietRegister references found).proceeds, (quietRegister references found).queue⟩
  | none =>
    have rebuilt := (quietRebuild ((s.opened uri).enrol uri references s.newest) s.newest).trans
      (quietFold quietRebuild ((s.joined uri references).registry.dependents uri) _)
    rw [register, show s.registry.scopes.get? uri = none from found]
    exact ⟨(proceedsEnrol s uri references).quiet rebuilt, rebuilt.queue⟩

end Proceeds

theorem Forced.alike {uris : List String} {s after : Solution} (forced : Forced uris s after) :
    Alike s after :=
  ⟨forced.done.carried.outlines, by rw [forced.registry], by rw [forced.registry]⟩

theorem forceToForced {owed : ScopeId → Nat} {s : Solution} (settled : Settled owed s)
    (renew : Bool) (steps : Nat) (visited : List String) (stack : List ScopeId) :
    ∃ uris, Forced uris s (forceTo renew steps visited stack s) :=
  ⟨_, forceToExplores settled renew steps visited stack ▸ forcedFold _ s⟩

end Solution

namespace Action
open Solution (Quiet Proceeds)
variable {s : Solution} {held : ScopeId → Nat}

def isUnref (uri : String) : Action → Bool
  | unref other => other == uri
  | _ => false

def bereaves (s : Solution) (action : Action) : List ScopeId :=
  s.registry.scopes.values.filter (fun id =>
    !(action.perform s).registry.holds (s.uri id) id && !action.isUnref (s.uri id))

theorem memBereaves (settled : Solution.Settled held s) {action : Action} {id : ScopeId} :
    id ∈ action.bereaves s ↔ s.at? (s.uri id) = some id ∧
      (action.perform s).at? (s.uri id) ≠ some id ∧ action.isUnref (s.uri id) = false := by
  rw [bereaves, List.mem_filter, Solution.valuesRegistered settled.balanced]
  simp [Registry.holds, Solution.at?]

structure Handles (s after : Solution) (action : Action) : Prop where
  proceeds : Proceeds s after
  pending : ∀ p ∈ after.registry.queue.pending,
    p ∈ s.registry.queue.pending ∨ s.at? (s.uri p.scope) = some p.scope
  dropped : ∀ {uri id}, action.isUnref uri = true → s.at? uri = some id →
    after.at? uri ≠ some id → after.registry.queue.jobsFor after.workspace uri = []
  kept : ∀ {id}, s.at? (s.uri id) = some id → after.at? (s.uri id) ≠ some id →
    action.isUnref (s.uri id) = false →
      after.registry.queue.updatesFor id = s.registry.queue.updatesFor id

theorem handlesProceeding {after : Solution} {action : Action} (proceeds : Proceeds s after)
    (queue : after.registry.queue = s.registry.queue) (other : ∀ uri, action.isUnref uri = false) :
    Handles s after action where
  proceeds := proceeds
  pending p mem := .inl (queue ▸ mem)
  dropped mine := by
    rw [other] at mine
    cases mine
  kept _ _ _ := by rw [queue]

theorem handlesQuiet {after : Solution} {action : Action} (quiet : Quiet s after)
    (other : ∀ uri, action.isUnref uri = false) : Handles s after action :=
  handlesProceeding quiet.proceeds quiet.queue other

theorem handlesAlike {after : Solution} {action : Action} (alike : Solution.Alike s after)
    (pending : ∀ p ∈ after.registry.queue.pending,
      p ∈ s.registry.queue.pending ∨ s.at? (s.uri p.scope) = some p.scope) :
    Handles s after action where
  proceeds := alike.proceeds
  pending := pending
  dropped _ here gone := absurd (by rwa [alike.at?]) gone
  kept here gone := absurd (by rwa [alike.at?]) gone

def dropJobs (s : Solution) (uri : String) : Solution :=
  { s with registry := { s.registry with queue := s.registry.queue.discard s.workspace uri } }

theorem unrefCases (s : Solution) (uri : String) :
    s.at? uri = none ∧ (Action.unref uri).perform s = s ∨
      ∃ id, s.at? uri = some id ∧
        ((s.releaseAll [id]).count id = 0 ∧
            (Action.unref uri).perform s = dropJobs (s.releaseAll [id]) uri ∨
          (s.releaseAll [id]).count id ≠ 0 ∧ (Action.unref uri).perform s = s.releaseAll [id]) := by
  simp only [perform, Solution.unref, findAt]
  cases found : s.at? uri with
  | none => exact .inl ⟨rfl, rfl⟩
  | some id =>
    refine .inr ⟨id, rfl, ?_⟩
    simp only [Option.elim, bind, Except.bind]
    split
    · rename_i zero
      exact .inl ⟨zero, rfl⟩
    · rename_i left
      exact .inr ⟨left, rfl⟩

theorem handlesUnref (settled : Solution.Settled held s) {uri : String}
    (fair : (Action.unref uri).Fair s held) :
    Handles s ((Action.unref uri).perform s) (.unref uri) := by
  have after := (performSettled settled (.unref uri) fair).balanced
  have same : ∀ {other : String}, (Action.unref uri).isUnref other = true → other = uri :=
    fun mine => (beq_iff_eq.mp mine).symm
  obtain ⟨-, performed⟩ | ⟨id, found, ⟨-, performed⟩ | ⟨left, performed⟩⟩ := unrefCases s uri
  · rw [performed]
    exact handlesAlike ⟨rfl, rfl, rfl⟩ fun p mem => .inl mem
  · have quiet : Quiet s (s.releaseAll [id]) := Solution.quietReleaseTo ..
    have proceeds := quiet.proceeds
    rw [performed]
    refine ⟨⟨proceeds.known, proceeds.uris, proceeds.scopes⟩, fun p mem => ?_,
      fun {other x} mine _ _ => ?_, fun {x} _ _ other => ?_⟩
    · have waited := List.mem_of_mem_filter mem
      rw [quiet.queue] at waited
      exact .inl waited
    · rw [same mine]
      exact (UpdateQueue.jobsForDiscard ..).trans (if_pos rfl)
    · have different : (s.releaseAll [id]).uri x ≠ uri := fun mine => by
        rw [quiet.uris] at mine
        simp [isUnref, mine] at other
      rw [← quiet.queue]
      exact (UpdateQueue.updatesForDiscard ..).trans (if_neg different)
  · have quiet : Quiet s (s.releaseAll [id]) := Solution.quietReleaseTo ..
    rw [performed] at after ⊢
    refine ⟨quiet.proceeds, fun p mem => .inl (quiet.queue ▸ mem),
      fun {other x} mine here gone => ?_, fun _ _ _ => by rw [quiet.queue]⟩
    -- a scope with counts left is still registered
    rw [same mine] at here gone
    rw [found] at here
    cases here
    have still := after.counted (Nat.pos_of_ne_zero left)
    rw [quiet.uris, (settled.balanced.registered found).1] at still
    exact absurd still gone

theorem performHandles (settled : Solution.Settled held s) (action : Action)
    (fair : action.Fair s held) : Handles s (action.perform s) action := by
  cases action with
  | register uri references =>
    obtain ⟨proceeds, queue⟩ := Solution.proceedsRegister s uri references
    exact handlesProceeding proceeds queue fun _ => rfl
  | getScope uri keep =>
    refine handlesQuiet ?_ fun _ => rfl
    rw [perform, Solution.getScope]
    cases s.registry.scopes.get? uri with
    | none => exact .refl s
    | some id =>
      cases keep with
      | false => exact .refl s
      | true => exact Solution.quietAcquire s id
  | unref uri => exact handlesUnref settled fair
  | updateReferences uri =>
    refine handlesQuiet ?_ fun _ => rfl
    simp only [perform, Solution.updateReferences, findAt]
    cases s.at? uri with
    | none => exact .refl s
    | some id => exact Solution.quietRebuild s id
  | addReference uri target =>
    refine handlesQuiet ?_ fun _ => rfl
    simp only [perform, Solution.addReference, findAt]
    cases s.at? uri with
    | none => exact .refl s
    | some id =>
      simp only [Option.elim, bind, Except.bind]
      split
      · exact .refl s
      · exact (Solution.quietDeclare s uri _).trans (Solution.quietRebuild ..)
  | removeReference uri target =>
    refine handlesQuiet ?_ fun _ => rfl
    simp only [perform, Solution.removeReference, findAt]
    cases s.at? uri with
    | none => exact .refl s
    | some id =>
      simp only [Option.elim, bind, Except.bind]
      split
      · exact (Solution.quietDeclare s uri _).trans (Solution.quietRebuild ..)
      · exact .refl s
  | enqueue uri update =>
    simp only [perform, Solution.enqueue, findAt]
    cases found : s.at? uri with
    | none => exact handlesAlike ⟨rfl, rfl, rfl⟩ fun p mem => .inl mem
    | some id =>
      refine handlesAlike ⟨rfl, rfl, rfl⟩ fun p mem => ?_
      rcases List.mem_append.mp mem with old | new
      · exact .inl old
      · rw [List.mem_singleton.mp new, (settled.balanced.registered found).1]
        exact .inr found
  | forceUpdate uri renew =>
    simp only [perform, Solution.forceUpdate, findAt]
    cases found : s.at? uri with
    | none => exact handlesAlike ⟨rfl, rfl, rfl⟩ fun p mem => .inl mem
    | some id =>
      obtain ⟨uris, forced⟩ :=
        Solution.forceToForced settled renew s.workspace.scopes.length [] [id]
      refine handlesAlike forced.alike fun p mem => .inl ?_
      have waits : p ∈ (Solution.forceTo renew s.workspace.scopes.length [] [id]
        s).registry.queue.pending := mem
      rw [forced.registry] at waits
      exact List.mem_of_mem_filter waits
  | waitIdle =>
    refine handlesAlike ⟨UpdateQueue.outlinesDrain .., rfl, rfl⟩ fun p mem => ?_
    have waits : p ∈ (s.registry.queue.waitIdle s.workspace).1.pending := mem
    rw [UpdateQueue.waitIdleIdle] at waits
    cases waits

end Action

inductive Wake (settings : QueueSettings) : Solution → (ScopeId → Nat) → List ScopeId → Prop where
  | start : Wake settings (Solution.start settings) (fun _ => 0) []
  | step {s held bereft} (before : Wake settings s held bereft) (action : Action)
      (fair : action.Fair s held) :
      Wake settings (action.perform s) (action.held s held) (action.bereaves s ++ bereft)

section Wake
variable {settings : QueueSettings} {s : Solution} {held : ScopeId → Nat} {bereft : List ScopeId}

theorem wakeRun (wake : Wake settings s held bereft) : Run settings s held := by
  induction wake with
  | start => exact .start
  | step _ action fair ih => exact .step ih action fair

structure Owned (s : Solution) (bereft : List ScopeId) : Prop where
  pending : ∀ p ∈ s.registry.queue.pending,
    s.at? (s.uri p.scope) = some p.scope ∨ p.scope ∈ bereft
  gone : ∀ id ∈ bereft, s.Known id ∧ s.at? (s.uri id) ≠ some id

theorem performOwned (settled : Solution.Settled held s) (owned : Owned s bereft) (action : Action)
    (fair : action.Fair s held) :
    Owned (action.perform s) (action.bereaves s ++ bereft) := by
  have handles := Action.performHandles settled action fair
  have proceeds := handles.proceeds
  refine ⟨fun p mem => ?_, fun id mem => ?_⟩
  · have before : s.at? (s.uri p.scope) = some p.scope ∨ p.scope ∈ bereft := by
      rcases handles.pending p mem with old | registered
      · exact owned.pending p old
      · exact .inl registered
    rcases before with here | left
    · rw [proceeds.uris (settled.balanced.known here)]
      by_cases still : (action.perform s).at? (s.uri p.scope) = some p.scope
      · exact .inl still
      · refine .inr (List.mem_append_left _ ((Action.memBereaves settled).mpr ⟨here, still, ?_⟩))
        by_contra mine
        rw [Bool.not_eq_false] at mine
        have waits : p ∈ (action.perform s).registry.queue.jobsFor (action.perform s).workspace
            (s.uri p.scope) :=
          List.mem_filter.mpr ⟨mem, beq_iff_eq.mpr (proceeds.uris (settled.balanced.known here))⟩
        rw [handles.dropped mine here still] at waits
        cases waits
    · exact .inr (List.mem_append_right _ left)
  · have before : s.Known id ∧ (action.perform s).at? (s.uri id) ≠ some id := by
      rcases List.mem_append.mp mem with now | left
      · obtain ⟨here, gone, -⟩ := (Action.memBereaves settled).mp now
        exact ⟨settled.balanced.known here, gone⟩
      · obtain ⟨known, gone⟩ := owned.gone id left
        refine ⟨known, fun found => ?_⟩
        exact (proceeds.scopes found).elim gone fun unknown => unknown known
    rw [proceeds.uris before.1]
    exact ⟨proceeds.known before.1, before.2⟩

theorem wakeOwned (wake : Wake settings s held bereft) : Owned s bereft := by
  induction wake with
  | start =>
    exact ⟨fun _ mem => (List.not_mem_nil mem).elim, fun _ mem => (List.not_mem_nil mem).elim⟩
  | step before action fair ih => exact performOwned (runSettled (wakeRun before)) ih action fair

/-- Every pending job is for the scope that is registered under its uri, or for one that was
unloaded in the wake of an operation on another uri. When a client gives back the last count on a
scope, no job of its uri is left; of a scope that is unloaded in the wake, all of them are. -/
theorem pendingJobsOwned (wake : Wake .inline s held bereft) :
    (∀ p ∈ s.registry.queue.pending,
      s.registry.scopes.get? (s.uri p.scope) = some p.scope ∨ p.scope ∈ bereft) ∧
    (∀ id ∈ bereft, s.registry.scopes.get? (s.uri id) ≠ some id) ∧
    ∀ action : Action, action.Fair s held →
      let after := action.perform s
      (∀ uri id, action = .unref uri → s.registry.scopes.get? uri = some id →
        after.registry.scopes.get? uri ≠ some id →
          after.registry.queue.jobsFor after.workspace uri = []) ∧
      ∀ id ∈ action.bereaves s,
        after.registry.queue.updatesFor id = s.registry.queue.updatesFor id := by
  have settled := runSettled (wakeRun wake)
  have owned := wakeOwned wake
  refine ⟨owned.pending, fun id mem => (owned.gone id mem).2, fun action fair => ?_⟩
  have handles := Action.performHandles settled action fair
  refine ⟨fun uri id asked here gone => ?_, fun id mem => ?_⟩
  · subst asked
    exact handles.dropped (beq_self_eq_true uri) here gone
  · obtain ⟨here, gone, other⟩ := (Action.memBereaves settled).mp mem
    exact handles.kept here gone other

def lastClient : Solution :=
  [Action.register "lib" [], .register "app" ["lib"], .unref "lib",
    .enqueue "lib" (.ingest (halfUnit ⟨0⟩)), .enqueue "app" (.ingest (halfUnit ⟨1⟩))].foldl
      Action.perform (Solution.start .inline)

theorem lastClientWake : ∃ held, Wake .inline lastClient held [] ∧
    (Action.unref "app").Fair lastClient held := by
  have wake : Wake .inline lastClient _ _ :=
    ((((Wake.start.step (.register "lib" []) (fairNothing rfl)).step (.register "app" ["lib"])
      (fairNothing rfl)).step (.unref "lib") (by unfold Action.Fair; decide)).step
      (.enqueue "lib" (.ingest (halfUnit ⟨0⟩))) (fairNothing rfl)).step
      (.enqueue "app" (.ingest (halfUnit ⟨1⟩))) (fairNothing rfl)
  exact ⟨_, wake, by unfold Action.Fair; decide⟩

theorem pendingJobsLastClient :
    let after := (Action.unref "app").perform lastClient
    (∀ p ∈ lastClient.registry.queue.pending,
      lastClient.registry.scopes.get? (lastClient.uri p.scope) = some p.scope) ∧
    after.registry.queue.jobsFor after.workspace "app" = [] ∧
    after.registry.queue.updatesFor 0 = [.ingest (halfUnit ⟨0⟩)] := by
  obtain ⟨held, wake, fair⟩ := lastClientWake
  obtain ⟨owned, -, performing⟩ := pendingJobsOwned wake
  obtain ⟨dropped, kept⟩ := performing (.unref "app") fair
  refine ⟨fun p mem => (owned p mem).resolve_right List.not_mem_nil,
    dropped "app" 1 rfl rfl (by decide), ?_⟩
  exact (kept 0 (by decide)).trans rfl

theorem jobsOrphaned : ∃ held, Run .inline ((Action.unref "app").perform lastClient) held ∧
    ∃ p ∈ ((Action.unref "app").perform lastClient).registry.queue.pending,
      ((Action.unref "app").perform lastClient).registry.scopes.get?
        (((Action.unref "app").perform lastClient).uri p.scope) = none := by
  obtain ⟨held, wake, fair⟩ := lastClientWake
  exact ⟨_, (wakeRun wake).step (.unref "app") fair, ⟨0, .ingest (halfUnit ⟨0⟩)⟩,
    List.mem_cons_self, rfl⟩

end Wake
end TypeScope
