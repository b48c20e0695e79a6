import TypeScope.Proofs.JobOrder
import TypeScope.Proofs.Reach

/-! Forcing the updates of a scope and of all that it refers to. While the account is settled,
references that are made anew come out as they were, so the walk meets what could be reached when
it began. Every scope met receives what waits for its uri, and nothing else is touched. -/
namespace TypeScope

namespace Workspace
variable {w after : Workspace}

theorem Carried.references (carried : Carried w after) (id : ScopeId) :
    (after.scope id).references = (w.scope id).references := by
  have outlined : (after.scope id).outline = (w.scope id).outline := by
    rw [outlineAt, outlineAt, carried.outlines]
  exact congrArg (fun outline => outline.2.2) outlined

theorem Undergone.untouched {id : ScopeId} (nothing : Undergone id [] w after) : after.scope id = w.scope id := by
  obtain ⟨done, updates, -, -, state⟩ := nothing
  rw [state, List.map_eq_nil_iff.mp updates]
  rfl

theorem Carried.unknown (carried : Carried w after) {id : ScopeId}
    (unknown : w.scopes.length ≤ id) : after.scope id = w.scope id := by
  rw [scope, scope, List.getD_eq_getElem?_getD, List.getD_eq_getElem?_getD,
    List.getElem?_eq_none unknown, List.getElem?_eq_none (carried.length ▸ unknown)]

theorem exploreCarried (carried : Carried w after)
    (line : List ScopeId → List ScopeId → List ScopeId) (steps : Nat) (visited : List String)
    (waiting : List ScopeId) :
    after.explore line steps visited waiting = w.explore line steps visited waiting := by
  induction steps generalizing visited waiting with
  | zero => rfl
  | succ steps ih => simp only [explore, carried.uri, carried.references, ih]

theorem exploreReaches {id : ScopeId} (apart : w.Apart id)
    {line : List ScopeId → List ScopeId → List ScopeId}
    (every : ∀ {rest more x}, x ∈ line rest more ↔ x ∈ rest ∨ x ∈ more) :
    (∀ x, x ∈ w.explore line w.scopes.length [] [id] ↔ w.Reaches id x) ∧
      ∀ steps, w.scopes.length ≤ steps →
        w.explore line steps [] [id] = w.explore line w.scopes.length [] [id] := by
  have exploring : w.Exploring id [] [id] := by
    refine ⟨fun x mem => ?_, List.nodup_nil⟩
    rw [List.mem_singleton.mp mem]
    exact .refl
  obtain ⟨sound, -, queued, closed⟩ :=
    exploreCloses apart every w.scopes.length exploring (Nat.le_refl _)
  refine ⟨fun x => ⟨sound x, Reaches.stays (queued id (List.mem_singleton_self id)) closed⟩, ?_⟩
  intro steps enough
  obtain ⟨more, rfl⟩ := Nat.exists_eq_add_of_le enough
  exact exploreEnds apart every w.scopes.length more exploring (Nat.le_refl _)

end Workspace

namespace Solution

section Renew
variable {owed : ScopeId → Nat} {s : Solution} {id : ScopeId}

theorem releaseAcquire (s : Solution) (id : ScopeId) : (s.acquire id).release id = s := by
  rw [release, acquire, modifyScope, modifyScope]
  rw [Workspace.modifyTwice, Workspace.modifySame _ _ _ rfl]

theorem setReferencesSame {references : List ScopeId} (same : s.referencesOf id = references) :
    s.setReferences id references = s := by
  subst same
  rw [setReferences, modifyScope, Workspace.modifySame _ _ _ rfl]

theorem acquireSwap (s : Solution) (id other : ScopeId) :
    (s.acquire id).acquire other = (s.acquire other).acquire id := by
  simp only [acquire, modifyScope, Workspace.modifySwap _ id other]

theorem acquireFirst (s : Solution) (id : ScopeId) (rest : List ScopeId) :
    rest.foldl acquire (s.acquire id) = (rest.foldl acquire s).acquire id := by
  induction rest generalizing s with
  | nil => rfl
  | cons next rest ih => rw [List.foldl_cons, List.foldl_cons, acquireSwap, ih]

theorem countAcquireAll (ids : List ScopeId) {s : Solution} {id : ScopeId}
    (positive : 0 < s.count id) : 0 < (ids.foldl acquire s).count id := by
  induction ids generalizing s with
  | nil => exact positive
  | cons next rest ih =>
    refine ih ?_
    by_cases known : s.Known next
    · rw [countAcquire s next id known]
      exact Nat.lt_of_lt_of_le positive (Nat.le_add_right _ _)
    · have same : s.acquire next = s := by
        have beyond : s.workspace.scopes.length ≤ next := Nat.le_of_not_lt known
        simp [acquire, modifyScope, Workspace.modifyScope, List.modify_eq_self beyond]
      rwa [same]

theorem releaseAcquired {ids : List ScopeId} {s : Solution} (unloaded : List String) {steps : Nat}
    (enough : ids.length ≤ steps) (positive : ∀ id ∈ ids, 0 < s.count id) :
    releaseTo steps unloaded ids (ids.foldl acquire s) = s := by
  induction ids generalizing steps with
  | nil => cases steps <;> rfl
  | cons first rest ih =>
    cases steps with
    | zero => exact absurd enough (Nat.not_succ_le_zero _)
    | succ steps =>
      have left : ((first :: rest).foldl acquire s).release first = rest.foldl acquire s := by
        rw [List.foldl_cons, acquireFirst, releaseAcquire]
      have counted := countAcquireAll rest (positive first List.mem_cons_self)
      rw [releaseTo, left, if_neg fun both => Nat.ne_of_gt counted both.1]
      exact ih (Nat.le_of_succ_le_succ enough) fun id mem => positive id (List.mem_cons_of_mem _ mem)

theorem rebuildSame (settled : Settled owed s) (here : s.at? (s.uri id) = some id) :
    s.rebuildReferences id = s := by
  have exactly : s.registry.references (s.uri id) = s.referencesOf id :=
    (settled.exactly _ id here).symm
  rw [rebuildReferences, exactly, setReferencesSame (referencesAcquireAll ..), releaseAll]
  refine releaseAcquired [] (Nat.le_add_right _ _) fun x mem => ?_
  exact (settled.balanced.registered (settled.balanced.mentioned (memMentions mem))).2

theorem settledApart (settled : Settled owed s) {uri : String} (here : s.at? uri = some id) :
    s.workspace.Apart id ∧
      ∀ x, s.workspace.Reaches id x → s.at? (s.uri x) = some x := by
  have registered : ∀ x, s.workspace.Reaches id x → s.at? (s.uri x) = some x := fun x reached => by
    refine Workspace.Reaches.stays (p := fun x => s.at? (s.uri x) = some x) ?_ ?_ reached
    · rwa [(settled.balanced.registered here).1]
    · exact fun y _ z refers => settled.balanced.mentioned (memMentions refers)
  refine ⟨⟨fun x reached => settled.balanced.known (registered x reached), ?_⟩, registered⟩
  intro x y left right same
  have both := registered x left
  rw [show s.uri x = s.uri y from same, registered y right] at both
  exact (Option.some.inj both).symm

end Renew

section Force
variable {owed : ScopeId → Nat} {s after : Solution} {id : ScopeId}

structure Forced (uris : List String) (s after : Solution) : Prop where
  registry : after.registry = { s.registry with queue := { s.registry.queue with
    pending := s.registry.queue.pending.filter (fun p => !uris.contains (s.uri p.scope)) } }
  done : Pending.Done
    (s.registry.queue.pending.filter (fun p => uris.contains (s.uri p.scope)))
    s.workspace after.workspace

theorem forcedNone (s : Solution) : Forced [] s s := by
  refine ⟨?_, ?_⟩
  · simp
  · simpa using Pending.Done.none s.workspace

theorem forcedCons {uri : String} {rest : List String} (later : Forced rest (s.forceQueue uri) after) :
    Forced (uri :: rest) s after := by
  have first := s.registry.queue.doneForce s.workspace uri
  have uris : (s.forceQueue uri).uri = s.uri := first.carried.uri
  have left : (s.forceQueue uri).registry =
      { s.registry with queue := s.registry.queue.discard s.workspace uri } := rfl
  obtain ⟨registry, done⟩ := later
  rw [left, uris] at registry done
  refine ⟨?_, first.trans done fun id => ?_⟩
  · rw [registry, UpdateQueue.discard, List.filter_filter]
    have same : ∀ p : Pending, (!rest.contains (s.uri p.scope) && !p.isFor s.workspace uri) =
        !(uri :: rest).contains (s.uri p.scope) := fun p => by
      rw [List.contains_cons, Bool.not_or, Bool.and_comm]
      rfl
    simp only [same]
  · -- the jobs of the first uri, and of the uris that follow those that are left
    have named : s.uri = s.workspace.uri := rfl
    rw [UpdateQueue.updatesForJobs, named, Pending.updatesForFilter, Pending.updatesForFilter,
      show Pending.updatesFor id _ = _ from UpdateQueue.updatesForDiscard ..]
    by_cases mine : s.workspace.uri id = uri
    · simp [mine, UpdateQueue.updatesFor]
    · simp [mine, UpdateQueue.updatesFor]

theorem forcedFold (uris : List String) (s : Solution) : Forced uris s (uris.foldl forceQueue s) := by
  induction uris generalizing s with
  | nil => exact forcedNone s
  | cons uri rest ih => exact forcedCons (ih (s.forceQueue uri))

section Forced
variable {uris : List String} (forced : Forced uris s after)
include forced

theorem Forced.idle {uri : String} (mem : uri ∈ uris) :
    after.registry.queue.jobsFor after.workspace uri = [] := by
  rw [forced.registry, UpdateQueue.jobsFor, List.filter_filter, List.filter_eq_nil_iff]
  intro p _ both
  obtain ⟨mine, left⟩ := Bool.and_eq_true_iff.mp both
  have same : s.uri p.scope = uri := by
    rw [Pending.isFor, forced.done.carried.uri] at mine
    exact beq_iff_eq.mp mine
  rw [same, List.contains_iff_mem.mpr mem] at left
  cases left

theorem Forced.undergone {x : ScopeId} (known : s.Known x) :
    s.workspace.Undergone x (if uris.contains (s.uri x) then s.registry.queue.updatesFor x else [])
      after.workspace := by
  have own := forced.done.undergone x known
  rwa [show s.uri = s.workspace.uri from rfl, Pending.updatesForFilter] at own

theorem Forced.untouched {x : ScopeId} (other : s.uri x ∉ uris) :
    after.workspace.scope x = s.workspace.scope x := by
  by_cases known : s.Known x
  · have own := forced.undergone known
    rw [if_neg fun listed => other (List.contains_iff_mem.mp listed)] at own
    exact own.untouched
  · exact forced.done.carried.unknown (Nat.le_of_not_lt known)

end Forced

theorem forceQueueAlike (s : Solution) (uri : String) : Alike s (s.forceQueue uri) :=
  ⟨Pending.outlinesApplyAll .., rfl, rfl⟩

def stacked (rest references : List ScopeId) : List ScopeId := references.reverse ++ rest

theorem forceToExplores (settled : Settled owed s) (renew : Bool) (steps : Nat)
    (visited : List String) (stack : List ScopeId) :
    forceTo renew steps visited stack s =
      ((s.workspace.explore stacked steps visited stack).map s.uri).foldl forceQueue s := by
  induction steps generalizing visited stack s with
  | zero => rfl
  | succ steps ih =>
    rw [forceTo, Workspace.explore]
    have cut : stack.dropWhile (fun id => visited.contains (s.workspace.uri id)) =
      stack.dropWhile (fun id => visited.contains (s.uri id)) := rfl
    rw [cut]
    cases stack.dropWhile (fun id => visited.contains (s.uri id)) with
    | nil => rfl
    | cons id rest =>
      have renewed : (if renew && s.registry.holds (s.uri id) id then s.rebuildReferences id
          else s) = s := by
        split
        · rename_i held
          exact rebuildSame settled (by simpa [Registry.holds, at?] using
            (Bool.and_eq_true_iff.mp held).2)
        · rfl
      have carried := (s.registry.queue.doneForce s.workspace (s.uri id)).carried
      have onward := ih (settledAlike settled (forceQueueAlike s (s.uri id)))
        (s.uri id :: visited) (stacked rest (s.referencesOf id))
      have references : (s.forceQueue (s.uri id)).referencesOf id = s.referencesOf id :=
        carried.references id
      have uris : (s.forceQueue (s.uri id)).uri = s.uri := carried.uri
      rw [show (s.forceQueue (s.uri id)).workspace.explore _ _ _ _ = _ from
        Workspace.exploreCarried carried .., uris] at onward
      simp only [renewed, references]
      exact onward

theorem memStacked {rest references : List ScopeId} {x : ScopeId} :
    x ∈ stacked rest references ↔ x ∈ rest ∨ x ∈ references := by
  rw [stacked, List.mem_append, List.mem_reverse, or_comm]

end Force
end Solution

inductive Usage (settings : QueueSettings) : Solution → (ScopeId → Nat) → Prop where
  | start : Usage settings (Solution.start settings) (fun _ => 0)
  | step {s held} (before : Usage settings s held) (action : Action) (fair : action.Fair s held) :
      Usage settings (action.perform s) (action.held s held)
  | aside {s after held} (before : Usage settings s held) (alike : Solution.Alike s after)
      (workers : after.registry.queue.workers = s.registry.queue.workers) :
      Usage settings after held

section Usage
variable {settings : QueueSettings} {s : Solution} {held : ScopeId → Nat}

theorem usageSettled (usage : Usage settings s held) : Solution.Settled held s := by
  induction usage with
  | start => exact startSettled settings
  | step _ action fair ih => exact performSettled ih action fair
  | aside _ alike _ ih => exact Solution.settledAlike ih alike

theorem fairNothing {action : Action} (nothing : action.givenBack s = []) :
    action.Fair s held := fun id mem => by
  rw [nothing] at mem
  cases mem

/-- Forcing the updates of a registered scope ends, with its references made anew or not. It leaves
no job for anything that can be reached from the scope; each scope of those uris received its own
jobs in the order they came, each once. The other scopes are as they were, and so are the jobs that
wait for them. -/
theorem forceUpdateCovers (usage : Usage .inline s held) {uri : String} {id : ScopeId}
    (here : s.registry.scopes.get? uri = some id) (renew : Bool) :
    ∃ after, ∃ forced : List String, s.forceUpdate uri renew = .ok after ∧
      (∀ own, own ∈ forced ↔ ∃ x, s.workspace.Reaches id x ∧ s.uri x = own) ∧
      (∀ x, s.workspace.Reaches id x →
        after.registry.queue.jobsFor after.workspace (s.uri x) = []) ∧
      s.workspace.Carried after.workspace ∧
      (∀ x < s.workspace.scopes.length, s.uri x ∈ forced →
        s.workspace.Undergone x (s.registry.queue.updatesFor x) after.workspace) ∧
      (∀ x, s.uri x ∉ forced → after.workspace.scope x = s.workspace.scope x) ∧
      after.registry = { s.registry with queue := { s.registry.queue with
        pending := s.registry.queue.pending.filter
          (fun p => !forced.contains (s.uri p.scope)) } } ∧
      ∀ steps, s.workspace.scopes.length ≤ steps →
        Solution.forceTo renew steps [] [id] s = after := by
  have settled := usageSettled usage
  obtain ⟨apart, -⟩ := Solution.settledApart settled here
  obtain ⟨met, ended⟩ := Workspace.exploreReaches apart Solution.memStacked
  have walk := Solution.forceToExplores settled renew
  have forcing : s.forceUpdate uri renew =
      .ok (Solution.forceTo renew s.workspace.scopes.length [] [id] s) := by
    rw [Solution.forceUpdate, Registry.find, here]
    rfl
  have forced := Solution.forcedFold
    ((s.workspace.explore Solution.stacked s.workspace.scopes.length [] [id]).map s.uri) s
  rw [← walk] at forced
  have covers : ∀ own,
      own ∈ (s.workspace.explore Solution.stacked s.workspace.scopes.length [] [id]).map s.uri ↔
        ∃ x, s.workspace.Reaches id x ∧ s.uri x = own := fun own => by
    simp only [List.mem_map, met]
  refine ⟨_, _, forcing, covers, fun x reached => forced.idle ((covers _).mpr ⟨x, reached, rfl⟩),
    forced.done.carried, fun x known mem => ?_, fun x => forced.untouched, forced.registry,
    fun steps enough => ?_⟩
  · have own := forced.undergone known
    rwa [if_pos (List.contains_iff_mem.mpr mem)] at own
  · rw [walk, walk, ended steps enough]

def loop : Solution :=
  [Action.register "a" ["b"], .register "b" ["a"], .register "c" ["a", "b"],
    .enqueue "b" (.ingest (halfUnit ⟨1⟩)), .enqueue "a" (.ingest (halfUnit ⟨0⟩)),
    .enqueue "c" (.ingest (halfUnit ⟨2⟩)), .enqueue "b" (.remove ⟨1⟩)].foldl Action.perform
      (Solution.start .inline)

theorem forceUpdateLoop : ∃ held after, Usage .inline loop held ∧
    loop.forceUpdate "a" true = .ok after ∧
    loop.workspace.Undergone 0 [.ingest (halfUnit ⟨0⟩)] after.workspace ∧
    loop.workspace.Undergone 1 [.ingest (halfUnit ⟨1⟩), .remove ⟨1⟩] after.workspace ∧
    after.workspace.scope 2 = loop.workspace.scope 2 ∧
    after.registry.queue.pending.map Pending.scope = [2] := by
  have usage : Usage .inline loop _ :=
    (((((((Usage.start.step (.register "a" ["b"]) (fairNothing rfl)).step (.register "b" ["a"])
      (fairNothing rfl)).step (.register "c" ["a", "b"]) (fairNothing rfl)).step
      (.enqueue "b" (.ingest (halfUnit ⟨1⟩))) (fairNothing rfl)).step
      (.enqueue "a" (.ingest (halfUnit ⟨0⟩))) (fairNothing rfl)).step
      (.enqueue "c" (.ingest (halfUnit ⟨2⟩))) (fairNothing rfl)).step
      (.enqueue "b" (.remove ⟨1⟩)) (fairNothing rfl))
  obtain ⟨after, forced, forcing, covers, -, -, undergone, untouched, registry, -⟩ :=
    forceUpdateCovers usage (show loop.registry.scopes.get? "a" = some 0 from rfl) true
  have reached : ∀ x, loop.workspace.Reaches 0 x → x = 0 ∨ x = 1 := by
    refine fun x => Workspace.Reaches.stays (p := fun x => x = 0 ∨ x = 1) (.inl rfl) ?_
    rintro y (rfl | rfl) z refers
    · exact .inr (List.mem_singleton.mp refers)
    · exact .inl (List.mem_singleton.mp refers)
  have first : "a" ∈ forced := (covers "a").mpr ⟨0, .refl, rfl⟩
  have second : "b" ∈ forced := (covers "b").mpr ⟨1, .single List.mem_cons_self, rfl⟩
  have third : "c" ∉ forced := fun mem => by
    obtain ⟨x, reaches, named⟩ := (covers "c").mp mem
    rcases reached x reaches with rfl | rfl
    · exact absurd named (by decide)
    · exact absurd named (by decide)
  refine ⟨_, after, usage, forcing, undergone 0 (by decide) first, undergone 1 (by decide) second,
    untouched 2 third, ?_⟩
  rw [registry]
  have jobs : loop.registry.queue.pending = [⟨1, .ingest (halfUnit ⟨1⟩)⟩,
      ⟨0, .ingest (halfUnit ⟨0⟩)⟩, ⟨2, .ingest (halfUnit ⟨2⟩)⟩, ⟨1, .remove ⟨1⟩⟩] := rfl
  have named : [0, 1, 2].map loop.uri = ["a", "b", "c"] := rfl
  simp only [List.map_cons, List.map_nil, List.cons.injEq, and_true] at named
  simp [jobs, named, first, second, third]

end Usage
end TypeScope
