import TypeScope.Proofs.Loading
import TypeScope.Proofs.ReferenceCounts

/-! The order of jobs. Forcing cuts the jobs of one uri out of the line that all scopes share, so
jobs of different scopes are applied out of the order they came in. Every scope still receives its
own jobs one by one in the order they came, each once, without those that were discarded while they
waited. -/
namespace TypeScope

structure Dated where
  moment : Nat
  update : Update
  deriving Repr

def Scope.undergo (scope : Scope) (links : Links) (done : List Dated) : Scope :=
  done.foldl (fun s d => (s.replaceFile links (Stamp.at d.moment) d.update.file d.update.unit?).1)
    scope

namespace Workspace

def Undergone (id : ScopeId) (updates : List Update) (w after : Workspace) : Prop :=
  ∃ done : List Dated, done.map Dated.update = updates ∧
    (done.map Dated.moment).Pairwise (· < ·) ∧
    (∀ d ∈ done, w.clock ≤ d.moment ∧ d.moment < after.clock) ∧
    after.scope id = (w.scope id).undergo w.links done

structure Carried (w after : Workspace) : Prop where
  outlines : after.outlines = w.outlines
  links : after.links = w.links
  targets : after.targets = w.targets
  mainParts : after.mainParts = w.mainParts
  clock : w.clock ≤ after.clock

section Carried
variable {w middle after : Workspace} {id : ScopeId}

theorem Carried.refl (w : Workspace) : Carried w w := ⟨rfl, rfl, rfl, rfl, Nat.le_refl _⟩

theorem Carried.trans (first : Carried w middle) (second : Carried middle after) :
    Carried w after where
  outlines := second.outlines.trans first.outlines
  links := second.links.trans first.links
  targets := second.targets.trans first.targets
  mainParts := second.mainParts.trans first.mainParts
  clock := Nat.le_trans first.clock second.clock

theorem Carried.length (carried : Carried w after) : after.scopes.length = w.scopes.length := by
  have same := congrArg List.length carried.outlines
  simpa [Workspace.outlines] using same

theorem Carried.uri (carried : Carried w after) : after.uri = w.uri := by
  funext id
  have outlined : (after.scope id).outline = (w.scope id).outline := by
    rw [outlineAt, outlineAt, carried.outlines]
  exact congrArg Prod.fst outlined

theorem Undergone.none (same : after.scope id = w.scope id) : Undergone id [] w after :=
  ⟨[], rfl, .nil, fun _ mem => (List.not_mem_nil mem).elim, same⟩

theorem Undergone.trans {first second : List Update} (carried : Carried w middle)
    (onward : Carried middle after) (before : Undergone id first w middle)
    (since : Undergone id second middle after) : Undergone id (first ++ second) w after := by
  obtain ⟨done, updates, ordered, within, state⟩ := before
  obtain ⟨rest, restUpdates, restOrdered, restWithin, restState⟩ := since
  refine ⟨done ++ rest, by rw [List.map_append, updates, restUpdates], ?_, ?_, ?_⟩
  · rw [List.map_append, List.pairwise_append]
    refine ⟨ordered, restOrdered, fun early inEarly late inLate => ?_⟩
    obtain ⟨d, mem, rfl⟩ := List.mem_map.mp inEarly
    obtain ⟨e, memE, rfl⟩ := List.mem_map.mp inLate
    exact Nat.lt_of_lt_of_le (within d mem).2 (restWithin e memE).1
  · intro d mem
    rcases List.mem_append.mp mem with early | late
    · exact ⟨(within d early).1, Nat.lt_of_lt_of_le (within d early).2 onward.clock⟩
    · exact ⟨Nat.le_trans carried.clock (restWithin d late).1, (restWithin d late).2⟩
  · rw [restState, state, carried.links, Scope.undergo, Scope.undergo, Scope.undergo,
      List.foldl_append]

end Carried

end Workspace

namespace Pending

def updatesFor (id : ScopeId) (jobs : List Pending) : List Update :=
  (jobs.filter (fun p => p.scope == id)).map Pending.update

@[simp] theorem updatesForNil (id : ScopeId) : updatesFor id [] = [] := rfl

theorem updatesForAppend (id : ScopeId) (jobs more : List Pending) :
    updatesFor id (jobs ++ more) = updatesFor id jobs ++ updatesFor id more := by
  simp [updatesFor]

theorem updatesForCons (id : ScopeId) (job : Pending) (rest : List Pending) :
    updatesFor id (job :: rest) = updatesFor id [job] ++ updatesFor id rest :=
  updatesForAppend id [job] rest

theorem updatesForFilter (id : ScopeId) (jobs : List Pending) (w : Workspace)
    (choose : String → Bool) :
    updatesFor id (jobs.filter (fun p => choose (w.uri p.scope))) =
      if choose (w.uri id) then updatesFor id jobs else [] := by
  have together : ∀ p : Pending, ((p.scope == id) && choose (w.uri p.scope)) =
      (choose (w.uri id) && (p.scope == id)) := by
    intro p
    by_cases mine : p.scope = id
    · simp [mine]
    · simp [beq_eq_false_iff_ne.mpr mine]
  rw [updatesFor, List.filter_filter, List.filter_congr fun p _ => together p]
  cases choose (w.uri id) with
  | true => simp [updatesFor]
  | false => simp

structure Done (jobs : List Pending) (w after : Workspace) : Prop where
  carried : w.Carried after
  undergone : ∀ id < w.scopes.length, w.Undergone id (updatesFor id jobs) after

section Done
variable {w middle after : Workspace} {jobs : List Pending}

theorem Done.none (w : Workspace) : Done [] w w :=
  ⟨.refl w, fun _ _ => .none rfl⟩

theorem Done.trans {first second : List Pending} (before : Done first w middle)
    (since : Done second middle after)
    (split : ∀ id, updatesFor id jobs = updatesFor id first ++ updatesFor id second) :
    Done jobs w after := by
  refine ⟨before.carried.trans since.carried, fun id known => ?_⟩
  have still : id < middle.scopes.length := before.carried.length ▸ known
  rw [split]
  exact (before.undergone id known).trans before.carried since.carried (since.undergone id still)

theorem carriedApply (w : Workspace) (p : Pending) : w.Carried (p.apply w) := by
  refine ⟨outlinesApply w p, ?_, ?_, ?_, ?_⟩ <;> rw [Workspace.applyUpdate]
  exacts [rfl, rfl, rfl, Nat.le_succ _]

theorem doneApply (w : Workspace) (p : Pending) : Done [p] w (p.apply w) := by
  refine ⟨carriedApply w p, fun id known => ?_⟩
  by_cases mine : id = p.scope
  · subst mine
    refine ⟨[⟨w.clock, p.update⟩], by simp [updatesFor], List.pairwise_singleton .., ?_, ?_⟩
    · have ticks : (p.apply w).clock = w.clock + 1 := by
        rw [Workspace.applyUpdate]
        rfl
      simp [ticks]
    · rw [Workspace.applyUpdate, Workspace.scopeModify, if_pos ⟨rfl, known⟩]
      rfl
  · have others : updatesFor id [p] = [] := by
      simp [updatesFor, show p.scope ≠ id from fun same => mine same.symm]
    rw [others]
    refine .none ?_
    rw [Workspace.applyUpdate, Workspace.scopeModify, if_neg fun both => mine both.1]
    rfl

theorem doneApplyAll (w : Workspace) (jobs : List Pending) : Done jobs w (applyAll w jobs) := by
  induction jobs generalizing w with
  | nil => exact .none w
  | cons job rest ih => exact (doneApply w job).trans (ih _) fun id => updatesForCons id job rest

end Done

end Pending

namespace UpdateQueue

def updatesFor (q : UpdateQueue) (id : ScopeId) : List Update := Pending.updatesFor id q.pending

theorem updatesForJobs (q : UpdateQueue) (w : Workspace) (uri : String) (id : ScopeId) :
    Pending.updatesFor id (q.jobsFor w uri) = if w.uri id = uri then q.updatesFor id else [] := by
  have picked := Pending.updatesForFilter id q.pending w (fun own => own == uri)
  simp only [beq_iff_eq] at picked
  exact picked

theorem updatesForDiscard (q : UpdateQueue) (w : Workspace) (uri : String) (id : ScopeId) :
    (q.discard w uri).updatesFor id = if w.uri id = uri then [] else q.updatesFor id := by
  have picked := Pending.updatesForFilter id q.pending w (fun own => !(own == uri))
  refine picked.trans ?_
  by_cases same : w.uri id = uri <;> simp [same, updatesFor]

theorem updatesForEnqueue (q : UpdateQueue) (other : ScopeId) (update : Update) (id : ScopeId) :
    (q.enqueue other update).updatesFor id =
      q.updatesFor id ++ if other = id then [update] else [] := by
  rw [updatesFor, enqueue, Pending.updatesForAppend]
  by_cases same : other = id <;> simp [Pending.updatesFor, same, updatesFor]

theorem doneForce (q : UpdateQueue) (w : Workspace) (uri : String) :
    Pending.Done (q.jobsFor w uri) w (q.force w uri).2 :=
  Pending.doneApplyAll ..

theorem doneDrain {rounds : Nat} {q : UpdateQueue} {w : Workspace}
    (enough : q.pending.length ≤ rounds) : Pending.Done q.pending w (drain rounds q w).2 := by
  induction rounds generalizing q w with
  | zero =>
    have idle : q.pending = [] := by simpa using enough
    rw [idle]
    exact .none w
  | succ rounds ih =>
    unfold drain
    split
    · rename_i idle
      rw [idle]
      exact .none w
    · rename_i oldest rest first
      have fewer : (q.force w (w.uri oldest.scope)).1.pending.length ≤ rounds :=
        Nat.le_trans (forceShorter first) (by simpa [first] using enough)
      refine (doneForce q w (w.uri oldest.scope)).trans (ih fewer) fun id => ?_
      have kept := updatesForDiscard q w (w.uri oldest.scope) id
      rw [updatesForJobs, show Pending.updatesFor id _ = _ from kept]
      by_cases mine : w.uri id = w.uri oldest.scope <;> simp [mine, updatesFor]

theorem doneWaitIdle (q : UpdateQueue) (w : Workspace) :
    Pending.Done q.pending w (q.waitIdle w).2 :=
  doneDrain (Nat.le_refl _)

end UpdateQueue

inductive Chore where
  | enqueue (id : ScopeId) (update : Update)
  | force (id : ScopeId)
  | waitIdle
  | discard (uri : String)
  deriving Repr

namespace Chore

def perform (state : UpdateQueue × Workspace) : Chore → UpdateQueue × Workspace
  | enqueue id update => (state.1.enqueue id update, state.2)
  | force id => state.1.force state.2 (state.2.uri id)
  | waitIdle => state.1.waitIdle state.2
  | discard uri => (state.1.discard state.2 uri, state.2)

def run (state : UpdateQueue × Workspace) (chores : List Chore) : UpdateQueue × Workspace :=
  chores.foldl perform state

def survives (uriOf : ScopeId → String) (uri : String) : List Chore → Bool
  | [] => true
  | enqueue _ _ :: rest => survives uriOf uri rest
  | force id :: rest => uriOf id == uri || survives uriOf uri rest
  | waitIdle :: _ => true
  | discard other :: rest => other != uri && survives uriOf uri rest

def updatesOf (uriOf : ScopeId → String) (id : ScopeId) : List Chore → List Update
  | [] => []
  | enqueue other update :: rest =>
      if other = id ∧ survives uriOf (uriOf id) rest = true then update :: updatesOf uriOf id rest
      else updatesOf uriOf id rest
  | force _ :: rest => updatesOf uriOf id rest
  | waitIdle :: rest => updatesOf uriOf id rest
  | discard _ :: rest => updatesOf uriOf id rest

def due (w : Workspace) (q : UpdateQueue) (chores : List Chore) (id : ScopeId) : List Update :=
  (if survives w.uri (w.uri id) chores then q.updatesFor id else []) ++ updatesOf w.uri id chores

structure Advance (state : UpdateQueue × Workspace) (chore : Chore) (rest : List Chore) : Prop where
  carried : state.2.Carried (chore.perform state).2
  split : ∀ id < state.2.scopes.length, ∃ updates,
    state.2.Undergone id updates (chore.perform state).2 ∧
    due state.2 state.1 (chore :: rest) id =
      updates ++ due state.2 (chore.perform state).1 rest id

theorem advance (state : UpdateQueue × Workspace) (chore : Chore) (rest : List Chore) :
    Advance state chore rest := by
  obtain ⟨q, w⟩ := state
  cases chore with
  | enqueue other update =>
    refine ⟨.refl w, fun id _ => ⟨[], .none rfl, ?_⟩⟩
    have line := q.updatesForEnqueue other update id
    simp only [due, perform, survives, updatesOf, line, List.nil_append]
    by_cases lasts : survives w.uri (w.uri id) rest = true
    · by_cases mine : other = id <;> simp [lasts, mine]
    · simp [lasts]
  | force other =>
    have done := q.doneForce w (w.uri other)
    refine ⟨done.carried, fun id known => ⟨_, done.undergone id known, ?_⟩⟩
    have left : (perform (q, w) (force other)).1 = q.discard w (w.uri other) := rfl
    rw [UpdateQueue.updatesForJobs, left, due, due, UpdateQueue.updatesForDiscard]
    by_cases mine : w.uri id = w.uri other
    · simp [survives, updatesOf, mine]
    · simp [survives, updatesOf, mine, show w.uri other ≠ w.uri id from fun same => mine same.symm]
  | waitIdle =>
    have done := q.doneWaitIdle w
    refine ⟨done.carried, fun id known => ⟨_, done.undergone id known, ?_⟩⟩
    have idle : (perform (q, w) waitIdle).1.pending = [] := q.waitIdleIdle w
    simp [due, survives, updatesOf, UpdateQueue.updatesFor, idle]
  | discard uri =>
    refine ⟨.refl w, fun id _ => ⟨[], .none rfl, ?_⟩⟩
    have left := q.updatesForDiscard w uri id
    simp only [due, perform, survives, updatesOf, left, List.nil_append]
    by_cases mine : w.uri id = uri
    · simp [mine]
    · simp [mine, show uri ≠ w.uri id from fun same => mine same.symm]

theorem dueDone (state : UpdateQueue × Workspace) (chores : List Chore) :
    let final := run state (chores ++ [waitIdle])
    final.1.pending = [] ∧ state.2.Carried final.2 ∧
      ∀ id < state.2.scopes.length, state.2.Undergone id (due state.2 state.1 chores id) final.2 := by
  induction chores generalizing state with
  | nil =>
    obtain ⟨q, w⟩ := state
    have done := q.doneWaitIdle w
    refine ⟨q.waitIdleIdle w, done.carried, fun id known => ?_⟩
    have all : due w q [] id = Pending.updatesFor id q.pending := by
      simp [due, survives, updatesOf, UpdateQueue.updatesFor]
    rw [all]
    exact done.undergone id known
  | cons chore rest ih =>
    obtain ⟨carried, split⟩ := advance state chore rest
    obtain ⟨idle, onward, later⟩ := ih (chore.perform state)
    refine ⟨idle, carried.trans onward, fun id known => ?_⟩
    obtain ⟨updates, undergone, parts⟩ := split id known
    have since := later id (carried.length ▸ known)
    rw [due, carried.uri] at since
    rw [parts]
    exact undergone.trans carried onward since

def after (w : Workspace) (chores : List Chore) : UpdateQueue × Workspace :=
  run (UpdateQueue.start .inline, w) chores

theorem runCarried (state : UpdateQueue × Workspace) (chores : List Chore) :
    state.2.Carried (run state chores).2 := by
  induction chores generalizing state with
  | nil => exact .refl _
  | cons chore rest ih => exact (advance state chore rest).carried.trans (ih _)

end Chore

/-- No job is lost, repeated or reordered. Whatever was enqueued, forced, awaited and discarded,
after a last wait nothing is pending and every scope is as if it had received, one by one and in
the order they were enqueued, exactly the jobs enqueued for it except those discarded while they
waited. Forcing a scope applies the waiting jobs of its own uri and no others, and the jobs of the
other uris wait on in their order. -/
theorem jobsInOrder (w : Workspace) (chores : List Chore) :
    let final := Chore.after w (chores ++ [.waitIdle])
    (final.1.pending = [] ∧ w.Carried final.2 ∧
      ∀ id < w.scopes.length, w.Undergone id (Chore.updatesOf w.uri id chores) final.2) ∧
    ∀ forced : ScopeId,
      let before := Chore.after w chores
      let next := Chore.after w (chores ++ [.force forced])
      next.1.pending = before.1.pending.filter (fun p => w.uri p.scope != w.uri forced) ∧
      before.2.Carried next.2 ∧
      ∀ id < w.scopes.length, before.2.Undergone id
        (if w.uri id = w.uri forced then before.1.updatesFor id else []) next.2 := by
  constructor
  · obtain ⟨idle, carried, undergone⟩ := Chore.dueDone (UpdateQueue.start .inline, w) chores
    refine ⟨idle, carried, fun id known => ?_⟩
    have nothing : Chore.due w (UpdateQueue.start .inline) chores id =
        Chore.updatesOf w.uri id chores := by
      simp [Chore.due, UpdateQueue.updatesFor, UpdateQueue.start]
    exact nothing ▸ undergone id known
  · intro forced before next
    have so : w.Carried before.2 := Chore.runCarried (UpdateQueue.start .inline, w) chores
    have step : next = before.1.force before.2 (before.2.uri forced) := by
      simp only [next, before, Chore.after, Chore.run, List.foldl_append, List.foldl_cons,
        List.foldl_nil, Chore.perform]
    rw [so.uri] at step
    have done := before.1.doneForce before.2 (w.uri forced)
    rw [step]
    refine ⟨?_, done.carried, fun id known => ?_⟩
    · simp only [UpdateQueue.force, UpdateQueue.discard, Pending.isFor, so.uri]
      rfl
    · have own := done.undergone id (so.length ▸ known)
      rwa [UpdateQueue.updatesForJobs, so.uri] at own

def mixedChores : List Chore :=
  [.enqueue 0 (.ingest (halfUnit ⟨0⟩)), .enqueue 1 (.ingest (halfUnit ⟨1⟩)), .discard "lib",
    .enqueue 1 (.ingest (halfUnit ⟨2⟩)), .enqueue 0 (.remove ⟨0⟩), .force 1,
    .enqueue 0 (.ingest (halfUnit ⟨3⟩))]

def appAndLib : Workspace :=
  { Workspace.empty with scopes := [Scope.fresh "app", Scope.fresh "lib"] }

theorem jobsInOrderMixed :
    let final := Chore.after appAndLib (mixedChores ++ [.waitIdle])
    appAndLib.Undergone 0
      [.ingest (halfUnit ⟨0⟩), .remove ⟨0⟩, .ingest (halfUnit ⟨3⟩)] final.2 ∧
    appAndLib.Undergone 1 [.ingest (halfUnit ⟨2⟩)] final.2 := by
  obtain ⟨⟨-, -, undergone⟩, -⟩ := jobsInOrder appAndLib mixedChores
  exact ⟨undergone 0 Nat.zero_lt_two, undergone 1 Nat.one_lt_two⟩

end TypeScope
