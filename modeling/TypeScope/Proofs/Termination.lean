import TypeScope.Proofs.Agreement
import TypeScope.Proofs.InheritanceWalk
import TypeScope.Proofs.Traces
import TypeScope.Proofs.Unbounded

/-! Resolving a name comes to an end. Whatever the scopes hold and refer to, and whatever calls, the
loops stop with what the bounded ones give: the walk over the scopes because each uri is visited
once, the steps outwards because names get shorter, and the walk over the bases because the
potential goes down. -/
namespace TypeScope

section References
variable (w : Workspace)

def Workspace.uris : Horizon := ⟨"" :: w.scopes.map Scope.uri, 0⟩

theorem Workspace.uriAmong (id : ScopeId) : w.uri id ∈ w.uris.names := by
  rw [uri, scope, List.getD_eq_getElem?_getD]
  cases found : w.scopes[id]? with
  | none => exact List.mem_cons_self
  | some s => exact List.mem_cons_of_mem _ (List.mem_map.mpr ⟨s, List.mem_of_getElem? found, rfl⟩)

theorem Unbounded.visitEnds {steps : Nat} {met : List ScopeId} {visited : List String}
    {queue : List ScopeId} (enough : Query.unseen w.uris visited ≤ steps) :
    (visitRound w).fix (met, visited, queue) = Part.some (met ++ w.visit steps visited queue) := by
  induction steps generalizing met visited queue with
  | zero =>
    rw [visitUnfold, Workspace.visit]
    cases waits : queue.dropWhile (fun id => visited.contains (w.uri id)) with
    | nil => rw [List.append_nil]
    | cons id rest =>
      obtain ⟨fresh, -⟩ := dropWhileHead waits
      have less := Query.unseenLess (w.uriAmong id) (by simpa using fresh)
      omega
  | succ steps ih =>
    rw [visitUnfold, Workspace.visit]
    cases waits : queue.dropWhile (fun id => visited.contains (w.uri id)) with
    | nil => rw [List.append_nil]
    | cons id rest =>
      obtain ⟨fresh, -⟩ := dropWhileHead waits
      have less := Query.unseenLess (w.uriAmong id) (by simpa using fresh)
      dsimp only
      rw [ih (by omega), List.append_assoc, List.singleton_append]

theorem Unbounded.reachEnds (id : ScopeId) :
    visit w [w.uri id] (w.scope id).references = Part.some (w.reach id) := by
  refine visitEnds w ?_
  have less : Query.unseen w.uris [w.uri id] < Query.unseen w.uris [] :=
    Query.unseenLess (w.uriAmong id) List.not_mem_nil
  have counted : Query.unseen w.uris [] ≤ w.scopes.length + 1 := by
    refine Nat.le_trans (List.length_filter_le _ _) (Nat.le_of_eq ?_)
    simp [Workspace.uris]
  omega

end References

section Outward
variable {w : Workspace} {id : ScopeId} {d outer : Definition}

def Definition.EnclosedBy (d outer : Definition) : Prop :=
  match d.openType with
  | .placeholder p => outer = .ofDeclared p.owner
  | _ => outer.fullName.length < d.fullName.length

theorem declaringCases (sound : w.Stores Store.Sound)
    (around : w.declaringType id d = some outer) :
    (∃ p, d.openType = .placeholder p ∧ outer = .ofDeclared p.owner) ∨
    ∃ t c, d.openType = .declared t ∧ outer = .ofDeclared c ∧ t.body.outer = some c.fullName := by
  unfold Workspace.declaringType at around
  cases open_ : d.openType with
  | placeholder p =>
    rw [open_] at around
    cases around
    exact .inl ⟨p, rfl, rfl⟩
  | array a =>
    rw [open_] at around
    cases around
  | declared t =>
    rw [open_] at around
    obtain ⟨name, written, later⟩ := Option.bind_eq_some_iff.mp around
    obtain ⟨at_, -, here⟩ := List.exists_of_findSome?_eq_some later
    obtain ⟨c, enclosing, rfl⟩ := Option.map_eq_some_iff.mp here
    have named := (sound.at Store.soundEmpty at_).named name c (Store.enclosingMem enclosing)
    exact .inr ⟨t, c, rfl, rfl, by rw [named, written]⟩

theorem outerShorter {t c : Declared} (written : t.body.outer = some c.fullName) :
    c.fullName.length < t.fullName.length := by
  have full : t.fullName = c.fullName ++ "." ++ t.name := by
    rw [Declared.fullName, Body.fullName, written]
    rfl
  rw [full, String.length_append, String.length_append]
  have dot : ".".length = 1 := rfl
  omega

theorem declaringEncloses (sound : w.Stores Store.Sound)
    (around : w.declaringType id d = some outer) : d.EnclosedBy outer := by
  rw [Definition.EnclosedBy]
  rcases declaringCases sound around with ⟨p, open_, rfl⟩ | ⟨t, c, open_, rfl, written⟩
  · rw [open_]
  · rw [Definition.fullName, Definition.fullName, open_]
    exact outerShorter written

theorem declaringBound (sound : w.Stores Store.Sound)
    (around : w.declaringType id d = some outer) :
    Workspace.outwardBound outer < Workspace.outwardBound d := by
  rcases declaringCases sound around with ⟨p, open_, rfl⟩ | ⟨t, c, open_, rfl, written⟩
  · simp only [Workspace.outwardBound, open_]
    exact Nat.lt_succ_self _
  · simp only [Workspace.outwardBound, open_]
    exact Nat.succ_lt_succ (outerShorter written)

end Outward

namespace Unbounded
open Query (parameterNamed refetch rootOf)

section Loops
variable {α : Type} {v : Workspace} {id : ScopeId}

theorem searchOutwardEnds (sound : v.Stores Store.Sound) {f : Definition → Unbounded (Option α)}
    {g : Definition → Query (Option α)} (each : ∀ d, Ends v (f d) (g d)) {steps : Nat}
    {d : Definition} (enough : Workspace.outwardBound d ≤ steps) :
    Ends v (searchOutward id f d) (Query.findFirst g (v.outwardFrom id steps d)) := by
  induction steps generalizing d with
  | zero =>
    have positive : 0 < Workspace.outwardBound d := by
      unfold Workspace.outwardBound
      split <;> exact Nat.succ_pos _
    omega
  | succ steps ih =>
    rw [searchOutwardUnfold, Workspace.outwardFrom, Query.findFirst]
    refine endsBind (each d) fun answer => ?_
    cases answer with
    | some a => exact endsPure (some a)
    | none =>
      dsimp only
      refine endsRead fun w same => ?_
      rw [Workspace.declaringLasting same]
      cases outer : v.declaringType id d with
      | none => exact endsPure none
      | some outer =>
        have less := declaringBound sound outer
        exact ih (by omega)

theorem searchAroundEnds (sound : v.Stores Store.Sound) {f : Definition → Unbounded (Option α)}
    {g : Definition → Query (Option α)} (each : ∀ d, Ends v (f d) (g d)) (d : Definition) :
    Ends v (searchOutward id f d) (do Query.findFirst g ((← get).outward id d)) := by
  intro w same
  have around : w.outward id d = v.outwardFrom id (Workspace.outwardBound d) d :=
    Workspace.outwardFromLasting same id _ d
  have bounded : (do Query.findFirst g ((← get).outward id d) : Query (Option α)).run w =
      (Query.findFirst g (v.outwardFrom id (Workspace.outwardBound d) d)).run w := by
    rw [← around]
    rfl
  rw [bounded]
  exact searchOutwardEnds sound each (Nat.le_refl _) w same

end Loops

section Program
variable {v : Workspace}

theorem outerParameterEnds (sound : v.Stores Store.Sound) (id : ScopeId) (rule : CaseRule)
    (name : String) (calling : Definition) :
    Ends v (outerParameter id rule name calling) (Query.outerParameter id rule name calling) :=
  searchAroundEnds sound (fun d => endsOf ((lastingFrame v).parameterNamed id d rule name)) calling

theorem resolveWithEnds (sound : v.Stores Store.Sound) (id : ScopeId) (q : Request)
    {nested : Request → Option Definition → Unbounded (Option Definition)}
    {nested' : Request → Option Definition → Query (Option Definition)}
    (inner : ∀ calling, Ends v (nested q calling) (nested' q calling)) :
    Ends v (resolveWith nested id q) (Query.resolveWith nested' id q) := by
  have typed : ∀ name arguments, Query.Leaves (fun w => w.lasting = v.lasting)
      (Query.lookupFor id q name arguments) := (lastingFrame v).lookupFor id q
  have parameters : ∀ calling, Ends v (fromParameters id q calling)
      (Query.fromParameters id q calling) := by
    intro calling
    unfold fromParameters Query.fromParameters
    cases calling with
    | none => exact endsPure none
    | some c =>
      dsimp only
      split
      · exact outerParameterEnds sound id _ _ c
      · exact endsPure none
  have sources : ∀ calling, Ends v
      (firstOf [fromParameters id q calling, ofQuery (Query.fromKnown id q), nested q calling,
        ofQuery (Query.fromAlias id q), ofQuery (Query.fromEnclosing id q calling),
        ofQuery (Query.fromUsings id q)])
      (Query.firstOf [Query.fromParameters id q calling, Query.fromKnown id q, nested' q calling,
        Query.fromAlias id q, Query.fromEnclosing id q calling, Query.fromUsings id q]) :=
    fun calling => endsFirstOf
      (.cons (parameters calling)
      (.cons (endsOf (typed _ _))
      (.cons (inner calling)
      (.cons (endsOf ((lastingFrame v).fromAlias id q))
      (.cons (endsOf (Query.leavesFindFirst fun _ => typed _ _))
      (.cons (endsOf (Query.leavesFindFirst fun _ => typed _ _)) .nil))))))
  unfold resolveWith Query.resolveWith
  split
  · exact endsPure none
  · cases calling : q.calling with
    | none => exact endsBind (endsPure none) sources
    | some c =>
      have fetched : Query.Leaves (fun w => w.lasting = v.lasting) (some <$> refetch id c) :=
        Query.keepsMap (Query.leavesOf ((lastingFrame v).refetch id c)) fun _ _ => trivial
      exact endsBind (endsOf fetched) sources

theorem resolveFlatEnds (sound : v.Stores Store.Sound) (id : ScopeId) (q : Request) :
    Ends v (resolveFlat id q) (Query.resolveFlat id q) :=
  resolveWithEnds sound id q fun _ => endsPure none

theorem resolveBaseEnds (sound : v.Stores Store.Sound) (id : ScopeId) (owner : Definition)
    (i : Nat) (base : TypeRef) :
    Ends v (resolveBase id owner i base) (Query.resolveBase id owner i base) := by
  refine endsBind (endsOf ((lastingFrame v).lookupAt id _ base)) fun answer => ?_
  cases answer with
  | some d => exact endsPure (some d)
  | none =>
    refine endsGet fun w _ => endsBind (resolveFlatEnds sound id _) fun answer => ?_
    cases answer with
    | none => exact endsPure none
    | some d =>
      exact endsBind (endsOf ((lastingFrame v).linkAt _ d)) fun _ => endsPure (some d)

theorem resolveBasesEnds (sound : v.Stores Store.Sound) (id : ScopeId) (owner : Definition)
    (i : Nat) (bases : List TypeRef) :
    Ends v (resolveBases id owner i bases) (Query.resolveBases id owner i bases) := by
  induction bases generalizing i with
  | nil => exact endsPure []
  | cons base rest ih =>
    exact endsBind (resolveBaseEnds sound id owner i base) fun found =>
      endsBind (ih (i + 1)) fun others => endsPure (found.toList ++ others)

theorem advanceEnds (sound : v.Stores Store.Sound) (id : ScopeId) (walk : Walk) :
    Ends v (advance id walk) (Query.advance id walk) := by
  unfold advance Query.advance
  cases walk.pending.dropWhile (fun d => walk.visited.contains d.decoratedName) with
  | nil => exact endsPure none
  | cons d rest =>
    have root : Query.Leaves (fun w => w.lasting = v.lasting) (rootOf id d) := by
      intro w same
      rw [(Query.rootRun id d w).1]
      exact ⟨same, trivial⟩
    exact endsBind (resolveBasesEnds sound id d 0 _) fun bases =>
      endsBind (endsOf root) fun root => endsPure _

section Walks
open Query (Found Leaves potential unmet inherits basesAt)
variable {α : Type} {h : Horizon} {walk : Walk} {w : Workspace}

theorem searchOnOver (id : ScopeId) (f : Definition → Query (Option α)) (steps : Nat)
    (ends : unmet walk = []) : (Query.searchOn id f steps walk).run w = (none, w) := by
  cases steps with
  | zero => rfl
  | succ steps =>
    rw [Query.searchOn, Query.runThrough (Query.advanceOver id w ends)]
    rfl

theorem searchOnEnds (sound : v.Stores Store.Sound) (id : ScopeId)
    {f : Definition → Query (Option α)}
    (each : ∀ d, Found h d → Leaves (Within h v.lasting) (f d)) {steps : Nat}
    (within : Within h v.lasting w) (found : ∀ d ∈ walk.pending, Found h d)
    (enough : potential h walk ≤ steps) :
    (searchOn id (fun d => ofQuery (f d)) walk).run w =
      Part.some ((Query.searchOn id f steps walk).run w) := by
  induction steps generalizing walk w with
  | zero =>
    have next := (advanceEnds sound id walk w within.graph).1
    cases on : unmet walk with
    | nil =>
      rw [Query.advanceOver id w on] at next
      rw [searchOnUnfold, bindRun next, searchOnOver id f 0 on]
      rfl
    | cons d rest =>
      have positive := Query.potentialPositive (h := h) on
      omega
  | succ steps ih =>
    have next := (advanceEnds sound id walk w within.graph).1
    cases on : unmet walk with
    | nil =>
      rw [Query.advanceOver id w on] at next
      rw [searchOnUnfold, bindRun next, searchOnOver id f _ on]
      rfl
    | cons d rest =>
      have meets := Query.advanceMeets id w on
      rw [meets] at next
      obtain ⟨pending, -, waits, -⟩ := Query.unmetHead on
      have here := found d pending
      obtain ⟨inside, inherited, -, -⟩ := Query.inheritsFound id within here
      have less := Query.potentialLess id within here on
      rw [searchOnUnfold, bindRun next, Query.searchOn, Query.runThrough meets]
      dsimp only
      obtain ⟨kept, -⟩ := each d here _ inside
      cases asked : (f d).run (basesAt id w d).2 with
      | mk answer met =>
        have told : (ofQuery (f d)).run (basesAt id w d).2 = Part.some (answer, met) :=
          congrArg Part.some asked
        rw [asked] at kept
        rw [bindRun told, Query.runThrough asked]
        cases answer with
        | some a => rfl
        | none =>
          refine ih kept (fun t mem => ?_) (by omega)
          exact (List.mem_append.mp mem).elim (inherited t) fun old => found t (waits t old)

theorem searchAncestryEnds (sound : v.Stores Store.Sound) (id : ScopeId)
    {f : Definition → Query (Option α)}
    (each : ∀ h d, Found h d → Leaves (Within h v.lasting) (f d))
    (leaves : ∀ d, Leaves (fun w => w.lasting = v.lasting) (f d)) (d : Definition) :
    Ends v (searchAncestry id (fun d => ofQuery (f d)) d) (Query.searchAncestry id f d) := by
  refine endsBind (endsOf (Query.leavesOf ((lastingFrame v).refetch id d))) fun start => ?_
  intro w same
  have within : Within (horizonOf w start) v.lasting w := same ▸ horizonWithin w start
  have found : ∀ t ∈ (Query.startAt start).pending, Found (horizonOf w start) t := fun t mem => by
    rw [List.mem_singleton.mp mem]
    exact .inl (horizonCovers List.mem_cons_self)
  refine ⟨searchOnEnds sound id (each _) within found (Query.startPotential w start), ?_⟩
  exact ((lastingFrame v).searchOn id leaves _ _ w same).1

end Walks

section Nested
open Query (Found Leaves)

theorem innerOfKeeps {h : Horizon} {graph : List (String × Store × List ScopeId)} (id : ScopeId)
    (rule : CaseRule) (name : String) (arity : Nat) {d : Definition} (found : Found h d) :
    Leaves (Within h graph) (Query.innerOf id rule name arity d) := by
  unfold Query.innerOf
  split
  · exact Query.leavesPure _
  · split
    · exact Query.leavesOf (Query.parameterNamedKeeps id (Query.foundOrigin found) rule name)
    · exact Query.leavesPure _

theorem innerOfLeaves (id : ScopeId) (rule : CaseRule) (name : String) (arity : Nat)
    (d : Definition) :
    Leaves (fun w => w.lasting = v.lasting) (Query.innerOf id rule name arity d) := by
  unfold Query.innerOf
  split
  · exact Query.leavesPure _
  · split
    · exact (lastingFrame v).parameterNamed id d rule name
    · exact Query.leavesPure _

theorem findInnerEnds (sound : v.Stores Store.Sound) (id : ScopeId) (rule : CaseRule)
    (name : String) (arity : Nat) (d : Definition) :
    Ends v (findInner id rule name arity d) (Query.findInner id rule name arity d) :=
  searchAroundEnds sound (fun outer => searchAncestryEnds sound id
    (fun _ _ found => innerOfKeeps id rule name arity found)
    (innerOfLeaves id rule name arity) outer) d

theorem followInnerEnds (sound : v.Stores Store.Sound) (id : ScopeId) (rule : CaseRule)
    (arity : Nat) (segments : List String) (d : Definition) :
    Ends v (followInner id rule arity segments d)
      (Query.followInner id rule arity segments d) := by
  induction segments generalizing d with
  | nil => exact endsPure (some d)
  | cons segment rest ih =>
    cases rest with
    | nil => exact findInnerEnds sound id rule _ arity d
    | cons next rest =>
      simp only [followInner, Query.followInner]
      refine endsBind (findInnerEnds sound id rule _ _ d) fun answer => ?_
      cases answer with
      | none => exact endsPure none
      | some inner => exact ih inner

theorem resolveEnds (sound : v.Stores Store.Sound) (id : ScopeId) (q : Request) :
    Ends v (resolve id q) (Query.resolve id q) := by
  refine resolveWithEnds sound id q fun calling => ?_
  cases calling with
  | none => exact endsPure none
  | some c =>
    refine endsBind (followInnerEnds sound id q.rule _ _ c) fun answer => ?_
    cases answer with
    | none => exact endsPure none
    | some found =>
      have bound : Leaves (fun w => w.lasting = v.lasting)
          (Query.instantiate id found q.arguments) :=
        Query.leavesOf ((lastingFrame v).instantiate id trivial q.arguments)
      exact endsBind (endsOf bound) fun d => endsPure (some d)

end Nested
end Program
end Unbounded

/-- Whatever happened before, resolving ends, whatever calls. In whatever workspace a name is looked
up on the way, the walk over the scopes ends; and each step outwards leads from a placeholder to its
owner, or to a type with a shorter name. -/
theorem resolutionEnds (events : List Event) (id : ScopeId) (q : Request) :
    let w := (Session.run events).workspace
    (Unbounded.resolve id q).run w = Part.some ((Query.resolve id q).run w) ∧
      (∀ (v : Workspace) (other : ScopeId),
        Unbounded.visit v [v.uri other] (v.scope other).references = Part.some (v.reach other)) ∧
      ∀ (v : Workspace) (other : ScopeId) (d outer : Definition), v.lasting = w.lasting →
        v.declaringType other d = some outer → d.EnclosedBy outer := by
  intro w
  have sound := Session.storesSound events
  refine ⟨(Unbounded.resolveEnds sound id q w rfl).1, Unbounded.reachEnds, ?_⟩
  intro v other d outer same around
  exact declaringEncloses (Workspace.soundLasting same sound) around

def circles : List Event :=
  [.opens "app", .opens "lib", .refers 0 [1], .refers 1 [0],
    .writes ⟨⟨0⟩, "circles.cs", [],
      [{ Blueprint.bare "App.A" .classType with
          base := some (TypeRef.named "B"), nested := [Blueprint.bare "In" .classType] },
        { Blueprint.bare "App.B" .classType with base := some (TypeRef.named "A") }]⟩,
    .ingests 1 0]

theorem resolutionEndsCircles :
    let w := (Session.run circles).workspace
    ∃ t outer, w.findType 0 .deep .exact "App.A.In" 0 = some t ∧
      w.declaringType 0 (.ofDeclared t) = some outer ∧ (Definition.ofDeclared t).EnclosedBy outer ∧
      ((Unbounded.resolve 0 { Request.named "Gone" with calling := some (.ofDeclared t) }).run
        w).map (fun run => run.1.isNone) = Part.some true := by
  intro w
  have found : (w.findType 0 .deep .exact "App.A.In" 0).any (fun t =>
      (w.declaringType 0 (.ofDeclared t)).isSome &&
        ((Query.resolve 0 { Request.named "Gone" with calling := some (.ofDeclared t) }).run
          w).1.isNone) := by decide +kernel
  obtain ⟨t, stored, both⟩ := (Option.any_eq_true _ _).mp found
  obtain ⟨nested, gone⟩ := Bool.and_eq_true_iff.mp both
  obtain ⟨outer, around⟩ := Option.isSome_iff_exists.mp nested
  obtain ⟨ends, -, outward⟩ := resolutionEnds circles 0
    { Request.named "Gone" with calling := some (.ofDeclared t) }
  refine ⟨t, outer, stored, around, outward w 0 _ outer rfl around, ?_⟩
  rw [ends, Part.map_some]
  exact congrArg Part.some gone

end TypeScope
