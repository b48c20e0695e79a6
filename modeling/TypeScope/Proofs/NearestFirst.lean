import TypeScope.Proofs.Currency
import TypeScope.Proofs.Reach
import TypeScope.Proofs.UniqueReadability
import Mathlib.Data.List.Induction
import Mathlib.Data.List.Shortlex

/-! Deep lookups are nearest first. A route is a list of positions, one for each list of references
that it passes through; of two routes the shorter one is nearer, and of two that are as long the one
that turns off earlier in the first list where they part. What a deep lookup finds stands at the end
of the nearest route to a scope that stores it. -/
namespace TypeScope

abbrev Route := List Nat

def Route.Nearer : Route → Route → Prop := List.Shortlex (· < ·)

namespace Route
variable {a b c : Route}

theorem Nearer.trans (first : Nearer a b) (second : Nearer b c) : Nearer a c := by
  rw [Nearer, List.shortlex_def] at first second ⊢
  rcases first with shorter | ⟨long, first⟩ <;> rcases second with shorter' | ⟨long', second⟩
  · exact .inl (shorter.trans shorter')
  · exact .inl (long' ▸ shorter)
  · exact .inl (long ▸ shorter')
  · exact .inr ⟨long.trans long', List.lt_trans first second⟩

theorem nearerOn (a : Route) (i : Nat) : Nearer a (a ++ [i]) :=
  List.Shortlex.of_length_lt (by simp)

theorem nearerBeside (a : Route) {i j : Nat} (before : i < j) : Nearer (a ++ [i]) (a ++ [j]) :=
  List.Shortlex.append_left ((List.shortlex_singleton_iff i j).mpr before) a

theorem lexOn {i j : Nat} (long : a.length = b.length) (lex : List.Lex (· < ·) a b) :
    List.Lex (· < ·) (a ++ [i]) (b ++ [j]) := by
  induction lex with
  | nil => cases long
  | rel before => exact .rel before
  | cons _ ih => exact .cons (ih (Nat.succ.inj long))

theorem Nearer.on (nearer : Nearer a b) (i j : Nat) : Nearer (a ++ [i]) (b ++ [j]) := by
  rw [Nearer, List.shortlex_def] at nearer ⊢
  rw [List.length_append, List.length_append]
  rcases nearer with shorter | ⟨long, lex⟩
  · exact .inl (Nat.add_lt_add_right shorter 1)
  · exact .inr ⟨congrArg (· + 1) long, lexOn long lex⟩

def AsNear (a b : Route) : Prop := a = b ∨ Nearer a b

theorem AsNear.trans (first : AsNear a b) (second : AsNear b c) : AsNear a c := by
  rcases first with rfl | nearer
  · exact second
  · rcases second with rfl | farther
    · exact .inr nearer
    · exact .inr (nearer.trans farther)

theorem AsNear.on (near : AsNear a b) (i : Nat) : AsNear (a ++ [i]) (b ++ [i]) := by
  rcases near with rfl | nearer
  · exact .inl rfl
  · exact .inr (nearer.on i i)

end Route

namespace Workspace
open Route (Nearer AsNear)
variable {w : Workspace} {id : ScopeId}

def along (w : Workspace) : ScopeId → Route → Option ScopeId
  | id, [] => some id
  | id, i :: route => (w.scope id).references[i]?.bind (fun next => along w next route)

theorem alongOn (w : Workspace) (id : ScopeId) (route : Route) (i : Nat) :
    w.along id (route ++ [i]) =
      (w.along id route).bind (fun x => (w.scope x).references[i]?) := by
  induction route generalizing id with
  | nil => simp [along]
  | cons j route ih => simp [along, ih, Option.bind_assoc]

theorem reachesAlong {x : ScopeId} : w.Reaches id x ↔ ∃ route, w.along id route = some x := by
  constructor
  · intro reached
    induction reached with
    | refl => exact ⟨[], rfl⟩
    | tail _ refers ih =>
      obtain ⟨route, leads⟩ := ih
      obtain ⟨i, listed⟩ := List.mem_iff_getElem?.mp refers
      exact ⟨route ++ [i], by rw [alongOn, leads]; exact listed⟩
  · rintro ⟨route, leads⟩
    induction route using List.reverseRecOn generalizing x with
    | nil => exact Option.some.inj leads ▸ .refl
    | append_singleton route i ih =>
      rw [alongOn] at leads
      obtain ⟨y, before, listed⟩ := Option.bind_eq_some_iff.mp leads
      exact (ih before).tail (List.mem_of_getElem? listed)

abbrev Stop := Route × ScopeId

def stopsFrom (w : Workspace) (stop : Stop) : List Stop :=
  (w.scope stop.2).references.mapIdx (fun i x => (stop.1 ++ [i], x))

theorem stopsFromScopes (w : Workspace) (stop : Stop) :
    (w.stopsFrom stop).map Prod.snd = (w.scope stop.2).references := by
  exact List.ext_getElem (by simp [stopsFrom]) fun i _ _ => by simp [stopsFrom]

theorem memStopsFrom {stop next : Stop} : next ∈ w.stopsFrom stop ↔
    ∃ i, next.1 = stop.1 ++ [i] ∧ (w.scope stop.2).references[i]? = some next.2 := by
  obtain ⟨route, x⟩ := next
  simp only [stopsFrom, List.mem_mapIdx, Prod.mk.injEq]
  constructor
  · rintro ⟨i, bound, rfl, rfl⟩
    exact ⟨i, rfl, List.getElem?_eq_getElem bound⟩
  · rintro ⟨i, rfl, listed⟩
    obtain ⟨bound, rfl⟩ := List.getElem?_eq_some_iff.mp listed
    exact ⟨i, bound, rfl, rfl⟩

theorem stopsFromSorted (w : Workspace) (stop : Stop) :
    (w.stopsFrom stop).Pairwise (fun a b => Nearer a.1 b.1) := by
  rw [stopsFrom, List.pairwise_iff_getElem]
  intro i j _ _ before
  simp only [List.getElem_mapIdx]
  exact Route.nearerBeside stop.1 before

structure Queueing (w : Workspace) (id : ScopeId) (met waiting : List Stop) : Prop where
  start : ([], id) ∈ met
  leads : ∀ stop ∈ met ++ waiting, w.along id stop.1 = some stop.2
  once : (met.map Prod.snd).Nodup
  sorted : (met ++ waiting).Pairwise (fun a b => Nearer a.1 b.1)
  behind : ∀ stop ∈ waiting, ∃ from_ ∈ met, stop ∈ w.stopsFrom from_
  onward : ∀ from_ ∈ met, ∀ next ∈ w.stopsFrom from_,
    ∃ stop ∈ met ++ waiting, stop.2 = next.2 ∧ AsNear stop.1 next.1

namespace Queueing
variable {met waiting early late : List Stop}

theorem begin_ (w : Workspace) (id : ScopeId) :
    w.Queueing id [([], id)] (w.stopsFrom ([], id)) where
  start := List.mem_singleton_self _
  leads stop mem := by
    rcases List.mem_cons.mp mem with rfl | next
    · rfl
    · obtain ⟨i, route, listed⟩ := memStopsFrom.mp next
      rw [route, alongOn]
      exact listed
  once := List.nodup_singleton id
  sorted := by
    refine List.pairwise_cons.mpr ⟨fun next mem => ?_, w.stopsFromSorted _⟩
    obtain ⟨i, route, -⟩ := memStopsFrom.mp mem
    exact route ▸ Route.nearerOn [] i
  behind stop mem := ⟨_, List.mem_singleton_self _, mem⟩
  onward from_ mem next steps := by
    cases List.mem_singleton.mp mem
    exact ⟨next, List.mem_cons_of_mem _ steps, rfl, .inl rfl⟩

theorem skip (queueing : w.Queueing id met (early ++ late))
    (known : ∀ stop ∈ early, stop.2 ∈ met.map Prod.snd) : w.Queueing id met late := by
  have fewer : (met ++ late).Sublist (met ++ (early ++ late)) :=
    (List.sublist_append_right early late).append_left met
  refine ⟨queueing.start, fun stop mem => queueing.leads stop (fewer.subset mem), queueing.once,
    queueing.sorted.sublist fewer,
    fun stop mem => queueing.behind stop (List.mem_append_right _ mem), ?_⟩
  intro from_ mem next steps
  obtain ⟨stop, somewhere, same, near⟩ := queueing.onward from_ mem next steps
  rcases List.mem_append.mp somewhere with old | waits
  · exact ⟨stop, List.mem_append_left _ old, same, near⟩
  · rcases List.mem_append.mp waits with skipped | kept
    · obtain ⟨other, old, again⟩ := List.mem_map.mp (known stop skipped)
      have nearer : Nearer other.1 stop.1 :=
        (List.pairwise_append.mp queueing.sorted).2.2 other old stop waits
      exact ⟨other, List.mem_append_left _ old, again.trans same,
        AsNear.trans (.inr nearer) near⟩
    · exact ⟨stop, List.mem_append_right _ kept, same, near⟩

theorem meet {stop : Stop} (queueing : w.Queueing id met (stop :: waiting))
    (fresh : stop.2 ∉ met.map Prod.snd) :
    w.Queueing id (met ++ [stop]) (waiting ++ w.stopsFrom stop) := by
  have whole : met ++ [stop] ++ (waiting ++ w.stopsFrom stop) =
      met ++ stop :: waiting ++ w.stopsFrom stop := by simp
  have here : stop ∈ met ++ stop :: waiting := List.mem_append_right _ List.mem_cons_self
  have leads := queueing.leads stop here
  refine ⟨List.mem_append_left _ queueing.start, ?_, ?_, ?_, ?_, ?_⟩
  · rw [whole]
    intro other mem
    rcases List.mem_append.mp mem with old | next
    · exact queueing.leads other old
    · obtain ⟨i, route, listed⟩ := memStopsFrom.mp next
      rw [route, alongOn, leads]
      exact listed
  · rw [List.map_append]
    exact List.nodup_append_comm.mp (List.nodup_cons.mpr ⟨fresh, queueing.once⟩)
  · rw [whole]
    refine List.pairwise_append.mpr ⟨queueing.sorted, w.stopsFromSorted stop, ?_⟩
    intro other mem next steps
    obtain ⟨i, route, -⟩ := memStopsFrom.mp steps
    rw [route]
    obtain ⟨-, later, across⟩ := List.pairwise_append.mp queueing.sorted
    rcases List.mem_append.mp mem with old | waits
    · exact (across other old stop List.mem_cons_self).trans (Route.nearerOn stop.1 i)
    · rcases List.mem_cons.mp waits with rfl | waits
      · exact Route.nearerOn _ i
      · -- one step behind a stop that is nearer than the one met now
        obtain ⟨from_, old, steps⟩ := queueing.behind other (List.mem_cons_of_mem _ waits)
        obtain ⟨j, route, -⟩ := memStopsFrom.mp steps
        rw [route]
        exact (across from_ old stop List.mem_cons_self).on j i
  · intro other mem
    rcases List.mem_append.mp mem with waits | next
    · obtain ⟨from_, old, steps⟩ := queueing.behind other (List.mem_cons_of_mem _ waits)
      exact ⟨from_, List.mem_append_left _ old, steps⟩
    · exact ⟨stop, List.mem_append_right _ (List.mem_singleton_self _), next⟩
  · rw [whole]
    intro from_ mem next steps
    rcases List.mem_append.mp mem with old | new
    · obtain ⟨other, somewhere, found⟩ := queueing.onward from_ old next steps
      exact ⟨other, List.mem_append_left _ somewhere, found⟩
    · cases List.mem_singleton.mp new
      exact ⟨next, List.mem_append_right _ steps, rfl, .inl rfl⟩

theorem nearest (queueing : w.Queueing id met []) (route : Route) {x : ScopeId}
    (leads : w.along id route = some x) : ∃ stop ∈ met, stop.2 = x ∧ AsNear stop.1 route := by
  induction route using List.reverseRecOn generalizing x with
  | nil => exact ⟨_, queueing.start, Option.some.inj leads, .inl rfl⟩
  | append_singleton route i ih =>
    rw [alongOn] at leads
    obtain ⟨y, before, listed⟩ := Option.bind_eq_some_iff.mp leads
    obtain ⟨from_, mem, rfl, near⟩ := ih before
    obtain ⟨stop, found, same, nearer⟩ :=
      queueing.onward from_ mem (from_.1 ++ [i], x) (memStopsFrom.mpr ⟨i, rfl, listed⟩)
    rw [List.append_nil] at found
    exact ⟨stop, found, same, nearer.trans (near.on i)⟩

theorem exploring (queueing : w.Queueing id met waiting) :
    w.Exploring id (met.map Prod.snd).reverse (waiting.map Prod.snd) := by
  refine ⟨fun x mem => ?_, List.nodup_reverse.mpr queueing.once⟩
  obtain ⟨stop, somewhere, rfl⟩ : ∃ stop ∈ met ++ waiting, stop.2 = x := by
    simpa [List.mem_append, or_and_right, exists_or] using mem
  exact reachesAlong.mpr ⟨stop.1, queueing.leads stop somewhere⟩

theorem skipAll (queueing : w.Queueing id met waiting)
    (known : ∀ stop ∈ waiting, stop.2 ∈ met.map Prod.snd) : w.Queueing id met [] :=
  skip (by rwa [List.append_nil]) known

end Queueing

theorem visitQueueing (apart : w.Apart id) (steps : Nat) {met waiting : List Stop}
    (queueing : w.Queueing id met waiting) (enough : w.scopes.length ≤ steps + met.length) :
    ∃ later, w.Queueing id (met ++ later) [] ∧ later.map Prod.snd =
      w.visit steps ((met.map Prod.snd).reverse.map w.uri) (waiting.map Prod.snd) := by
  induction steps generalizing met waiting with
  | zero =>
    have full : w.scopes.length ≤ (met.map Prod.snd).reverse.length := by
      rw [List.length_reverse, List.length_map]
      omega
    refine ⟨[], ?_, rfl⟩
    rw [List.append_nil]
    refine queueing.skipAll fun stop waits => ?_
    have here := reachesAlong.mpr ⟨_, queueing.leads stop (List.mem_append_right _ waits)⟩
    exact List.mem_reverse.mp (queueing.exploring.full apart full here)
  | succ steps ih =>
    have visited : ∀ stop ∈ waiting,
        ((met.map Prod.snd).reverse.map w.uri).contains (w.uri stop.2) = true ↔
          stop.2 ∈ met.map Prod.snd := fun stop waits => by
      have here := reachesAlong.mpr ⟨_, queueing.leads stop (List.mem_append_right _ waits)⟩
      rw [queueing.exploring.visited apart here, List.mem_reverse]
    rw [visit, List.dropWhile_map]
    obtain ⟨early, whole, passed, fresh⟩ := dropWhileSplit waiting
      ((fun x => ((met.map Prod.snd).reverse.map w.uri).contains (w.uri x)) ∘ Prod.snd)
    generalize waiting.dropWhile _ = left at whole fresh
    subst whole
    have known : ∀ stop ∈ early, stop.2 ∈ met.map Prod.snd := fun stop mem =>
      (visited stop (List.mem_append_left _ mem)).mp (passed stop mem)
    cases left with
    | nil => exact ⟨[], by rw [List.append_nil]; exact queueing.skip known, rfl⟩
    | cons stop rest =>
      have unmet : stop.2 ∉ met.map Prod.snd := fun mem => by
        have again := (visited stop (List.mem_append_right _ List.mem_cons_self)).mpr mem
        exact Bool.false_ne_true ((fresh stop rfl).symm.trans again)
      obtain ⟨later, ended, same⟩ := ih ((queueing.skip known).meet unmet)
        (by rw [List.length_append, List.length_singleton]; omega)
      refine ⟨stop :: later, by rwa [List.append_assoc] at ended, ?_⟩
      rw [List.map_append, List.map_append, stopsFromScopes, List.reverse_append] at same
      exact congrArg (stop.2 :: ·) same

theorem consultedQueueing (apart : w.Apart id) :
    ∃ met, w.Queueing id met [] ∧ met.map Prod.snd = w.consulted id .deep := by
  obtain ⟨later, ended, same⟩ :=
    visitQueueing apart w.scopes.length (Queueing.begin_ w id) (Nat.le_succ _)
  rw [stopsFromScopes] at same
  exact ⟨_, ended, congrArg (id :: ·) same⟩

theorem consultedNearest (apart : w.Apart id) {α : Type} {answers : ScopeId → Option α} {a : α}
    (found : (w.consulted id .deep).findSome? answers = some a) :
    ∃ route x, w.along id route = some x ∧ answers x = some a ∧
      ∀ other y, w.along id other = some y → (answers y).isSome = true → AsNear route other := by
  obtain ⟨met, ended, same⟩ := consultedQueueing apart
  rw [← same, List.findSome?_map, List.findSome?_eq_some_iff] at found
  obtain ⟨before, stop, behind, whole, answer, silent⟩ := found
  rw [whole] at ended
  have here : stop ∈ before ++ stop :: behind := List.mem_append_right _ List.mem_cons_self
  refine ⟨stop.1, stop.2, ended.leads stop (List.mem_append_left _ here), answer, ?_⟩
  intro other y leads answered
  obtain ⟨next, mem, rfl, near⟩ := ended.nearest other leads
  have sorted := (List.pairwise_append.mp (List.append_nil _ ▸ ended.sorted)).2.1
  rcases List.mem_append.mp mem with early | late
  · rw [show answers next.2 = none from silent next early] at answered
    cases answered
  · rcases List.mem_cons.mp late with rfl | late
    · exact near
    · exact AsNear.trans (.inr ((List.pairwise_cons.mp sorted).1 next late)) near

theorem apartOpened (opened : id < w.scopes.length)
    (closed : ∀ x < w.scopes.length, ∀ y ∈ (w.scope x).references, y < w.scopes.length)
    (distinct : (w.scopes.map Scope.uri).Nodup) : w.Apart id := by
  have known : ∀ x, w.Reaches id x → x < w.scopes.length :=
    fun x => Reaches.stays (p := (· < w.scopes.length)) opened closed
  have uris : ∀ {x}, x < w.scopes.length → (w.scopes.map Scope.uri)[x]? = some (w.uri x) := by
    intro x bound
    rw [List.getElem?_map, uri, scope, List.getD_eq_getElem?_getD, List.getElem?_eq_getElem bound]
    rfl
  refine ⟨known, fun x y left right same => ?_⟩
  refine (List.getElem?_inj (by rw [List.length_map]; exact known x left) distinct).mp ?_
  rw [uris (known x left), uris (known y right), same]

end Workspace

namespace Arity

theorem cutUnmarked {cs : List Char} (unmarked : mark ∉ cs) : cutMark cs = none := by
  induction cs with
  | nil => rfl
  | cons c rest ih =>
    rw [cutMark, ih fun later => unmarked (List.mem_cons_of_mem _ later)]
    refine if_neg fun first => unmarked ?_
    rw [first]
    exact List.mem_cons_self

theorem stripUnmarked {name : String} (unmarked : mark ∉ name.toList) :
    strip name = (name, none) := by
  obtain ⟨first, rest, cut, whole⟩ := Dotted.piecesFollowing name.toList
  have plain : ∀ piece ∈ Dotted.pieces name.toList, stripSegment piece = (piece, none) := by
    intro piece mem
    have clean : mark ∉ piece := fun inside => unmarked (by
      rw [whole]
      rcases List.mem_cons.mp (cut ▸ mem) with rfl | later
      · exact List.mem_append_left _ inside
      · exact List.mem_append_right _
          (List.mem_flatMap.mpr ⟨piece, later, List.mem_cons_of_mem _ inside⟩))
    rw [stripSegment, cutUnmarked clean]
  rw [strip, List.map_congr_left plain, cut]
  refine Prod.ext (String.toList_injective ?_) ?_
  · rw [whole, String.toList_intercalate]
    simp [intercalateFollowing, Function.comp_def]
  · simp [List.getLast?_cons]

end Arity

def Workspace.NearestStored (w : Workspace) (id : ScopeId) (name : String) (arity : Nat)
    (t : Declared) : Prop :=
  ∃ route x, w.along id route = some x ∧ (w.store x).find name arity = some t ∧
    ∀ other y, w.along id other = some y → ((w.store y).find name arity).isSome = true →
      Route.AsNear route other

namespace Query
variable {w : Workspace} {id : ScopeId}

/-- A lookup through references finds a type exactly when some scope that can be reached stores one
of that name and arity. It is the one that the nearest such scope stores; every scope is consulted at
most once, and there are steps enough for all of them. -/
theorem deepLookupNearest (apart : w.Apart id) {name : String}
    (unmarked : Arity.mark ∉ name.toList) (arity : Nat) :
    let answer := ((getByArity id .deep .exact name arity).run w).1
    let stored := fun x => (w.store x).find name arity
    (answer.isSome = true ↔ ∃ x, w.Reaches id x ∧ (stored x).isSome = true) ∧
      (∀ d, answer = some d → ∃ t, d = .ofDeclared t ∧ w.NearestStored id name arity t) ∧
      answer = ((w.consulted id .deep).findSome? stored).map .ofDeclared ∧
      (w.consulted id .deep).Nodup ∧
      ∀ steps, w.scopes.length ≤ steps →
        w.visit steps [w.uri id] (w.scope id).references = w.reach id := by
  intro answer stored
  have answered : answer = ((w.consulted id .deep).findSome? stored).map .ofDeclared := by
    have found : answer =
        (w.findType id .deep .exact (Arity.strip name).1 arity).map .ofDeclared := rfl
    rw [found, Arity.stripUnmarked unmarked, Workspace.findType]
    simp only [Store.lookupExact, stored]
  obtain ⟨once, all⟩ := Workspace.consultedReached apart
  refine ⟨?_, ?_, answered, once, ?_⟩
  · rw [answered, Option.isSome_map, List.findSome?_isSome_iff]
    simp only [all]
  · intro d found
    rw [answered] at found
    obtain ⟨t, first, rfl⟩ := Option.map_eq_some_iff.mp found
    obtain ⟨route, x, leads, here, nearest⟩ := Workspace.consultedNearest apart first
    exact ⟨t, rfl, route, x, leads, here, nearest⟩
  · intro steps enough
    obtain ⟨more, rfl⟩ := Nat.exists_eq_add_of_le enough
    have ended := Workspace.exploreEnds apart List.mem_append w.scopes.length more
      (w.exploringRefers id) (Nat.le_succ _)
    rw [← Workspace.visitExplores, ← Workspace.visitExplores] at ended
    exact ended

def diamondLoading : List Event :=
  [.opens "app", .opens "left", .opens "right", .opens "base",
    .writes ⟨⟨0⟩, "", [], [Blueprint.bare "Lib.Item" .classType]⟩,
    .writes ⟨⟨1⟩, "", [], [Blueprint.bare "Lib.Item" .interfaceType]⟩,
    .ingests 3 0, .ingests 2 1, .refers 0 [1, 2], .refers 1 [3], .refers 2 [0, 3]]

def diamond : Workspace := (Session.run diamondLoading).workspace

theorem deepLookupDiamond : ∃ t, ((diamond.store 2).find "Lib.Item" 0) = some t ∧
    ((getByArity 0 .deep .exact "Lib.Item" 0).run diamond).1 = some (.ofDeclared t) ∧
    ((diamond.store 3).find "Lib.Item" 0).isSome = true ∧
    diamond.consulted 0 .deep = [0, 1, 2, 3] ∧ diamond.NearestStored 0 "Lib.Item" 0 t := by
  have apart : diamond.Apart 0 := Workspace.apartOpened (by decide) (by decide) (by decide)
  have unmarked : Arity.mark ∉ "Lib.Item".toList := by decide
  obtain ⟨-, nearest, -⟩ := deepLookupNearest apart unmarked 0
  refine ⟨_, rfl, rfl, rfl, rfl, ?_⟩
  obtain ⟨t, same, stored⟩ := nearest _ rfl
  cases same
  exact stored

end Query
end TypeScope
