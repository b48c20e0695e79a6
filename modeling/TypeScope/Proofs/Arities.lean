import TypeScope.Proofs.DottedNames
import TypeScope.Proofs.Refetching
import TypeScope.Proofs.Sources

/-! The arity that a name is resolved with. Arguments tell it, and otherwise the mark behind the
last segment; only the search among nested types does not read that mark. What is bound to the
arguments is a type of that arity, unless something of its name was filed for them before. -/
namespace TypeScope

section Written

theorem stripBehind (outer name : String) :
    (Arity.strip (outer ++ "." ++ name)).2 = (Arity.strip name).2 := by
  have cut : Dotted.pieces (outer ++ "." ++ name).toList =
      Dotted.pieces outer.toList ++ Dotted.pieces name.toList := by
    rw [← Dotted.piecesAppend]
    simp
  have nonempty : (Dotted.pieces name.toList).map Arity.stripSegment ≠ [] := by
    simp [Dotted.piecesNonempty]
  rw [Arity.strip, Arity.strip, cut, List.map_append, List.getLast?_append,
    List.getLast?_eq_some_getLast nonempty, Option.some_or]

theorem askedBehind (outer name : String) (arguments : List TypeRef) :
    askedArity (outer ++ "." ++ name) arguments = askedArity name arguments := by
  rw [askedArity, askedArity, stripBehind]

theorem askedBound (name : String) {arguments : List TypeRef} (nonempty : arguments ≠ []) :
    askedArity name arguments = arguments.length := if_neg (by simpa using nonempty)

theorem Workspace.foundArity {w : Workspace} {id : ScopeId} {depth : Depth} {rule : CaseRule}
    {name : String} {arity : Nat} {t : Declared}
    (found : w.findType id depth rule name arity = some t) : t.arity = arity := by
  obtain ⟨at_, -, here⟩ := List.exists_of_findSome?_eq_some found
  unfold Store.lookup at here
  split at here
  · cases here
    exact (Store.findMem (by assumption)).2
  · split at here
    · cases here
    · obtain ⟨spelling, -, stored⟩ := List.exists_of_findSome?_eq_some here
      exact (Store.findMem stored).2

end Written

/-- The type that arguments are bound to where no directives are given, and the workspace they are
bound in: what is stored under the name, else what the search among nested types comes to, else what
is stored under the name below one of the names around the calling type. -/
inductive Request.BindsTo (id : ScopeId) (q : Request) (calling : Option Definition)
    (fetched : Workspace) : Declared → Workspace → Prop where
  | known {t} (found : fetched.findType id q.depth q.rule (Arity.strip q.name).1
        (askedArity q.name q.arguments) = some t) : BindsTo id q calling fetched t fetched
  | nested {c t u} (called : calling = some c)
      (unknown : fetched.findType id q.depth q.rule (Arity.strip q.name).1
        (askedArity q.name q.arguments) = none)
      (followed : (Query.followInner id q.rule q.arguments.length (Dotted.segments q.name) c).run
        fetched = (some (.ofDeclared t), u)) : BindsTo id q calling fetched t u
  | enclosing {c t u} (called : calling = some c)
      (unknown : fetched.findType id q.depth q.rule (Arity.strip q.name).1
        (askedArity q.name q.arguments) = none)
      (lost : (Query.followInner id q.rule q.arguments.length (Dotted.segments q.name) c).run
        fetched = (none, u))
      (first : (Dotted.enclosing c.fullName).findSome? (fun outer => u.findType id q.depth q.rule
        (Arity.strip (outer ++ "." ++ q.name)).1 (askedArity q.name q.arguments)) = some t) :
      BindsTo id q calling fetched t u

/-- What a request without directives comes to: a type of the arity asked for, what was filed before
for such a type and the arguments, a type parameter or, where a mark is written and no arguments, a
nested type of arity 0. -/
inductive Request.Yields (id : ScopeId) (q : Request) (calling : Option Definition)
    (fetched : Workspace) (d : Definition) (after : Workspace) : Prop where
  | honoured {t} (opens : d.openType = .declared t) (arity : t.arity = askedArity q.name q.arguments)
  | filed {t} (bound : q.arguments ≠ []) (binds : q.BindsTo id calling fetched t after)
      (arity : t.arity = askedArity q.name q.arguments)
      (before : (after.scope id).cache.get? (Instantiation.keyFor t.fullName q.arguments) = some d)
  | parameter {c owner p} (bare : q.arguments = []) (called : calling = some c)
      (around : fetched.innermost id q.rule q.name c = some (owner, p))
      (made : (Query.placeholder id owner p).run fetched = (d, after))
  | inner {c segment owner p u} {m : Definition} (bare : q.arguments = []) (called : calling = some c)
      (followed : (Query.followInner id q.rule 0 (Dotted.segments q.name) c).run fetched =
        (some d, after))
      (last : (Dotted.segments q.name).getLast? = some segment)
      (has : m.parameter? q.rule (Arity.strip segment).1 = some (owner, p))
      (made : (Query.placeholder id owner p).run u = (d, after))
  | unmarked {c t} (bare : q.arguments = []) (called : calling = some c)
      (marked : askedArity q.name q.arguments ≠ 0)
      (followed : (Query.followInner id q.rule 0 (Dotted.segments q.name) c).run fetched =
        (some d, after))
      (same : d = .ofDeclared t) (arity : t.arity = 0)

namespace Query

section Answers
variable {id : ScopeId} {rule : CaseRule} {name : String} {arity : Nat} {q : Request}
  {calling : Option Definition} {c d t : Definition} {o : Declared} {w u after fetched : Workspace}

theorem instantiateBinds {arguments : List TypeRef}
    (run : (instantiate id (.ofDeclared o) arguments).run w = (d, after)) :
    d.openType = .declared o ∨ arguments ≠ [] ∧ after = w ∧
      (w.scope id).cache.get? (Instantiation.keyFor o.fullName arguments) = some d := by
  by_cases bare : arguments = []
  · rw [bare] at run
    cases run
    exact .inl rfl
  · have named : (OpenType.declared o).fullName = o.fullName := rfl
    rw [Definition.ofDeclared, instantiateRun id w _ bare, named] at run
    cases known : (w.scope id).cache.get? (Instantiation.keyFor o.fullName arguments) with
    | some filed =>
      rw [known] at run
      cases run
      exact .inr ⟨bare, rfl, rfl⟩
    | none =>
      rw [known] at run
      cases run
      exact .inl rfl

theorem bindingYields (binds : q.BindsTo id calling fetched o u)
    (arity : o.arity = askedArity q.name q.arguments)
    (run : (instantiate id (.ofDeclared o) q.arguments).run u = (d, after)) :
    q.Yields id calling fetched d after := by
  rcases instantiateBinds run with opens | ⟨bound, rfl, before⟩
  · exact .honoured opens arity
  · exact .filed bound binds arity before

theorem lookupBinds {arguments : List TypeRef}
    (answer : (getType id depth rule name arguments).run w = (some d, after)) :
    ∃ o, w.findType id depth rule (Arity.strip name).1 (askedArity name arguments) = some o ∧
      (instantiate id (.ofDeclared o) arguments).run w = (d, after) := by
  cases found : w.findType id depth rule (Arity.strip name).1 (askedArity name arguments) with
  | none =>
    rw [getTypeMissed found] at answer
    cases answer
  | some o =>
    rw [getTypeRun found] at answer
    cases answer
    exact ⟨o, rfl, rfl⟩

theorem enclosingBinds {names : List String}
    (answer : (findFirst (fun outer => lookupFor id q (outer ++ "." ++ q.name) q.arguments)
      names).run w = (some d, after)) :
    ∃ o, names.findSome? (fun outer => w.findType id q.depth q.rule
        (Arity.strip (outer ++ "." ++ q.name)).1 (askedArity q.name q.arguments)) = some o ∧
      (instantiate id (.ofDeclared o) q.arguments).run w = (d, after) := by
  induction names with
  | nil => cases answer
  | cons outer rest ih =>
    have asked := askedBehind outer q.name q.arguments
    rw [findFirst] at answer
    cases found : w.findType id q.depth q.rule (Arity.strip (outer ++ "." ++ q.name)).1
        (askedArity q.name q.arguments) with
    | none =>
      rw [lookupFor, runThrough (getTypeMissed (asked ▸ found))] at answer
      rw [List.findSome?_cons, found]
      exact ih answer
    | some o =>
      rw [lookupFor, runThrough (getTypeRun (asked ▸ found))] at answer
      cases answer
      exact ⟨o, by rw [List.findSome?_cons, found], rfl⟩

theorem Supplies.offered {around : List Definition}
    (supplies : Supplies id rule name arity around w t after) :
    ∃ m u, Offered id rule name arity m u t after := by
  induction supplies with
  | here _ _ offered => exact ⟨_, _, offered⟩
  | outwards _ _ ih => exact ih

theorem Follows.offered {segments : List String}
    (follows : Follows id rule arity segments c w t after) :
    ∃ segment m u, segments.getLast? = some segment ∧
      Offered id rule (Arity.strip segment).1 arity m u t after := by
  induction follows with
  | last found =>
    obtain ⟨m, u, offered⟩ := found.offered
    exact ⟨_, m, u, rfl, offered⟩
  | onward _ _ ih =>
    obtain ⟨segment, m, u, last, offered⟩ := ih
    exact ⟨segment, m, u, by rw [List.getLast?_cons_cons, last], offered⟩

theorem nestedArity {m : Definition} (found : m.findNested rule name arity = some o) :
    o.arity = arity := by
  have matches_ := List.find?_some found
  simp only [Bool.and_eq_true, beq_iff_eq] at matches_
  exact matches_.1

theorem nestedYields (called : calling = some c)
    (unknown : fetched.findType id q.depth q.rule (Arity.strip q.name).1
      (askedArity q.name q.arguments) = none)
    (followed : (followInner id q.rule q.arguments.length (Dotted.segments q.name) c).run fetched =
      (some t, u)) (run : (instantiate id t q.arguments).run u = (d, after)) :
    q.Yields id calling fetched d after := by
  have segmented : Dotted.segments q.name ≠ [] := by
    simp [Dotted.segments, Dotted.piecesNonempty]
  obtain ⟨segment, m, v, last, offered⟩ := ((dottedNameFollowed segmented).mp followed).offered
  by_cases bare : q.arguments = []
  · have same : t = d ∧ u = after := by
      rw [bare] at run
      cases t <;> cases run <;> exact ⟨rfl, rfl⟩
    obtain ⟨rfl, rfl⟩ := same
    have none_ : q.arguments.length = 0 := by rw [bare, List.length_nil]
    rw [none_] at followed offered
    rcases offered with found | ⟨-, -, has, made⟩
    · have counted := nestedArity found
      by_cases asked : askedArity q.name q.arguments = 0
      · exact .honoured rfl (counted.trans asked.symm)
      · exact .unmarked bare called asked followed rfl counted
    · exact .inner bare called followed last has made
  · rcases offered with found | ⟨none_, -⟩
    · exact bindingYields (.nested called unknown followed)
        ((nestedArity found).trans (askedBound q.name bare).symm) run
    · exact absurd (List.length_eq_zero_iff.mp none_) bare

theorem parametersYield (answer : (fromParameters id q calling).run fetched = (some d, after)) :
    q.Yields id calling fetched d after := by
  unfold fromParameters at answer
  cases calling with
  | none => cases answer
  | some c =>
    dsimp only at answer
    split at answer
    · rename_i bare
      rw [outerParameterRun] at answer
      cases around : fetched.innermost id q.rule q.name c with
      | none =>
        rw [around] at answer
        cases answer
      | some found =>
        rw [around] at answer
        cases answer
        exact .parameter (List.isEmpty_iff.mp bare) rfl around rfl
    · cases answer

theorem resolveYields (without : q.unit = none)
    (fetching : (q.calling.mapM (refetch id)).run w = (calling, fetched))
    (answer : (resolve id q).run w = (some d, after)) : q.Yields id calling fetched d after := by
  have named : q.name ≠ "" := fun empty => by
    rw [resolveUnnamed id empty] at answer
    cases answer
  have aliases : fromAlias id q = pure none := by
    rw [fromAlias, without]
    rfl
  have usings : fromUsings id q = pure none := by
    rw [fromUsings, without]
    rfl
  rw [resolveSources named fetching, nearSources, aliases, usings, List.cons_append,
    firstOfCons (parametersSilent id q calling), List.cons_append,
    firstOfCons (knownSilent id q)] at answer
  split at answer
  · exact parametersYield answer
  split at answer
  · obtain ⟨o, found, run⟩ := lookupBinds answer
    exact bindingYields (.known found) (Workspace.foundArity found) run
  rename_i unanswered
  have unknown : fetched.findType id q.depth q.rule (Arity.strip q.name).1
      (askedArity q.name q.arguments) = none := by
    rw [← Option.not_isSome_iff_eq_none, ← getTypeAnswers]
    exact unanswered
  cases calling with
  | none => cases answer
  | some c =>
    cases followed : (followInner id q.rule q.arguments.length (Dotted.segments q.name) c).run
        fetched with
    | mk inner u =>
      have nested := fromNestedRun id q c fetched
      rw [followed] at nested
      rw [List.cons_append, firstOf, runThrough nested] at answer
      cases inner with
      | some t =>
        cases answer
        exact nestedYields rfl unknown followed rfl
      | none =>
        change (firstOf [pure none, fromEnclosing id q (some c), pure none]).run u = _ at answer
        rw [firstOfPassed silentNone rfl, firstOfCons (enclosingSilent id q (some c))] at answer
        split at answer
        · obtain ⟨o, first, run⟩ := enclosingBinds answer
          have arity : o.arity = askedArity q.name q.arguments := by
            obtain ⟨outer, -, found⟩ := List.exists_of_findSome?_eq_some first
            exact Workspace.foundArity found
          exact bindingYields (.enclosing rfl unknown followed first) arity run
        · cases answer

end Answers

section Nests
variable {id : ScopeId} {w v : Workspace} {d start : Definition} {α : Type}
  {f : Definition → Query (Option α)} {offers : Definition → Bool}

theorem fetchedHeld {t : Declared} (held : w.Holds id t) :
    (refetch id (.ofDeclared t)).run w = (.ofDeclared t, rechosen t t w) := by
  rw [refetchRun, held]
  rfl

theorem searchAncestryStart (selects : Selects f offers)
    (fetching : (refetch id d).run w = (start, v)) (offered : offers start = true) :
    ((searchAncestry id f d).run w).1.isSome = true := by
  have on : unmet (startAt start) = [start] := rfl
  obtain ⟨n, steps⟩ : ∃ n, v.walkBound start = n + 1 :=
    Nat.exists_eq_succ_of_ne_zero (Nat.ne_of_gt
      (Nat.lt_of_lt_of_le (potentialPositive on) (startPotential v start)))
  obtain ⟨a, answer⟩ := selects.answers start (basesAt id v start).2 offered
  rw [searchAncestry, runThrough fetching, StateT.run_bind, StateT.run_get, pure_bind, steps,
    searchOn, runThrough (advanceMeets id v on)]
  dsimp only
  rw [runThrough (Prod.ext answer rfl : _ = (some a, _))]
  rfl

theorem outwardStart (w : Workspace) (id : ScopeId) (d : Definition) :
    ∃ around, w.outward id d = d :: around := by
  obtain ⟨n, steps⟩ : ∃ n, Workspace.outwardBound d = n + 1 :=
    Nat.exists_eq_succ_of_ne_zero (by unfold Workspace.outwardBound; split <;> simp)
  rw [Workspace.outward, steps]
  exact ⟨_, rfl⟩

theorem findInnerNests {rule : CaseRule} {name : String} {arity : Nat}
    (fetching : (refetch id d).run w = (d, v))
    (nests : (d.findNested rule name arity).isSome = true) :
    ((findInner id rule name arity d).run w).1.isSome = true := by
  obtain ⟨around, outward⟩ := outwardStart w id d
  have offered : d.offers rule name arity = true := by rw [Definition.offers, nests, Bool.true_or]
  have found := searchAncestryStart (innerOfSelects id rule name arity) fetching offered
  obtain ⟨t, after, answer⟩ := answered found
  rw [findInner, StateT.run_bind, StateT.run_get, pure_bind, outward, findFirst,
    runThrough answer]
  rfl

theorem resolveNests {q : Request} {calling : Definition} {fetched : Workspace}
    (nonempty : q.name ≠ "") (simple : '.' ∉ q.name.toList)
    (fetching : (q.calling.mapM (refetch id)).run w = (some calling, fetched))
    (again : (refetch id calling).run fetched = (calling, v))
    (nests : (calling.findNested q.rule (Arity.strip q.name).1 q.arguments.length).isSome = true) :
    ((resolve id q).run w).1.isSome = true := by
  have segments : Dotted.segments q.name = [q.name] := by
    rw [Dotted.segments, Dotted.piecesSimple simple, List.map_singleton, String.ofList_toList]
  have nested : ((fromNested id q (some calling)).run fetched).1.isSome = true := by
    obtain ⟨t, after, answer⟩ := answered (findInnerNests again nests)
    rw [fromNestedRun, segments, followInner, answer]
    rfl
  rw [resolveSources nonempty fetching]
  simp only [nearSources, List.cons_append, firstOfCons (parametersSilent id q (some calling)),
    firstOfCons (knownSilent id q)]
  split
  · assumption
  · split
    · assumption
    · rwa [firstOfHit nested]

end Nests

/-- Whatever happened before, a request without directives comes to a type of the arity it asks for,
to what was filed before for the type it leads to, to a type parameter, or to a nested type where no
arguments are written; and it finds something where the calling type, as it is now, nests what it
asks for, unless the name is marked with an arity and no arguments are written. -/
theorem aritiesHonoured (events : List Event) (id : ScopeId) {q : Request}
    (without : q.unit = none) :
    let w := (Session.run events).workspace
    let called := (q.calling.mapM (refetch id)).run w
    (∀ d after, (resolve id q).run w = (some d, after) → q.Yields id called.1 called.2 d after) ∧
      ∀ c calling fetched, q.calling = some c → (refetch id c).run w = (calling, fetched) →
        q.name ≠ "" → '.' ∉ q.name.toList → askedArity q.name q.arguments = q.arguments.length →
        (calling.findNested q.rule (Arity.strip q.name).1
          (askedArity q.name q.arguments)).isSome = true →
        ((resolve id q).run w).1.isSome = true := by
  intro w _
  have filed : Filed w := Session.filed events
  refine ⟨fun d after answer => ?_,
    fun c calling fetched called fetching nonempty simple asked nests => ?_⟩
  · exact resolveYields without rfl answer
  · have again := refetchedAgain (Session.storesSound events) filed (Session.instancesFilled events)
      fetching
    have mapped : (q.calling.mapM (refetch id)).run w = (some calling, fetched) := by
      rw [called]
      change (some <$> refetch id c).run w = _
      rw [map_eq_pure_bind]
      exact runThrough fetching
    exact resolveNests nonempty simple mapped (Prod.ext again rfl) (asked ▸ nests)

def innerEvents : List Event :=
  [.opens "app",
    .writes ⟨⟨0⟩, "Outer.cs", [],
      [{ Blueprint.bare "App.Outer" .classType with
          nested := [{ Blueprint.bare "Inner" .classType with typeParameters := [⟨"T", []⟩] }] },
        { Blueprint.bare "App.Other" .classType with
          nested := [Blueprint.bare "Inner" .classType] }]⟩,
    .ingests 0 0]

def innerTypes : Workspace := (Session.run innerEvents).workspace

theorem aritiesHonouredBound : ∃ outer d after,
    innerTypes.findType 0 .deep .exact "App.Outer" 0 = some outer ∧
      let q := { Request.within "Inner" outer none .shallow with
        arguments := [TypeRef.named "Lib.X"] }
      let called := (q.calling.mapM (refetch 0)).run innerTypes
      q.unit = none ∧ (resolve 0 q).run innerTypes = (some d, after) ∧
        q.Yields 0 called.1 called.2 d after := by
  have found : (innerTypes.findType 0 .deep .exact "App.Outer" 0).any (fun outer =>
      (outer.findNested .exact "Inner" 1).isSome) := by decide +kernel
  obtain ⟨outer, stored, nests⟩ := (Option.any_eq_true _ _).mp found
  have held : innerTypes.Holds 0 outer :=
    Workspace.foundAgain (Session.storesSound innerEvents) stored
  have fetching := fetchedHeld held
  have nonempty : "Inner" ≠ "" := by decide
  have simple : '.' ∉ "Inner".toList := by decide +kernel
  have marks : (Arity.strip "Inner").1 = "Inner" := by decide +kernel
  have asked : askedArity "Inner" [TypeRef.named "Lib.X"] = 1 := askedBound _ (by simp)
  have asks : (outer.findNested .exact (Arity.strip "Inner").1
      (askedArity "Inner" [TypeRef.named "Lib.X"])).isSome = true := by
    rw [marks, asked]
    exact nests
  -- spelled out as the theorem has it, so that nothing below evaluates the session to compare them
  unfold innerTypes at *
  obtain ⟨yields, finds⟩ := aritiesHonoured innerEvents 0
    (q := { Request.within "Inner" outer none .shallow with
      arguments := [TypeRef.named "Lib.X"] }) rfl
  have resolves := finds _ _ _ rfl fetching nonempty simple asked asks
  obtain ⟨d, after, run⟩ := answered resolves
  exact ⟨outer, d, after, stored, rfl, run, yields d after run⟩

theorem arityMistaken : askedArity "Inner\x601" [] = 1 ∧ ∃ outer other,
    innerTypes.findType 0 .deep .exact "App.Outer" 0 = some outer ∧
      (outer.findNested .exact "Inner" 1).isSome = true ∧
      ((resolve 0 (.within "Inner\x601" outer none .shallow)).run innerTypes).1.isNone = true ∧
      innerTypes.findType 0 .deep .exact "App.Other" 0 = some other ∧
      ((resolve 0 (.within "Inner\x601" other none .shallow)).run innerTypes).1.map
        (fun d => (d.fullName, d.arity)) = some ("App.Other.Inner", 0) := by
  have first : (innerTypes.findType 0 .deep .exact "App.Outer" 0).any (fun outer =>
      (outer.findNested .exact "Inner" 1).isSome &&
        ((resolve 0 (.within "Inner\x601" outer none .shallow)).run innerTypes).1.isNone) := by
    decide +kernel
  have second : (innerTypes.findType 0 .deep .exact "App.Other" 0).any (fun other =>
      ((resolve 0 (.within "Inner\x601" other none .shallow)).run innerTypes).1.map
        (fun d => (d.fullName, d.arity)) == some ("App.Other.Inner", 0)) := by decide +kernel
  obtain ⟨outer, stored, both⟩ := (Option.any_eq_true _ _).mp first
  obtain ⟨nests, missed⟩ := Bool.and_eq_true_iff.mp both
  obtain ⟨other, stored', found⟩ := (Option.any_eq_true _ _).mp second
  exact ⟨by decide +kernel, outer, other, stored, nests, missed, stored', eq_of_beq found⟩

end Query
end TypeScope
