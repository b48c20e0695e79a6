import TypeScope.Proofs.BaseContexts
import TypeScope.Proofs.NestedStorage
import TypeScope.Proofs.Sources

/-! Bases of partial types. A base is looked up by itself and as a type parameter, and then under
the names that it may be short for. With a fragment for its owner it is read below the using
directives of the fragment's file, with the whole type below those of the file of record; nothing
else differs. -/
namespace TypeScope
open Query

def Definition.unplaced : Definition → Definition
  | .unbound (.placeholder p) =>
      .unbound (.placeholder { p with file := none, location := Location.unknown })
  | d => d

def TypeRef.readAs (around : String) (usings : List UsingDirective) (base : TypeRef) :
    List (String × List TypeRef) :=
  [(base.fullName, base.arguments)] ++
    ((UsingDirective.findAlias .exact base.fullName usings).map
      (fun target => (target.fullName, target.arguments))).toList ++
    (Dotted.enclosing around).map (fun outer => (outer ++ "." ++ base.fullName, base.arguments)) ++
    (usings.flatMap (UsingDirective.candidates .exact base.fullName)).map
      (fun full => (full, base.arguments))

namespace Workspace

def typed (w : Workspace) (id : ScopeId) (reading : String × List TypeRef) : Option Definition :=
  ((getType id .deep .exact reading.1 reading.2).run w).1

def meantAnyway (w : Workspace) (id : ScopeId) (t : Declared) (base : TypeRef) :
    Option Definition :=
  ((lookup id base.unlinked).run w).1.1.or
    (if base.fullName ≠ "" ∧ base.arguments = [] then
      ((outerParameter id .exact base.fullName (.ofDeclared t)).run w).1
    else none)

def meantBelow (w : Workspace) (id : ScopeId) (t : Declared) (usings : List UsingDirective)
    (base : TypeRef) : Option Definition :=
  if base.fullName = "" then none
  else (base.readAs t.fullName usings).findSome? (w.typed id)

end Workspace

namespace Query

section Sources
variable {v w : Workspace} {id : ScopeId} {c t : Declared} {base : TypeRef}

theorem aliasAnswer : ((fromAlias id (w.baseRequest id t base)).run v).1 =
    ((UsingDirective.findAlias .exact base.fullName (w.directivesOf id t)).map
      (fun target => (target.fullName, target.arguments))).bind (v.typed id) ∧
    Silent (fromAlias id (w.baseRequest id t base)) := by
  unfold fromAlias
  simp only [Workspace.baseRequest, Request.ofReference, Request.named, aliasIn]
  rw [← Workspace.directivesOf]
  cases UsingDirective.findAlias .exact base.fullName (w.directivesOf id t) with
  | none => exact ⟨rfl, silentNone⟩
  | some target => exact ⟨rfl, getTypeSilent ..⟩

theorem sourcesAnswer (w v : Workspace) (t c : Declared) :
    let q := w.baseRequest id t base
    ((firstOf [fromParameters id q (some (.ofDeclared c)), fromKnown id q, pure none,
        fromAlias id q, fromEnclosing id q (some (.ofDeclared c)), fromUsings id q]).run v).1 =
      (if base.arguments = [] then
        ((outerParameter id .exact base.fullName (.ofDeclared c)).run v).1 else none).or
        ((base.readAs c.fullName (w.directivesOf id t)).findSome? (v.typed id)) := by
  intro q
  have typed (name : String) (arguments : List TypeRef) : Silent (lookupFor id q name arguments) :=
    getTypeSilent ..
  have silent : ∀ source ∈ [fromParameters id q (some (.ofDeclared c)), fromKnown id q, pure none,
      fromAlias id q, fromEnclosing id q (some (.ofDeclared c)), fromUsings id q],
      Silent source := by
    simp only [List.forall_mem_cons]
    exact ⟨parametersSilent .., typed _ _, silentNone, (aliasAnswer (v := v)).2,
      findFirstSilent (fun _ => typed _ _) _, findFirstSilent (fun _ => typed _ _) _, nofun⟩
  have parameters : ((fromParameters id q (some (.ofDeclared c))).run v).1 =
      if base.arguments = [] then
        ((outerParameter id .exact base.fullName (.ofDeclared c)).run v).1 else none := by
    have bare : q.arguments.isEmpty = true ↔ base.arguments = [] := List.isEmpty_iff
    unfold fromParameters
    dsimp only
    split
    · rename_i empty
      rw [if_pos (bare.mp empty)]
      rfl
    · rename_i some_
      rw [if_neg fun empty => some_ (bare.mpr empty)]
      rfl
  have known : ((fromKnown id q).run v).1 = v.typed id (base.fullName, base.arguments) := rfl
  have aliases : ((fromAlias id q).run v).1 =
      ((UsingDirective.findAlias .exact base.fullName (w.directivesOf id t)).map
        (fun target => (target.fullName, target.arguments))).bind (v.typed id) := aliasAnswer.1
  have enclosing : ((fromEnclosing id q (some (.ofDeclared c))).run v).1 =
      (Dotted.enclosing c.fullName).findSome?
        (fun outer => v.typed id (outer ++ "." ++ base.fullName, base.arguments)) :=
    findFirstAnswer (fun _ => typed _ _) _ v
  have usings : ((fromUsings id q).run v).1 =
      ((w.directivesOf id t).flatMap (UsingDirective.candidates .exact base.fullName)).findSome?
        (fun full => v.typed id (full, base.arguments)) := by
    rw [Workspace.directivesOf, ← candidatesIn]
    exact findFirstAnswer (fun _ => typed _ _) _ v
  have first : ∀ (source : Query (Option Definition)) (rest : List (Query (Option Definition))),
      (source :: rest).findSome? (fun s => (s.run v).1) =
        ((source.run v).1).or (rest.findSome? (fun s => (s.run v).1)) := by
    intro source rest
    rw [List.findSome?_cons]
    cases (source.run v).1 <;> rfl
  have nothing : ((pure none : Query (Option Definition)).run v).1 = none := rfl
  rw [firstOfAnswer silent]
  simp only [first, parameters, known, nothing, aliases, enclosing, usings, TypeRef.readAs,
    List.findSome?_append, List.findSome?_map, Function.comp_def, Option.or_none, Option.none_or,
    Option.or_assoc, List.findSome?_singleton, List.findSome?_nil]
  cases (UsingDirective.findAlias .exact base.fullName (w.directivesOf id t)) <;> simp

end Sources

section Bases
variable {w : Workspace} {id : ScopeId} {c t : Declared} {base : TypeRef}

theorem typedAside (id : ScopeId) (reading : String × List TypeRef) (w : Workspace)
    (mainParts : Table Stamp Nat) :
    Workspace.typed { w with mainParts := mainParts } id reading = w.typed id reading := by
  have found : ∀ v : Workspace, v.typed id reading =
      (v.findType id .deep .exact (Arity.strip reading.1).1 (askedArity reading.1 reading.2)).map
        (fun t => ((instantiate id (.ofDeclared t) reading.2).run v).1) := by
    intro v
    rw [Workspace.typed, getTypeStripped, StateT.run_bind, StateT.run_get, pure_bind]
    cases v.findType id .deep .exact (Arity.strip reading.1).1
      (askedArity reading.1 reading.2) <;> rfl
  have bound : ∀ t, ((instantiate id (.ofDeclared t) reading.2).run
      { w with mainParts := mainParts }).1 =
        ((instantiate id (.ofDeclared t) reading.2).run w).1 := by
    intro t
    by_cases bare : reading.2 = []
    · rw [bare]
      rfl
    · rw [Definition.ofDeclared, instantiateRun _ _ _ bare, instantiateRun _ _ _ bare]
      have cache : Workspace.scope { w with mainParts := mainParts } id = w.scope id := rfl
      rw [cache]
      cases (w.scope id).cache.get?
        (Instantiation.keyFor (OpenType.declared t).fullName reading.2) <;> rfl
  have lasting : Workspace.lasting { w with mainParts := mainParts } = w.lasting := rfl
  rw [found, found, Workspace.findTypeLasting lasting]
  simp only [bound]

theorem parameterAside (id : ScopeId) (rule : CaseRule) (name : String) (d : Definition)
    (w : Workspace) (mainParts : Table Stamp Nat) :
    ((outerParameter id rule name d).run { w with mainParts := mainParts }).1.map
        Definition.unplaced =
      ((outerParameter id rule name d).run w).1.map Definition.unplaced := by
  have lasting : Workspace.lasting { w with mainParts := mainParts } = w.lasting := rfl
  rw [outerParameterRun, outerParameterRun, innermostLasting lasting]
  cases w.innermost id rule name d with
  | none => rfl
  | some found =>
    rw [Option.elim_some, Option.elim_some, placeholderFor, placeholderFor, placeholderRun,
      placeholderRun]
    have cache : Workspace.scope { w with mainParts := mainParts } id = w.scope id := rfl
    rw [cache]
    cases (w.scope id).cache.get? (Placeholder.keyFor found.1.fullName found.2.name) <;> rfl

theorem lookupMissed {r : TypeRef} (missed : ((lookup id r).run w).1.1 = none) :
    (lookup id r).run w = ((none, r.unlinked), w) := by
  unfold lookup at missed ⊢
  cases elements : r.element? with
  | some element =>
    rw [elements] at missed
    cases missed
  | none =>
    rw [elements] at missed
    dsimp only at missed ⊢
    unfold lookupCore at missed ⊢
    rw [StateT.run_bind, StateT.run_get, pure_bind] at missed ⊢
    cases believed : (w.linked r).filter (w.isCurrent id) with
    | some d =>
      rw [believed] at missed
      cases missed
    | none =>
      rw [believed] at missed
      dsimp only at missed ⊢
      cases typed : (getType id .deep .exact r.decoratedName r.arguments).run w with
      | mk answer after =>
        cases answer with
        | none =>
          have kept := (getTypeSilent id .deep .exact r.decoratedName r.arguments).kept w
            (congrArg Prod.fst typed)
          cases typed.symm.trans kept
          rw [runThrough typed]
          rfl
        | some found =>
          rw [runThrough typed] at missed
          dsimp only at missed
          split at missed <;> cases missed

theorem currentUnlinked {links : Links} {site : Site} {r : TypeRef}
    (unlinked : (links.current site r).link = none) : links.current site r = r.unlinked := by
  unfold Links.current at unlinked ⊢
  cases written : links.get? site with
  | none =>
    rw [written] at unlinked
    obtain ⟨ns, outer, last, marks, link⟩ := r
    cases unlinked
    rfl
  | some link =>
    rw [written] at unlinked
    exact congrArg r.linkedTo unlinked

theorem resolveBaseRun {i : Nat}
    (unlinked : (w.links.current ⟨t.stamp, .base i⟩ base).link = none) :
    ((resolveBase id (.ofDeclared t) i base).run w).1 =
      ((lookup id base.unlinked).run w).1.1.or
        ((resolveFlat id (w.baseRequest id t base)).run w).1 := by
  have current := currentUnlinked unlinked
  have site : (⟨(Definition.ofDeclared t).stamp, .base i⟩ : Site) = ⟨t.stamp, .base i⟩ := rfl
  have context : Workspace.writtenIn (.ofDeclared t) = .ofDeclared t := rfl
  cases looked : (lookup id base.unlinked).run w with
  | mk answer after =>
    obtain ⟨found, linked⟩ := answer
    cases found with
    | some d =>
      obtain ⟨later, asked⟩ : ∃ later,
          (lookupAt id ⟨t.stamp, .base i⟩ base).run w = (some d, later) := by
        unfold lookupAt
        rw [StateT.run_bind, StateT.run_get, pure_bind, current, runThrough looked]
        dsimp only
        split <;> exact ⟨_, rfl⟩
      unfold resolveBase
      dsimp only
      rw [site, runThrough asked]
      rfl
    | none =>
      -- the lookup left nothing behind, so the context is asked in the same workspace
      have missed := lookupMissed (congrArg (fun run => run.1.1) looked)
      have asked : (lookupAt id ⟨t.stamp, .base i⟩ base).run w = (none, w) := by
        unfold lookupAt
        rw [StateT.run_bind, StateT.run_get, pure_bind, current, runThrough missed]
        rfl
      unfold resolveBase
      dsimp only
      rw [site, runThrough asked, Option.none_or]
      dsimp only
      rw [StateT.run_bind, StateT.run_get, pure_bind, context]
      cases flat : (resolveFlat id (w.baseRequest id t base)).run w with
      | mk answer final =>
        cases answer with
        | none => exact congrArg Prod.fst (runThrough flat)
        | some d => exact (congrArg Prod.fst (runThrough flat)).trans rfl

theorem resolveFlatMeant (held : w.Holds id c) (name : t.fullName = c.fullName)
    (arity : t.arity = c.arity) (some_ : base.fullName ≠ "") :
    ((resolveFlat id (w.baseRequest id t base)).run w).1.map Definition.unplaced =
      ((if base.arguments = [] then
        ((outerParameter id .exact base.fullName (.ofDeclared c)).run w).1 else none).or
        ((base.readAs c.fullName (w.directivesOf id t)).findSome? (w.typed id))).map
        Definition.unplaced := by
  obtain ⟨mainParts, again⟩ := refetchCalled held name arity
  have named : (w.baseRequest id t base).name ≠ "" := some_
  have calling : (w.baseRequest id t base).calling = some (.ofDeclared t) := rfl
  have typed : Workspace.typed { w with mainParts := mainParts } id = w.typed id :=
    funext fun reading => typedAside id reading w mainParts
  have parameter := parameterAside id .exact base.fullName (.ofDeclared c) w mainParts
  unfold resolveFlat resolveWith
  rw [if_neg named, calling]
  dsimp only
  rw [runThrough again, sourcesAnswer w _ t c, typed, Option.map_or, Option.map_or]
  split
  · rw [parameter]
  · rfl

theorem resolveBaseMeant (held : w.Holds id c) (name : t.fullName = c.fullName)
    (arity : t.arity = c.arity) {i : Nat}
    (unlinked : (w.links.current ⟨t.stamp, .base i⟩ base).link = none) :
    ((resolveBase id (.ofDeclared t) i base).run w).1.map Definition.unplaced =
      ((w.meantAnyway id c base).or (w.meantBelow id c (w.directivesOf id t) base)).map
        Definition.unplaced := by
  rw [resolveBaseRun unlinked, Workspace.meantAnyway, Workspace.meantBelow, Option.map_or]
  by_cases unnamed : base.fullName = ""
  · have nothing : resolveFlat id (w.baseRequest id t base) = pure none := by
      unfold resolveFlat resolveWith
      exact if_pos unnamed
    have answer : ((pure none : Query (Option Definition)).run w).1 = none := rfl
    rw [nothing, answer, if_pos unnamed, if_neg fun both => both.1 unnamed]
    simp only [Option.or_none, Option.map_none]
  · rw [resolveFlatMeant held name arity unnamed, if_neg unnamed, ← Option.map_or, Option.or_assoc]
    simp only [unnamed, ne_eq, not_false_eq_true, true_and]

end Bases

section Partial
variable {id : ScopeId} {c f : Declared}

theorem partCalled (events : List Event) (held : (Session.run events).workspace.Holds id c)
    (part : f ∈ c.parts) : f.fullName = c.fullName ∧ f.arity = c.arity ∧ f.parts = [] := by
  obtain ⟨at_, -, here⟩ := List.exists_of_findSome?_eq_some held
  rw [Store.lookupExact] at here
  obtain ⟨units, placed, reflects⟩ := (Session.placed events).stores.at Store.writtenEmpty at_
  have declared := Store.storedFragments placed reflects (Store.findMem here).1
  have compound : c.fragments = c.parts := by
    rw [Declared.fragments, if_pos]
    simpa [Declared.isCompound] using List.ne_nil_of_mem part
  rw [compound] at declared
  obtain ⟨d, listed, same⟩ := Declared.tagged declared part
  obtain ⟨written, name, arity⟩ := Store.memDeclarationsOf.mp listed
  refine ⟨?_, ?_, ?_⟩
  · exact (congrArg Tag.fullName same).symm.trans name
  · exact (congrArg Tag.arity same).symm.trans arity
  · refine Declared.singleTagged declared (fun d listed => ?_) f part
    exact (Store.declarationPlaced placed (Store.memDeclarationsOf.mp listed).1).single

/-- What a base without a link is found to be with a fragment for its owner, it is found to be with
the whole type, unless it takes the using directives to tell and those of the file of record do not
tell the same. -/
theorem partBasesInherited (events : List Event) (id : ScopeId) {c f : Declared}
    (held : (Session.run events).workspace.Holds id c) (part : f ∈ c.parts) {base : TypeRef}
    {i j : Nat}
    (apart : ((Session.run events).workspace.links.current ⟨f.stamp, .base i⟩ base).link = none)
    (whole : ((Session.run events).workspace.links.current ⟨c.stamp, .base j⟩ base).link = none) :
    let w := (Session.run events).workspace
    let answer := fun (t : Declared) (i : Nat) =>
      ((resolveBase id (.ofDeclared t) i base).run w).1.map Definition.unplaced
    let told := fun (t : Declared) =>
      (w.meantBelow id c (w.directivesOf id t) base).map Definition.unplaced
    ((∀ d, answer f i = some d → answer c j = some d) ↔
      (w.meantAnyway id c base).isSome = true ∨ ∀ d, told f = some d → told c = some d) ∧
      (f.body.file = (w.recordOf c).body.file → answer f i = answer c j) := by
  intro w answer told
  obtain ⟨name, arity, single⟩ := partCalled events held part
  have left : answer f i = ((w.meantAnyway id c base).map Definition.unplaced).or (told f) := by
    rw [← Option.map_or]
    exact resolveBaseMeant held name arity apart
  have right : answer c j = ((w.meantAnyway id c base).map Definition.unplaced).or (told c) := by
    rw [← Option.map_or]
    exact resolveBaseMeant held rfl rfl whole
  refine ⟨?_, fun same => ?_⟩
  · rw [left, right]
    cases w.meantAnyway id c base with
    | none =>
      simp only [Option.map_none, Option.none_or, Option.isSome_none, Bool.false_eq_true, false_or]
    | some d => simp
  · have own : w.recordOf f = f := by
      rw [Workspace.recordOf, Declared.mainPart?, single]
      rfl
    have file : w.fileOf (.ofDeclared f) = w.fileOf (.ofDeclared c) := by
      rw [← own] at same
      exact same
    have directives : w.directivesOf id f = w.directivesOf id c := by
      rw [Workspace.directivesOf, Workspace.directivesOf, Workspace.unitOf, Workspace.unitOf, file]
    have alike : told f = told c := by
      simp only [told, directives]
    rw [left, right, alike]

end Partial

section Examples

def partsLoading (order : List Nat) : List Event :=
  [.opens "app", .writes (rowSource 0 [("Lib.Base", none)]),
    .writes { rowSource 1 [("App.Item", some "Base")] with
      usings := [UsingDirective.empty.withNamespace "Lib"] },
    .writes (rowSource 2 [("App.Item", none)])] ++ order.map (.ingests 0 ·)

def partsIn (order : List Nat) : Workspace := (Session.run (partsLoading order)).workspace

def baseNamed (w : Workspace) (t : Declared) : Option String :=
  ((resolveBase 0 (.ofDeclared t) 0 (TypeRef.named "Base")).run w).1.map Definition.fullName

theorem partBasesInheritedRecord : ∃ c f, (partsIn [0, 1, 2]).Holds 0 c ∧ f ∈ c.parts ∧
    baseNamed (partsIn [0, 1, 2]) f = some "Lib.Base" ∧
    ((resolveBase 0 (.ofDeclared f) 0 (TypeRef.named "Base")).run (partsIn [0, 1, 2])).1.map
        Definition.unplaced =
      ((resolveBase 0 (.ofDeclared c) 0 (TypeRef.named "Base")).run (partsIn [0, 1, 2])).1.map
        Definition.unplaced := by
  have found : ((partsIn [0, 1, 2]).findType 0 .deep .exact "App.Item" 0).any (fun c =>
      c.parts.any (fun f => f.body.file == ((partsIn [0, 1, 2]).recordOf c).body.file &&
        baseNamed (partsIn [0, 1, 2]) f == some "Lib.Base")) = true := by decide +kernel
  obtain ⟨c, stored, found⟩ := (Option.any_eq_true _ _).mp found
  obtain ⟨f, part, both⟩ := List.any_eq_true.mp found
  obtain ⟨file, named⟩ := Bool.and_eq_true_iff.mp both
  have held : (partsIn [0, 1, 2]).Holds 0 c :=
    Workspace.foundAgain (Session.storesSound (partsLoading [0, 1, 2])) stored
  have untouched : (partsIn [0, 1, 2]).Untouched := Session.untouched (by decide)
  have unlinked : ∀ site, ((partsIn [0, 1, 2]).links.current site (TypeRef.named "Base")).link =
      none := fun site => by
    rw [untouched.links]
    rfl
  refine ⟨c, f, held, part, eq_of_beq named, ?_⟩
  exact (partBasesInherited (partsLoading [0, 1, 2]) 0 held part (unlinked _) (unlinked _)).2
    (eq_of_beq file)

theorem partBaseLost : ∃ c f, (partsIn [0, 2, 1]).findType 0 .deep .exact "App.Item" 0 = some c ∧
    f ∈ c.parts ∧ f.body.base.map TypeRef.canonical = some "Base" ∧
    c.body.base.map TypeRef.canonical = some "Base" ∧
    baseNamed (partsIn [0, 2, 1]) f = some "Lib.Base" ∧ baseNamed (partsIn [0, 2, 1]) c = none := by
  have found : ((partsIn [0, 2, 1]).findType 0 .deep .exact "App.Item" 0).any (fun c =>
      c.parts.any (fun f => f.body.base.map TypeRef.canonical == some "Base" &&
        baseNamed (partsIn [0, 2, 1]) f == some "Lib.Base") &&
      (c.body.base.map TypeRef.canonical == some "Base" &&
        baseNamed (partsIn [0, 2, 1]) c == none)) = true := by
    decide +kernel
  obtain ⟨c, stored, found⟩ := (Option.any_eq_true _ _).mp found
  obtain ⟨parts, whole⟩ := Bool.and_eq_true_iff.mp found
  obtain ⟨f, part, own⟩ := List.any_eq_true.mp parts
  obtain ⟨written, named⟩ := Bool.and_eq_true_iff.mp own
  obtain ⟨kept, nothing⟩ := Bool.and_eq_true_iff.mp whole
  exact ⟨c, f, stored, part, eq_of_beq written, eq_of_beq kept, eq_of_beq named,
    eq_of_beq nothing⟩

end Examples
end Query
end TypeScope
