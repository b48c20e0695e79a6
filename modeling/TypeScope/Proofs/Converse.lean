import TypeScope.Proofs.SubtypeSearch

/-! The walk over what a type inherits from and the search for subtypes are each other's converse,
in a scope that refers to no other and is not changed once it has been asked. -/
namespace TypeScope

open Query

structure Workspace.Regular (xid : Char → Bool) (w : Workspace) (id : ScopeId) : Prop where
  separate : ∀ c ∈ Text.marks, xid c = false
  names : ∀ t ∈ (w.store id).allTypes, Segmented xid t.fullName
  bases : ∀ t ∈ (w.store id).allTypes, ∀ base ∈ t.body.bases, base.Fit xid t
  resolved : ∀ t ∈ (w.store id).allTypes, ∀ base ∈ t.body.bases.zipIdx,
    ∀ d ∈ ((resolveBase id (.ofDeclared t) base.2 base.1).run w).1, d.placeholder? = none
  aliases : ∀ unit ∈ (w.store id).units.values, ∀ usings ∈ unit.usings,
    ∀ target ∈ usings.aliases.values, ∀ a ∈ target.arguments, a.WellFormed xid

structure Workspace.WellWritten (xid : Char → Bool) (w : Workspace) (id : ScopeId) : Prop where
  separate : ∀ c ∈ Text.marks, xid c = false
  names : ∀ t, w.Own id t → Segmented xid t.fullName
  bases : ∀ t, w.Own id t → ∀ base ∈ t.body.bases, base.Fit xid t
  resolved : ∀ t, w.Own id t → ∀ base ∈ t.body.bases.zipIdx,
    ∀ d ∈ ((resolveBase id (.ofDeclared t) base.2 base.1).run w).1, d.placeholder? = none
  aliases : ∀ unit ∈ (w.store id).units.values, ∀ usings ∈ unit.usings,
    ∀ target ∈ usings.aliases.values, ∀ a ∈ target.arguments, a.WellFormed xid

section Parameters
variable {xid : Char → Bool} {u w : Workspace} {id : ScopeId} {t : Declared}

theorem placeholderFresh (fresh : (w.scope id).cache = Table.empty) (owner : Declared)
    (p : TypeParameter) :
    ∃ made, ((placeholder id owner p).run w).1 = .unbound (.placeholder made) := by
  have unknown : (cached? id (Placeholder.keyFor owner.fullName p.name)).run w = (none, w) :=
    congrArg (fun cache : Table String Definition =>
      (cache.get? (Placeholder.keyFor owner.fullName p.name), w)) fresh
  unfold placeholder
  rw [runThrough unknown]
  exact ⟨_, rfl⟩

theorem parameterFirst (fresh : (w.scope id).cache = Table.empty) {name : String}
    {ds : List Definition} (some_ : ∃ d ∈ ds, d.HasParameter name) :
    ∃ made, ((findFirst (fun d => parameterNamed id d .exact name) ds).run w).1 =
      some (.unbound (.placeholder made)) := by
  induction ds with
  | nil =>
    obtain ⟨d, never, -⟩ := some_
    cases never
  | cons d rest ih =>
    by_cases here : d.HasParameter name
    · obtain ⟨owner, open_, found⟩ := here
      obtain ⟨p, found⟩ := Option.isSome_iff_exists.mp found
      obtain ⟨made, run⟩ := placeholderFresh fresh owner p
      have named : parameterNamed id d .exact name = some <$> placeholder id owner p := by
        unfold parameterNamed
        rw [open_]
        simp only [found, map_eq_pure_bind]
      have first : ((findFirst (fun d => parameterNamed id d .exact name) (d :: rest)).run w).1 =
          some ((placeholder id owner p).run w).1 := by
        rw [findFirst, named]
        rfl
      exact ⟨made, by rw [first, run]⟩
    · rw [findFirst, parameterMissing here, pure_bind]
      refine ih ?_
      obtain ⟨e, mem, has⟩ := some_
      rcases List.mem_cons.mp mem with rfl | later
      · exact absurd has here
      · exact ⟨e, later, has⟩

theorem lookupAtFresh (untouched : u.Untouched) {base : TypeRef} (rankless : base.marks.ranks = [])
    (unlinked : base.link = none) (site : Site)
    (absent : u.offered id base.decoratedName base.arguments.length = none) :
    (lookupAt id site base).run u = (none, u) := by
  have current : u.links.current site base = base := by
    rw [untouched.links]
    exact Links.currentUnwritten site base
  have elementless : base.element? = none := TypeRef.elementNone.mpr rankless
  have typed : (getType id .deep .exact base.decoratedName base.arguments).run u = (none, u) := by
    rw [getTypeStripped, StateT.run_bind, StateT.run_get, pure_bind, offeredAsked, absent]
    rfl
  have believed : (u.linked base).filter (u.isCurrent id) = none := by
    rw [Workspace.linked, unlinked]
    rfl
  have looked : (lookup id base).run u = ((none, base.unlinked), u) := by
    unfold lookup lookupCore
    rw [elementless]
    dsimp only
    rw [StateT.run_bind, StateT.run_get, pure_bind, believed]
    dsimp only
    rw [runThrough typed]
    rfl
  have kept : base.unlinked.link = base.link := unlinked.symm
  unfold lookupAt
  rw [StateT.run_bind, StateT.run_get, pure_bind, current, runThrough looked]
  dsimp only
  rw [if_neg (not_not_intro kept)]
  rfl

theorem flatMeant (untouched : u.Untouched)
    (found : u.findType id .deep .exact t.fullName t.arity = some t) {base : TypeRef}
    (some_ : base.fullName ≠ "") (bare : base.arguments = [])
    (around : u.ParameterAround id t base.fullName) :
    ∃ made after, (resolveFlat id (u.baseRequest id t base)).run u =
      (some (.unbound (.placeholder made)), after) := by
  -- fetched again, the type may get another fragment of record, but no scope changes
  obtain ⟨mainParts, refetched⟩ := refetchCalled found rfl rfl
  have fresh : (Workspace.scope { u with mainParts := mainParts } id).cache = Table.empty :=
    (untouched.scopeOf id).cache
  have lasting : Workspace.lasting { u with mainParts := mainParts } = u.lasting := rfl
  obtain ⟨made, answer⟩ := parameterFirst fresh around
  rw [← outwardLasting lasting] at answer
  have first : ((fromParameters id (u.baseRequest id t base) (some (.ofDeclared t))).run
      { u with mainParts := mainParts }).1 = some (.unbound (.placeholder made)) := by
    have empty : (u.baseRequest id t base).arguments.isEmpty = true := List.isEmpty_iff.mpr bare
    unfold fromParameters
    dsimp only
    rw [if_pos empty]
    exact answer
  have named : (u.baseRequest id t base).name ≠ "" := some_
  have calling : (u.baseRequest id t base).calling = some (.ofDeclared t) := rfl
  unfold resolveFlat resolveWith
  rw [if_neg named, calling]
  dsimp only
  rw [runThrough refetched, firstOf, runThrough (Prod.ext first rfl)]
  exact ⟨made, _, rfl⟩

theorem parameterMeant (untouched : u.Untouched)
    (found : u.findType id .deep .exact t.fullName t.arity = some t) {base : TypeRef}
    (rankless : base.marks.ranks = []) (unlinked : base.link = none) (i : Nat)
    (absent : u.offered id base.decoratedName base.arguments.length = none)
    (some_ : base.fullName ≠ "") (bare : base.arguments = [])
    (around : u.ParameterAround id t base.fullName) :
    ∃ made, ((resolveBase id (.ofDeclared t) i base).run u).1 =
      some (.unbound (.placeholder made)) := by
  obtain ⟨made, after, resolved⟩ := flatMeant untouched found some_ bare around
  have context : Workspace.writtenIn (.ofDeclared t) = .ofDeclared t := rfl
  unfold resolveBase
  dsimp only
  rw [runThrough (lookupAtFresh untouched rankless unlinked _ absent)]
  dsimp only
  rw [StateT.run_bind, StateT.run_get, pure_bind, context]
  exact ⟨made, congrArg Prod.fst (runThrough resolved)⟩

end Parameters

section Asking
variable {xid : Char → Bool} {u w : Workspace} {id : ScopeId} {t : Declared}
  {hosts : List Definition}

section Loaded
variable {events : List Event} (loading : ∀ e ∈ events, e.loads = true)
  (loaded : u = (Session.run events).workspace)
include loading loaded

theorem Workspace.storedOnce {i j : ScopeId} {t t' : Declared} {name name' : String}
    (mem : t ∈ (u.store i).candidates name) (memToo : t' ∈ (u.store j).candidates name')
    (same : t.stamp = t'.stamp) : t = t' := by
  subst loaded
  exact (Session.minted loading).apart i j name name' t mem t' memToo same

theorem Workspace.WellWritten.charted (written : u.WellWritten xid id)
    (opened : id < u.scopes.length) : u.Charted xid id := by
  have untouched : u.Untouched := loaded ▸ Session.untouched loading
  have sound : u.Stores Store.Sound := loaded ▸ Session.storesSound events
  obtain ⟨dated, -, minted, -⟩ := Session.minted loading
  rw [← loaded] at dated minted
  refine ⟨opened, untouched.links, untouched.targets, (untouched.scopeOf id).cache,
    (untouched.scopeOf id).subtypes, fun name arity t found => foundNamed sound found,
    fun t t' own own' same => ?_, fun t own => ?_, written.separate, written.names, written.bases,
    written.aliases, ?_⟩
  · obtain ⟨i, -, mem⟩ := own.candidate
    obtain ⟨j, -, mem'⟩ := own'.candidate
    exact Workspace.storedOnce loading loaded mem mem' same
  · obtain ⟨i, -, mem⟩ := own.candidate
    exact ((minted.at (Store.mintedEmpty _ _) i).origin _ t mem).elim (dated t) fun made => made.1
  · intro t own base mem absent some_ bare around
    obtain ⟨i, at_⟩ := List.mem_iff_getElem?.mp mem
    have fit := written.bases t own base mem
    obtain ⟨made, resolved⟩ := parameterMeant untouched own fit.rankless fit.unlinked i absent
      some_ bare around
    have listed : (base, i) ∈ t.body.bases.zipIdx := List.mem_zipIdx_iff_getElem?.mpr at_
    have never := written.resolved t own (base, i) listed _ resolved
    cases never

end Loaded

theorem Workspace.Regular.plain (regular : u.Regular xid id) {events : List Event}
    (loading : ∀ e ∈ events, e.loads = true) (loaded : u = (Session.run events).workspace)
    (opened : id < u.scopes.length) (alone : (u.scope id).references = []) : u.Plain xid id := by
  have stores : u.Stores Store.Sound := loaded ▸ Session.storesSound events
  have minted := (Session.minted loading).stores
  rw [← loaded] at minted
  have finds : ∀ t, u.Stored id t ↔ u.Own id t := fun t => by
    rw [Workspace.Own, findAlone alone]
    refine ⟨fun stored => ?_, fun own => Store.candidatesMem (Store.findMem own).1⟩
    exact (minted.at (Store.mintedEmpty _ _) id).finds (stores.at Store.soundEmpty id) stored
  have written : u.WellWritten xid id :=
    ⟨regular.separate, fun t own => regular.names t ((finds t).mpr own),
      fun t own => regular.bases t ((finds t).mpr own),
      fun t own => regular.resolved t ((finds t).mpr own), regular.aliases⟩
  exact ⟨written.charted loading loaded opened, alone, finds⟩

def Question.Follows (w : Workspace) (id : ScopeId) : Question → Prop
  | ancestry d | ancestryTo _ d | subtypes _ _ d => ∃ t ∈ (w.store id).allTypes, d = .ofDeclared t
  | _ => False

def Workspace.asked (w : Workspace) (id : ScopeId) (questions : List Question) : Workspace :=
  questions.foldl (fun w q => q.after id w) w

theorem Workspace.askedLast (w : Workspace) (id : ScopeId) (questions : List Question)
    (q : Question) : w.asked id (questions ++ [q]) = q.after id (w.asked id questions) := by
  rw [asked, List.foldl_append]
  rfl

theorem followsCoherent (plain : u.Plain xid id) (coherent : Coherent xid u id hosts w)
    {q : Question} (follows : q.Follows u id) : Coherent xid u id hosts (q.after id w) := by
  cases q with
  | ancestry d =>
    obtain ⟨t, stored, rfl⟩ := follows
    exact (ancestryTold plain coherent stored).1
  | ancestryTo count d =>
    obtain ⟨t, stored, rfl⟩ := follows
    exact (ancestryToTold plain coherent stored count).1
  | subtypes deep namespaces d =>
    obtain ⟨t, stored, rfl⟩ := follows
    exact (subtypesTold plain coherent stored deep namespaces).1
  | _ => exact follows.elim

theorem askedCoherent (plain : u.Plain xid id) {questions : List Question}
    (follow : ∀ q ∈ questions, q.Follows u id) : Coherent xid u id [] (u.asked id questions) := by
  induction questions using List.reverseRecOn with
  | nil => exact plain.coherent
  | append_singleton questions q ih =>
    rw [Workspace.askedLast]
    exact followsCoherent plain (ih fun other mem => follow other (List.mem_append_left _ mem))
      (follow q (List.mem_append_right _ List.mem_cons_self))

/-- Whatever walks and searches came before either: the walk over a stored type meets the decorated
name of another if and only if the search for the subtypes of the other finds the first. -/
theorem ancestryConverse (events : List Event) (loading : ∀ e ∈ events, e.loads = true)
    {w : Workspace} (loaded : w = (Session.run events).workspace) {id : ScopeId}
    (opened : id < w.scopes.length) (alone : (w.scope id).references = []) {xid : Char → Bool}
    (regular : w.Regular xid id) {before beforeToo : List Question}
    (follow : ∀ q ∈ before, q.Follows w id) (followToo : ∀ q ∈ beforeToo, q.Follows w id)
    {s t : Declared} (here : s ∈ (w.store id).allTypes) (there : t ∈ (w.store id).allTypes) :
    (∃ d ∈ ((ancestry id (.ofDeclared s)).run (w.asked id before)).1,
      d.decoratedName = t.decoratedName) ↔
    .ofDeclared s ∈ ((subtypes id true none (.ofDeclared t)).run (w.asked id beforeToo)).1 := by
  have plain : w.Plain xid id := regular.plain loading loaded opened alone
  obtain ⟨-, -, met⟩ := ancestryTold plain (askedCoherent plain follow) here
  obtain ⟨-, -, found⟩ := subtypesTold plain (askedCoherent plain followToo) there true none
  rw [found rfl rfl s here, ← met t there, List.mem_map]

end Asking

section Examples

def genericSource (types : List (String × List String × Option TypeRef)) : Source where
  file := ⟨0⟩
  fileName := ""
  usings := []
  types := types.map fun (name, parameters, base) =>
    { Blueprint.bare name .classType with
      typeParameters := parameters.map (⟨·, []⟩)
      base := base }

def loadedWith (types : List (String × List String × Option TypeRef)) : List Event :=
  [.opens "app", .writes (genericSource types), .ingests 0 0]

def boxedTypes : List (String × List String × Option TypeRef) :=
  [("Root", [], none), ("Box", ["T"], some (TypeRef.named "Root")),
    ("Item", [], some (TypeRef.generic "Box" [TypeRef.named "Root"]))]

def boxedItems : Workspace := (Session.run (loadedWith boxedTypes)).workspace

theorem TypeRef.fitBare {xid : Char → Bool} {t : Declared} {base : TypeRef}
    (written : base.marks.ranks = [] ∧ base.outer.length = 0 ∧ base.link = none ∧
      ∀ p ∈ t.body.typeParameters, base.bareName? ≠ some p.name)
    (named : ∀ a ∈ base.arguments, Identifier xid (a.bareName?.getD "")) : base.Fit xid t := by
  obtain ⟨ranks, outer, link, foreign⟩ := written
  refine ⟨ranks, fun p inside => ?_, fun a given => bareFormed (named a given), link, foreign⟩
  rw [List.length_eq_zero_iff.mp outer] at inside
  cases inside

theorem boxedRegular : boxedItems.Regular Text.isIdentifierChar 0 where
  separate _ mark := Text.marksSeparate mark
  names := by decide +kernel
  bases := by
    have named : ∀ t ∈ (boxedItems.store 0).allTypes, ∀ base ∈ t.body.bases, ∀ a ∈ base.arguments,
        Identifier Text.isIdentifierChar (a.bareName?.getD "") := by decide +kernel
    have rankless : ∀ t ∈ (boxedItems.store 0).allTypes, ∀ base ∈ t.body.bases,
        base.marks.ranks = [] ∧ base.outer.length = 0 ∧ base.link = none ∧
          ∀ p ∈ t.body.typeParameters, base.bareName? ≠ some p.name := by decide +kernel
    exact fun t mem base written =>
      TypeRef.fitBare (rankless t mem base written) (named t mem base written)
  resolved := by decide +kernel
  aliases := by
    intro unit mem usings written
    have none_ : ∀ unit ∈ (boxedItems.store 0).units.values, unit.usings.length = 0 := by
      decide +kernel
    rw [List.length_eq_zero_iff.mp (none_ unit mem)] at written
    cases written

theorem ancestryConverseBoxed : ∃ s ∈ (boxedItems.store 0).allTypes,
    ∃ t ∈ (boxedItems.store 0).allTypes, s.decoratedName = "Item" ∧ t.decoratedName = "Root" ∧
      ((∃ d ∈ ((ancestry 0 (.ofDeclared s)).run (boxedItems.asked 0 [])).1,
        d.decoratedName = t.decoratedName) ↔
      .ofDeclared s ∈ ((subtypes 0 true none (.ofDeclared t)).run
        (boxedItems.asked 0 [.ancestry (.ofDeclared s)])).1) ∧
      ((ancestry 0 (.ofDeclared s)).run boxedItems).1.map Definition.decoratedName =
        ["Item", "Box\x601", "Root"] := by
  have third : 2 < (boxedItems.store 0).allTypes.length := by decide +kernel
  have first : 0 < (boxedItems.store 0).allTypes.length := by decide +kernel
  have item := List.getElem_mem third
  refine ⟨_, item, _, List.getElem_mem first, rfl, rfl, ?_, rfl⟩
  refine ancestryConverse (loadedWith boxedTypes) (by decide) rfl (by decide) rfl boxedRegular
    (fun q never => by cases never) (fun q mem => ?_) item (List.getElem_mem first)
  rw [List.mem_singleton.mp mem]
  exact ⟨_, item, rfl⟩

def ownParameterTypes : List (String × List String × Option TypeRef) :=
  [("T", [], none), ("Int", [], none), ("Box", ["T"], some (TypeRef.named "T")),
    ("Item", [], some (TypeRef.generic "Box" [TypeRef.named "Int"]))]

def ownParameter : Workspace := (Session.run (loadedWith ownParameterTypes)).workspace

theorem ancestryAstray : ∃ s ∈ (ownParameter.store 0).allTypes,
    ∃ t ∈ (ownParameter.store 0).allTypes,
      (ownParameter.scope 0).references = [] ∧ ownParameter.Untouched ∧
      (∀ r ∈ (ownParameter.store 0).allTypes, Segmented Text.isIdentifierChar r.fullName ∧
        (∀ base ∈ r.body.bases, base.marks.ranks = [] ∧ ∀ p ∈ base.outer, p.arguments.length = 0) ∧
        ∀ base ∈ r.body.bases.zipIdx,
          ∀ d ∈ ((resolveBase 0 (.ofDeclared r) base.2 base.1).run ownParameter).1,
            d.placeholder? = none) ∧
      .ofDeclared s ∈ ((subtypes 0 true none (.ofDeclared t)).run ownParameter).1 ∧
      ∀ d ∈ ((ancestry 0 (.ofDeclared s)).run ownParameter).1,
        d.decoratedName ≠ t.decoratedName := by
  have item : 3 < (ownParameter.store 0).allTypes.length := by decide +kernel
  have own : 0 < (ownParameter.store 0).allTypes.length := by decide +kernel
  have untouched : ownParameter.Untouched := Session.untouched (by decide)
  have met : ((ancestry 0 (.ofDeclared (ownParameter.store 0).allTypes[3])).run ownParameter).1.map
      Definition.decoratedName = ["Item", "Box\x601", "Int"] := rfl
  refine ⟨_, List.getElem_mem item, _, List.getElem_mem own, rfl, untouched, by decide +kernel, ?_,
    fun d mem same => ?_⟩
  · exact List.mem_cons_of_mem _ (List.mem_cons_of_mem _ List.mem_cons_self)
  · have named := List.mem_map_of_mem (f := Definition.decoratedName) mem
    have other : (ownParameter.store 0).allTypes[0].decoratedName = "T" := rfl
    rw [met, same, other] at named
    exact absurd named (by decide)

def collidingTypes : List (String × List String × Option TypeRef) :=
  [("Base", ["T"], none), ("Base", ["T", "U"], none),
    ("Box", ["T"], some (TypeRef.generic "Base" [TypeRef.named "T"])),
    ("Two", [], some (TypeRef.generic "Base" [TypeRef.named "A", TypeRef.named "B.C"])),
    ("Item", [], some (TypeRef.generic "Box" [TypeRef.named "A,B.C"]))]

def colliding : Workspace := (Session.run (loadedWith collidingTypes)).workspace

theorem ancestryCollided : ∃ s ∈ (colliding.store 0).allTypes, ∃ t ∈ (colliding.store 0).allTypes,
    ((subtypes 0 true none (.ofDeclared t)).run colliding).1.map Definition.decoratedName =
      ["Base\x602", "Two"] ∧
    ((ancestry 0 (.ofDeclared s)).run
      (colliding.asked 0 [.subtypes true none (.ofDeclared t)])).1.map Definition.decoratedName =
        ["Item", "Box\x601", "Base\x602"] := by
  have item := @List.getElem_mem _ (colliding.store 0).allTypes 4 (by decide +kernel)
  have base := @List.getElem_mem _ (colliding.store 0).allTypes 1 (by decide +kernel)
  exact ⟨_, item, _, base, by decide +kernel, by decide +kernel⟩

end Examples

end TypeScope
