import TypeScope.Proofs.PrivateMembers
import TypeScope.Proofs.Traces
import Mathlib.Logic.Relation

/-! What code in a nested type sees of what the type around it sees. All that goes by names and by
storage comes along: a type nested at any depth is named below the outer type and stored beside it.
What the outer type inherits does not come along, since the walk starts from the calling type. -/
namespace TypeScope

def Declared.Traced (units : List CompilationUnit) (d : Declared) : Prop :=
  ∃ depth stamp fragments origin, Declared.uniteTo depth stamp fragments = some origin ∧
    origin.bare = d.bare ∧ ∀ f ∈ fragments, f ∈ Store.declarations units ∧
      f.fullName = origin.fullName ∧ f.arity = origin.arity

namespace Store

def Shadows (units : List CompilationUnit) (s : Store) : Prop :=
  (∀ u ∈ units, u.Placed) ∧ ∃ loaded : Store, Mirrors units loaded ∧ loaded.bare = s.bare

theorem Shadows.replaces {units : List CompilationUnit} {s : Store} (shadows : s.Shadows units)
    {file : FileId} {unit : Option CompilationUnit} (own : ∀ u ∈ unit, u.file = file)
    (placed : ∀ u ∈ unit, u.Placed) (links : Links) (stamp : Stamp) :
    ((s.settled links).replaceFile stamp file unit).1.Shadows (replaced units file unit) := by
  obtain ⟨all, loaded, mirrors, alike⟩ := shadows
  refine ⟨fun u mem => ?_, (loaded.replaceFile stamp file unit).1,
    replaceMirrors mirrors own stamp, ?_⟩
  · rcases List.mem_append.mp mem with old | new
    · exact all u (List.mem_filter.mp old).1
    · exact placed u (Option.mem_toList.mp new)
  · rw [← (replaceBare loaded stamp stamp file unit).1, alike, ← s.settledBare links,
      (replaceBare (s.settled links) stamp stamp file unit).1]

theorem shadowed (events : List Event) :
    (Session.run events).workspace.Stores (fun s => ∃ units, s.Shadows units) :=
  Session.storesKept ⟨[], fun _ mem => (List.not_mem_nil mem).elim, empty, emptyMirrors, rfl⟩
    (fun links stamp ⟨_, shadows⟩ _ own placed => ⟨_, shadows.replaces own placed links stamp⟩)
    events

section Shadowed
variable {units : List CompilationUnit} {s : Store} (shadows : s.Shadows units)
include shadows

theorem storedTraced (sound : s.Sound) {t : Declared} (stored : t ∈ s.allTypes) :
    t.Traced units := by
  obtain ⟨-, loaded, mirrors, alike⟩ := shadows
  have listed : t.bare ∈ (loaded.candidates t.fullName).map Declared.bare := by
    rw [← candidatesBare, alike, candidatesBare]
    exact List.mem_map_of_mem (sound.stored stored)
  obtain ⟨origin, candidate, same⟩ := List.mem_map.mp listed
  obtain ⟨named, own, united⟩ := (mirrors.candidates t.fullName).2 origin candidate
  refine ⟨_, own, _, origin, united, same, fun f mem => ?_⟩
  obtain ⟨declared, fullName, arity⟩ := memDeclarationsOf.mp mem
  exact ⟨declared, fullName.trans named.symm, arity⟩

theorem tracedFound {d : Declared} (traced : d.Traced units) :
    ∃ t, s.find d.fullName d.arity = some t := by
  obtain ⟨-, loaded, mirrors, alike⟩ := shadows
  obtain ⟨depth, stamp, fragments, origin, united, same, each⟩ := traced
  obtain ⟨f, mem, -⟩ := Declared.uniteLike united
  obtain ⟨declared, fullName, arity⟩ := each f mem
  have here : d.fullName = origin.fullName ∧ d.arity = origin.arity := by
    rw [← d.bareName, ← d.bareArity, ← same, Declared.bareName, Declared.bareArity]
    exact ⟨rfl, rfl⟩
  obtain ⟨t, found⟩ := mirrors.found.mpr ⟨f, declared, fullName, arity⟩
  have kept : (s.find d.fullName d.arity).map Declared.bare = some t.bare := by
    rw [← findBare, ← alike, findBare, here.1, here.2, found]
    rfl
  exact Option.isSome_iff_exists.mp (by rw [← Option.isSome_map, kept]; rfl)

theorem nestedTraced {e n : Declared} (traced : e.Traced units) (inside : n ∈ e.nested) :
    n.Traced units ∧ n.body.outer = some e.fullName := by
  obtain ⟨depth, stamp, fragments, origin, united, same, each⟩ := traced
  have listed : n.bare ∈ origin.nested.map Declared.bare := by
    rw [← Declared.bareNested, same, Declared.bareNested]
    exact List.mem_map_of_mem inside
  obtain ⟨inner, mem, alike⟩ := List.mem_map.mp listed
  obtain ⟨depth', own, group, made, members⟩ := Declared.uniteNests united mem
  have known : ∀ m ∈ group, m ∈ declarations units ∧ m.body.outer = some origin.fullName := by
    intro m here
    obtain ⟨f, around, nested⟩ := List.mem_flatMap.mp (members m here).1
    obtain ⟨declared, fullName, arity⟩ := each f around
    exact nestedDeclared shadows.1 (List.mem_flatMap.mpr
      ⟨f, memDeclarationsOf.mpr ⟨declared, fullName, arity⟩, nested⟩)
  refine ⟨⟨depth', own, group, inner, made, alike, fun m here =>
    ⟨(known m here).1, (members m here).2⟩⟩, ?_⟩
  obtain ⟨m, here, -, -, outer⟩ := Declared.uniteLike made
  have named : n.body.outer = inner.body.outer := by
    have outers := congrArg (fun d : Declared => d.body.outer) alike
    rw [Declared.bareBody, Declared.bareBody] at outers
    exact outers.symm
  rw [named, outer, (known m here).2, ← e.bareName, ← same, Declared.bareName]

end Shadowed

def StandsIn (s : Store) (outer inner : Declared) : Prop :=
  ∃ n ∈ outer.nested, n.called inner.fullName inner.arity = true ∧
    (inner = n ∨ inner ∈ s.allTypes)

def NestedIn (s : Store) : Declared → Declared → Prop := Relation.TransGen s.StandsIn

section Nested
variable {units : List CompilationUnit} {s : Store} (shadows : s.Shadows units) (sound : s.Sound)
include shadows sound

theorem StandsIn.traced {outer inner : Declared} (traced : outer.Traced units)
    (stands : s.StandsIn outer inner) :
    inner.Traced units ∧ ∃ name, inner.fullName = outer.fullName ++ "." ++ name := by
  obtain ⟨n, inside, called, which⟩ := stands
  obtain ⟨own, below⟩ := nestedTraced shadows traced inside
  have named : inner.fullName = outer.fullName ++ "." ++ n.name :=
    (Declared.calledIff.mp called).1.symm.trans (Declared.nameBelow below)
  refine ⟨?_, n.name, named⟩
  rcases which with rfl | stored
  · exact own
  · exact storedTraced shadows sound stored

theorem NestedIn.named {outer inner : Declared} (stored : outer ∈ s.allTypes)
    (nested : s.NestedIn outer inner) :
    Dotted.isBelow inner.fullName outer.fullName = true ∧
      ∃ t, s.find inner.fullName inner.arity = some t := by
  have told : inner.Traced units ∧ Dotted.isBelow inner.fullName outer.fullName = true := by
    induction nested with
    | single stands =>
      obtain ⟨traced, name, named⟩ :=
        stands.traced shadows sound (storedTraced shadows sound stored)
      exact ⟨traced, named ▸ Dotted.belowJoined (.inl rfl)⟩
    | tail _ stands ih =>
      obtain ⟨traced, name, named⟩ := stands.traced shadows sound ih.1
      exact ⟨traced, named ▸ Dotted.belowJoined (.inr ih.2)⟩
  exact ⟨told.2, tracedFound shadows told.1⟩

end Nested
end Store

def Accessibility.restsOnHeirs (stored : Bool) : Accessibility → Bool
  | .protectedAccess => true
  | .protectedAndInternal => true
  | .protectedOrInternal => !stored
  | _ => false

namespace Query
variable {id : ScopeId} {ty calling outer inner : Definition} {start u v w : Workspace}

theorem sameScopeLasting (same : u.lasting = w.lasting) (ty calling : Definition) :
    u.sameScope id ty calling = w.sameScope id ty calling := by
  rw [Workspace.sameScope, Workspace.storesHere, Workspace.storesHere,
    Workspace.findTypeLasting same, Workspace.findTypeLasting same]
  rfl

theorem derivedLasting (same : u.lasting = w.lasting) (ty calling : Definition) :
    ((isDerived id ty calling).run u).2.lasting = w.lasting :=
  ((lastingFrame w).isAccessible id ty .protectedAccess (some calling) u same).1

theorem eitherRun : (isAccessible id ty .protectedOrInternal (some calling)).run u =
    (((isDerived id ty calling).run u).1 ||
        ((isDerived id ty calling).run u).2.sameScope id ty calling,
      ((isDerived id ty calling).run u).2) := by
  obtain ⟨⟨derived, after⟩, run⟩ : ∃ answer, (isDerived id ty calling).run u = answer := ⟨_, rfl⟩
  have step : (isAccessible id ty .protectedOrInternal (some calling)).run u =
      (if derived then pure true else (do return (← get).sameScope id ty calling) :
        Query Bool).run after := runThrough run
  rw [step, run]
  cases derived <;> rfl

theorem bothRun : (isAccessible id ty .protectedAndInternal (some calling)).run u =
    (((isDerived id ty calling).run u).1 &&
        ((isDerived id ty calling).run u).2.sameScope id ty calling,
      ((isDerived id ty calling).run u).2) := by
  obtain ⟨⟨derived, after⟩, run⟩ : ∃ answer, (isDerived id ty calling).run u = answer := ⟨_, rfl⟩
  have step : (isAccessible id ty .protectedAndInternal (some calling)).run u =
      (if derived then (do return (← get).sameScope id ty calling) else pure false :
        Query Bool).run after := runThrough run
  rw [step, run]
  cases derived <;> rfl

theorem accessibleNested (stored : w.storesHere id outer = true)
    (storedToo : w.storesHere id inner = true)
    (inside : outer.isInside ty = true → inner.isInside ty = true) (same : u.lasting = w.lasting)
    (same' : v.lasting = w.lasting) {access : Accessibility}
    (accessible : ((isAccessible id ty access (some outer)).run u).1 = true) :
    ((isAccessible id ty access (some inner)).run v).1 = true ∨
      access.restsOnHeirs (w.storesHere id ty) = true ∧ ((isDerived id ty inner).run v).1 = false := by
  have scope : ∀ c (x : Workspace), w.storesHere id c = true → x.lasting = w.lasting →
      x.sameScope id ty c = w.storesHere id ty := fun c x here later => by
    rw [sameScopeLasting later, Workspace.sameScope, here, Bool.and_true]
  have scopeThen : ∀ c (x : Workspace), w.storesHere id c = true → x.lasting = w.lasting →
      ((isDerived id ty c).run x).2.sameScope id ty c = w.storesHere id ty := fun c x here later =>
    scope c _ here (derivedLasting later ty c)
  have heir : ((isDerived id ty inner).run v).1 = true ∨ ((isDerived id ty inner).run v).1 = false :=
    Bool.eq_false_or_eq_true _
  cases access with
  | publicAccess => exact .inl rfl
  | privateAccess => exact .inl (inside accessible)
  | internalAccess =>
    have here : u.sameScope id ty outer = true := accessible
    rw [scope outer u stored same, ← scope inner v storedToo same'] at here
    exact .inl here
  | protectedAccess => exact heir.imp_right fun apart => ⟨rfl, apart⟩
  | protectedAndInternal =>
    refine heir.imp (fun derived => ?_) fun apart => ⟨rfl, apart⟩
    rw [bothRun, scopeThen outer u stored same, Bool.and_eq_true] at accessible
    rw [bothRun, scopeThen inner v storedToo same', derived, accessible.2]
    rfl
  | protectedOrInternal =>
    cases here : w.storesHere id ty with
    | true =>
      left
      rw [eitherRun, scopeThen inner v storedToo same', here, Bool.or_true]
    | false =>
      refine heir.imp (fun derived => ?_) fun apart => ⟨rfl, apart⟩
      rw [eitherRun, derived, Bool.true_or]

end Query

theorem askedLasting (w : Workspace) (questions : List (ScopeId × Question)) :
    (asked w questions).lasting = w.lasting := by
  induction questions generalizing w with
  | nil => rfl
  | cons q rest ih => exact (ih _).trans (q.2.lasting q.1 w)

theorem storesHereFound {w : Workspace} {id : ScopeId} {d t : Declared}
    (found : (w.store id).find d.fullName d.arity = some t) :
    w.storesHere id (.ofDeclared d) = true := by
  have looked : w.findType id .shallow .exact d.fullName d.arity = some t := by
    rw [Workspace.findType, Workspace.consulted, List.findSome?_cons, Store.lookupExact, found]
  have named : w.findType id .shallow .exact (Definition.ofDeclared d).fullName
      (Definition.ofDeclared d).arity = some t := looked
  rw [Workspace.storesHere, named]
  rfl

theorem Definition.insideBelow {ty : Definition} {outer inner : Declared}
    (below : Dotted.isBelow inner.fullName outer.fullName = true)
    (inside : (Definition.ofDeclared outer).isInside ty = true) :
    (Definition.ofDeclared inner).isInside ty = true := by
  rw [Definition.isInside, Bool.or_eq_true, beq_iff_eq] at inside ⊢
  refine .inr ?_
  rcases inside with named | further
  · exact named ▸ below
  · exact Dotted.belowTrans below further

/-- Code in a nested type sees the members that the outer type sees, at any depth and whatever was
asked before, if all members have a known accessibility. Left out are those that are protected, or
protected and internal, or protected or internal in a type that the scope does not store, unless the
nested type itself stands in the type of the member or inherits from it: what the outer type sees as
an heir only, its nested types do not see. -/
theorem nestedVisible (events : List Event) {id : ScopeId} {outer inner : Declared}
    (stored : outer ∈ ((Session.run events).workspace.store id).allTypes)
    (nested : ((Session.run events).workspace.store id).NestedIn outer inner) (ty : Definition)
    (known : ∀ m ∈ ty.body.members, ∃ access, m.modifiers.accessibility = .ok access)
    (before after : List (ScopeId × Question)) :
    let w := (Session.run events).workspace
    ∃ seen seen',
      ((Query.visibleMembers id ty (some (.ofDeclared outer))).run (asked w before)).1 = .ok seen ∧
      ((Query.visibleMembers id ty (some (.ofDeclared inner))).run (asked w after)).1 = .ok seen' ∧
      ∀ m ∈ seen, m ∈ seen' ∨
        (∃ access, m.modifiers.accessibility = .ok access ∧
          access.restsOnHeirs (w.storesHere id ty) = true) ∧
        ∃ first rest, ty.body.members = first ++ m :: rest ∧
          ((Query.isDerived id ty (.ofDeclared inner)).run
            ((Query.visibleAmong id ty (some (.ofDeclared inner)) first).run
              (asked w after)).2).1 = false := by
  intro w
  have sound : (w.store id).Sound := (Session.storesSound events).at Store.soundEmpty id
  obtain ⟨units, shadows⟩ := (Store.shadowed events).at
    ⟨[], fun _ mem => (List.not_mem_nil mem).elim, Store.empty, Store.emptyMirrors, rfl⟩ id
  obtain ⟨below, t, found⟩ := nested.named shadows sound stored
  obtain ⟨t', found'⟩ := Store.tracedFound shadows (Store.storedTraced shadows sound stored)
  have answers : ∀ (c : Declared) (v : Workspace), ∃ members,
      ((Query.visibleMembers id ty (some (.ofDeclared c))).run v).1 = .ok members := fun c v =>
    Query.visibleKnown ty.body.members v known
  obtain ⟨seen, answer⟩ := answers outer (asked w before)
  obtain ⟨seen', answer'⟩ := answers inner (asked w after)
  refine ⟨seen, seen', answer, answer', fun m mem => ?_⟩
  have outerLeaves : ∀ access, Query.Leaves (fun v => v.lasting = w.lasting)
      (Query.isAccessible id ty access (some (.ofDeclared outer))) := fun access =>
    (lastingFrame w).isAccessible id ty access (some (.ofDeclared outer))
  obtain ⟨own, access, u, accessibility, same, accessible⟩ :=
    (Query.visibleMember outerLeaves _ _ (askedLasting w before) answer m).1 mem
  obtain ⟨first, rest, split⟩ := List.append_of_mem own
  have same' := ((lastingFrame w).visibleAmong id ty (some (.ofDeclared inner)) first _
    (askedLasting w after)).1
  rw [Query.visibleMembers, split] at answer'
  refine (Query.accessibleNested (storesHereFound found') (storesHereFound found)
    (Definition.insideBelow below) same same' accessible).imp
    (fun visible => Query.visibleAt first answer' accessibility visible)
    fun ⟨rests, heirless⟩ => ⟨⟨access, accessibility, rests⟩, first, rest, split, heirless⟩

section Families

def familyLoading : List Event :=
  [.opens "app",
    .writes ⟨⟨0⟩, "Family.cs", [],
      [{ Blueprint.bare "App.Base" .classType with
          members := [{ Member.field "family" (TypeRef.named "System.Int32") with
            modifiers := Modifiers.protectedBit }] },
        { Blueprint.bare "App.C" .classType with
          base := some (TypeRef.named "App.Base")
          members := [Member.field "own" (TypeRef.named "System.Int32")]
          nested := [{ Blueprint.bare "App.C.N" .classType with
            nested := [Blueprint.bare "App.C.N.M" .classType] }] }]⟩,
    .ingests 0 0]

def family : Workspace := (Session.run familyLoading).workspace

theorem seenByAnswer {w : Workspace} {ty calling : Declared} {seen : List Member}
    (answer : ((Query.visibleMembers 0 (.ofDeclared ty) (some (.ofDeclared calling))).run w).1 =
      .ok seen) : seenBy w ty calling = some (seen.map fun m => (m.name, m.modifiers)) := by
  rw [seenBy, answer]
  rfl

theorem nestedVisibleTwice : ∃ outer ∈ (family.store 0).allTypes,
    ∃ inner ∈ (family.store 0).allTypes,
      outer.fullName = "App.C" ∧ inner.fullName = "App.C.N.M" ∧
      (family.store 0).NestedIn outer inner ∧ ∃ seen',
        ((Query.visibleMembers 0 (.ofDeclared outer) (some (.ofDeclared inner))).run
          family).1 = .ok seen' ∧ ∃ m ∈ seen', m.name = "own" := by
  obtain ⟨outer, stored, middle, storedMiddle, inner, storedInner, name, name', first, second, own,
      all⟩ :
      ∃ outer ∈ (family.store 0).allTypes, ∃ middle ∈ (family.store 0).allTypes,
      ∃ inner ∈ (family.store 0).allTypes,
        outer.fullName = "App.C" ∧ inner.fullName = "App.C.N.M" ∧
        (∃ n ∈ outer.nested, n.called middle.fullName middle.arity = true) ∧
        (∃ n ∈ middle.nested, n.called inner.fullName inner.arity = true) ∧
        seenBy family outer outer = some [("own", Modifiers.empty)] ∧
        ∀ m ∈ outer.body.members, m.modifiers = Modifiers.empty := by decide +kernel
  have nested : (family.store 0).NestedIn outer inner :=
    .tail (.single (by
      obtain ⟨n, inside, called⟩ := first
      exact ⟨n, inside, called, .inr storedMiddle⟩)) (by
      obtain ⟨n, inside, called⟩ := second
      exact ⟨n, inside, called, .inr storedInner⟩)
  obtain ⟨seen, seen', answer, answer', kept⟩ := nestedVisible familyLoading stored nested
    (.ofDeclared outer) (fun m mem => ⟨.privateAccess, by rw [all m mem]; rfl⟩) [] []
  have listed : seen.map (fun m => (m.name, m.modifiers)) = [("own", Modifiers.empty)] :=
    Option.some.inj ((seenByAnswer answer).symm.trans own)
  obtain ⟨m, mem, fields⟩ : ∃ m ∈ seen, (m.name, m.modifiers) = ("own", Modifiers.empty) :=
    List.mem_map.mp (listed ▸ List.mem_cons_self)
  obtain ⟨called, flags⟩ := Prod.mk.inj fields
  refine ⟨outer, stored, inner, storedInner, name, name', nested, seen', answer', m, ?_, called⟩
  refine (kept m mem).resolve_right fun ⟨⟨access, accessibility, rests⟩, _⟩ => ?_
  rw [flags] at accessibility
  cases accessibility
  cases rests

theorem familyHidden : ∃ base ∈ (family.store 0).allTypes, base.fullName = "App.Base" ∧
    (∀ m ∈ base.body.members, ∃ access, m.modifiers.accessibility = .ok access) ∧
    ∃ outer ∈ (family.store 0).allTypes, ∃ inner ∈ (family.store 0).allTypes,
      (family.store 0).NestedIn outer inner ∧
      seenBy family base outer = some [("family", Modifiers.protectedBit)] ∧
      seenBy family base inner = some [] := by
  obtain ⟨base, stored, name, all, outer, storedOuter, inner, storedInner, ⟨n, inside, called⟩,
      seen⟩ :
      ∃ base ∈ (family.store 0).allTypes, base.fullName = "App.Base" ∧
      (∀ m ∈ base.body.members, m.modifiers = Modifiers.protectedBit) ∧
      ∃ outer ∈ (family.store 0).allTypes, ∃ inner ∈ (family.store 0).allTypes,
        (∃ n ∈ outer.nested, n.called inner.fullName inner.arity = true) ∧
        seenBy family base outer = some [("family", Modifiers.protectedBit)] ∧
        seenBy family base inner = some [] := by decide +kernel
  exact ⟨base, stored, name, fun m mem => ⟨.protectedAccess, by rw [all m mem]; rfl⟩, outer,
    storedOuter, inner, storedInner, .single ⟨n, inside, called, .inr storedInner⟩, seen⟩

end Families
end TypeScope
