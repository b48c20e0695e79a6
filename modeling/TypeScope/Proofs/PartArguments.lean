import TypeScope.Proofs.Identity
import TypeScope.Proofs.InstanceMembers

/-! References that have arguments at several of their parts. What is found is bound to the
arguments of the last part or, if that has none, to those of all parts; and only the type parameters
of the innermost type are ever replaced. -/
namespace TypeScope

namespace TypeRef

def OneSided (r : TypeRef) : Prop := r.arguments = [] ∨ ∀ p ∈ r.outer, p.arguments = []

theorem allOuter (r : TypeRef) :
    r.allArguments = r.outer.flatMap TypePart.arguments ++ r.arguments := by
  rw [allArguments, parts, List.flatMap_append, List.flatMap_singleton, arguments]

theorem bindingOneSided {r : TypeRef} (oneSided : r.OneSided) :
    r.bindingArguments = r.allArguments := by
  rw [bindingArguments]
  split
  · rfl
  · rename_i some_
    have outer := oneSided.resolve_left fun none_ => some_ (List.isEmpty_iff.mpr none_)
    rw [allOuter, List.flatMap_eq_nil_iff.mpr outer, List.nil_append]

theorem bindingCount {r : TypeRef} :
    r.bindingArguments.length = r.allArguments.length ↔ r.OneSided := by
  refine ⟨fun count => ?_, fun oneSided => by rw [bindingOneSided oneSided]⟩
  rw [bindingArguments] at count
  split at count
  · rename_i none_
    exact .inl (List.isEmpty_iff.mp none_)
  · rw [allOuter, List.length_append, Nat.right_eq_add] at count
    exact .inr (List.flatMap_eq_nil_iff.mp (List.length_eq_zero_iff.mp count))

theorem bindingSome {r : TypeRef} (generic : r.isGeneric = true) : r.bindingArguments ≠ [] := by
  rw [genericAll, Bool.not_eq_true', List.isEmpty_eq_false_iff] at generic
  rw [bindingArguments]
  split
  · exact generic
  · rename_i some_
    exact fun none_ => some_ (List.isEmpty_iff.mpr none_)

variable {xid : Char → Bool}

theorem bindingFormed {r : TypeRef} (formed : r.WellFormed xid) :
    ∀ a ∈ r.bindingArguments, a.WellFormed xid := by
  obtain ⟨-, -, arguments⟩ := formed
  intro a mem
  rw [bindingArguments] at mem
  split at mem
  · obtain ⟨p, part, inside⟩ := List.mem_flatMap.mp mem
    exact arguments p part a inside
  · exact arguments r.last (List.mem_append_right _ List.mem_cons_self) a mem

end TypeRef

def parameterNames (types : List Declared) : List String :=
  types.flatMap (fun t => t.body.typeParameters.map TypeParameter.name)

def standFor (types : List Declared) (arguments : List TypeRef) (name : String) : Option TypeRef :=
  ((parameterNames types).zip arguments).reverse.lookup name

section Names
variable {around : List Declared} {inner : Declared} {arguments : List TypeRef} {r : TypeRef}

theorem lookupMissing {pairs : List (String × TypeRef)} {name : String}
    (missing : ∀ pair ∈ pairs, pair.1 ≠ name) : pairs.lookup name = none :=
  List.lookup_eq_none_iff.mpr fun pair mem => bne_iff_ne.mpr (missing pair mem).symm

theorem partCounts
    (counts : (around ++ [inner]).map Declared.arity = r.parts.map (fun p => p.arguments.length)) :
    around.map Declared.arity = r.outer.map (fun p => p.arguments.length) ∧
      inner.arity = r.arguments.length := by
  rw [TypeRef.parts, List.map_append, List.map_append] at counts
  obtain ⟨outer, last⟩ := List.append_inj' counts rfl
  exact ⟨outer, (List.cons.inj last).1⟩

theorem standForInner {name : String} (oneSided : r.OneSided)
    (counts : (around ++ [inner]).map Declared.arity = r.parts.map (fun p => p.arguments.length))
    (foreign : name ∉ parameterNames around) :
    (OpenType.declared inner).stands arguments name =
      standFor (around ++ [inner]) arguments name := by
  have whole : parameterNames (around ++ [inner]) =
      parameterNames around ++ inner.body.typeParameters.map TypeParameter.name := by
    rw [parameterNames, parameterNames, List.flatMap_append, List.flatMap_singleton]
  obtain ⟨outer, last⟩ := partCounts counts
  rcases oneSided with none_ | none_
  · have bare : inner.body.typeParameters = [] := by
      rw [none_] at last
      exact List.length_eq_zero_iff.mp last
    have stands : (OpenType.declared inner).stands arguments name = none := by
      have parameters : (OpenType.declared inner).body.typeParameters = [] := bare
      rw [OpenType.stands, parameters]
      rfl
    rw [stands, standFor, whole, bare, List.map_nil, List.append_nil]
    refine (lookupMissing fun pair mem same => foreign ?_).symm
    rw [← same]
    exact (List.of_mem_zip (List.mem_reverse.mp mem)).1
  · have bare : parameterNames around = [] := by
      refine List.flatMap_eq_nil_iff.mpr fun t mem => ?_
      have count : t.arity ∈ r.outer.map (fun p => p.arguments.length) :=
        outer ▸ List.mem_map.mpr ⟨t, mem, rfl⟩
      obtain ⟨p, inside, same⟩ := List.mem_map.mp count
      have zero : t.body.typeParameters.length = 0 := by
        rw [none_ p inside] at same
        exact same.symm
      rw [List.length_eq_zero_iff.mp zero, List.map_nil]
    rw [standFor, whole, bare, List.nil_append]
    rfl

end Names

section Lookups
open Query
variable {xid : Char → Bool} {w after : Workspace} {id : ScopeId} {r linked : TypeRef}
  {d : Definition}

theorem lookupSelected (rankless : r.marks.ranks = [])
    (unbelieved : (w.linked r).filter (w.isCurrent id) = none)
    (found : (lookup id r).run w = ((some d, linked), after)) :
    ∃ t, w.findType id .deep .exact (Arity.strip r.decoratedName).1
      (askedArity r.decoratedName r.arguments) = some t := by
  rw [Query.lookup, TypeRef.elementNone.mpr rankless] at found
  dsimp only at found
  rw [lookupCore, StateT.run_bind, StateT.run_get, pure_bind, unbelieved] at found
  dsimp only at found
  rw [getTypeStripped, bind_assoc, StateT.run_bind, StateT.run_get, pure_bind] at found
  cases selected : w.findType id .deep .exact (Arity.strip r.decoratedName).1
      (askedArity r.decoratedName r.arguments) with
  | some t => exact ⟨t, rfl⟩
  | none =>
    rw [selected] at found
    cases found

def Workspace.InstancesFormed (xid : Char → Bool) (w : Workspace) (id : ScopeId) : Prop :=
  ∀ key i, (w.scope id).cache.get? key = some (.bound i) →
    Segmented xid i.openType.fullName ∧ ∀ a ∈ i.arguments, a.WellFormed xid

theorem lookupInstance (separate : ∀ c ∈ Text.marks, xid c = false) (stores : w.Stores Store.Sound)
    (filed : Filed w) (names : ∀ s, w.Holds id s → Segmented xid s.fullName)
    (instances : w.InstancesFormed xid id)
    (made : after.Remembers (fun _ _ d => ∀ i, d = .bound i → i.Made)) (formed : r.WellFormed xid)
    (rankless : r.marks.ranks = []) (generic : r.isGeneric = true)
    (unbelieved : (w.linked r).filter (w.isCurrent id) = none)
    (found : (lookup id r).run w = ((some d, linked), after)) {inner : Declared}
    (open_ : d.openType = .declared inner) : ∃ i, d = .bound i ∧ i.Made ∧
      i.arguments.map TypeRef.canonical = r.bindingArguments.map TypeRef.canonical := by
  have some_ := TypeRef.bindingSome generic
  obtain ⟨t, selected⟩ := lookupSelected rankless unbelieved found
  obtain ⟨e, linked', final, again, bound⟩ :=
    lookupBound filed (openedOfFound selected) unbelieved rankless selected some_
  obtain ⟨answer, rfl⟩ := Prod.mk.inj (again.symm.trans found)
  cases (Prod.mk.inj answer).1
  have own := (bound.grown.filed.entries _ _ _ bound.filed).1
  cases d with
  | unbound o =>
    cases open_
    cases own
  | bound i =>
    have made := made _ _ _ bound.filed i rfl
    refine ⟨i, rfl, made, ?_⟩
    rcases bound.origin with cached | ⟨j, same, -, arguments⟩
    · obtain ⟨named, formed'⟩ := instances _ i cached
      have plain := (segmentedUnmarked separate named).2
      have plain' := (segmentedUnmarked separate (names t (Workspace.foundAgain stores selected))).2
      have key : Instantiation.keyFor i.openType.fullName i.arguments =
          Instantiation.keyFor t.fullName r.bindingArguments := Option.some.inj own
      exact (keyUnique separate plain plain' made.filled some_ formed'
        (TypeRef.bindingFormed formed) key).2
    · cases same
      rw [arguments]

/-- A reference with arguments, in whatever state events lead to, that is not believed for a link
and is found to be a type: that is an instantiation of the type, and binds the arguments of the last
part or, if it has none, of all. These are all arguments exactly if they stand on one side; and then
the signatures of members have the arguments of all parts in the place of the type parameters,
those excepted that mention a type parameter of a type around. Otherwise, and in those, the type
parameters of the innermost type alone are replaced. -/
theorem partArguments (separate : ∀ c ∈ Text.marks, xid c = false) (events : List Event)
    {id : ScopeId} {r linked : TypeRef} {d : Definition} {after : Workspace}
    (names : ∀ s, (Session.run events).workspace.Holds id s → Segmented xid s.fullName)
    (instances : (Session.run events).workspace.InstancesFormed xid id)
    (formed : r.WellFormed xid) (rankless : r.marks.ranks = []) (generic : r.isGeneric = true)
    (unbelieved : ((Session.run events).workspace.linked r).filter
      ((Session.run events).workspace.isCurrent id) = none)
    (found : (lookup id r).run (Session.run events).workspace = ((some d, linked), after))
    {around : List Declared} {inner : Declared} (open_ : d.openType = .declared inner)
    (counts : (around ++ [inner]).map Declared.arity =
      r.parts.map (fun p => p.arguments.length)) :
    ∃ i, d = .bound i ∧
      i.arguments.map TypeRef.canonical = r.bindingArguments.map TypeRef.canonical ∧
      (i.arguments.map TypeRef.canonical = r.allArguments.map TypeRef.canonical ↔ r.OneSided) ∧
      List.Forall₂ (fun m made =>
          m.Becomes ((OpenType.declared inner).stands i.arguments) (fun _ => none) made ∧
          (r.OneSided →
            (∀ s ∈ m.signature, ∀ name ∈ s.mentioned, name ∉ parameterNames around) →
            m.Becomes (standFor (around ++ [inner]) i.arguments) (fun _ => none) made))
        inner.body.members i.body.members := by
  have later : (Session.run (events ++ [.asks id (.reference r)])).workspace = after := by
    rw [Session.runAppend]
    exact congrArg Prod.snd found
  obtain ⟨i, rfl, made, arguments⟩ := lookupInstance separate (Session.storesSound events)
    (Session.filed events) names instances (later ▸ Session.instancesMade _) formed rankless generic
    unbelieved found open_
  refine ⟨i, rfl, arguments, ?_, ?_⟩
  · rw [arguments]
    refine ⟨fun all => ?_, fun oneSided => by rw [TypeRef.bindingOneSided oneSided]⟩
    have count := congrArg List.length all
    rw [List.length_map, List.length_map] at count
    exact TypeRef.bindingCount.mp count
  · obtain ⟨links, body⟩ := made.body
    have shown : i.openType = .declared inner := open_
    have bound := Instantiation.membersBound body
    rw [Instantiation.MembersBound, shown] at bound
    refine bound.imp ?_
    rintro m m' ⟨-, becomes, -⟩
    refine ⟨becomes, fun oneSided foreign => becomes.agree (fun s mem name there => ?_)
      fun _ _ _ _ _ _ => rfl⟩
    exact standForInner oneSided counts (foreign s mem name there)

def rackEvents (parameters : List TypeParameter) : List Event :=
  [.opens "app",
    .writes ⟨⟨0⟩, "Rack.cs", [], [{ Blueprint.bare "App.Rack" .classType with
      typeParameters := parameters
      nested := [{ Blueprint.bare "Box" .classType with
          typeParameters := [⟨"U", []⟩]
          members := [Member.field "content"
            (TypeRef.generic "System.Map" [TypeRef.named "T", TypeRef.named "U"])] },
        { Blueprint.bare "Label" .classType with
          members := [Member.field "owner" (TypeRef.named "T")] }] }]⟩,
    .ingests 0 0]

def racks (parameters : List TypeParameter) : Workspace :=
  (Session.run (rackEvents parameters)).workspace

def inRack (outer : List TypeRef) (name : String) (inner : List TypeRef) : TypeRef :=
  ⟨"App", [⟨"Rack", outer⟩], ⟨name, inner⟩, Marks.none, none⟩

def FoundIn (w : Workspace) (rack : Declared) (r : TypeRef) (i : Instantiation) (t : Declared) :
    Prop :=
  (∃ linked after, (lookup 0 r).run w = ((some (.bound i), linked), after)) ∧
    i.openType = .declared t ∧ rack.nested.any (fun inner => inner.is t) = true

def Instantiation.standsIn (rack : Declared) (check : Instantiation → Declared → Bool)
    (i : Instantiation) : Bool :=
  match i.openType with
  | .declared t => rack.nested.any (fun inner => inner.is t) && check i t
  | _ => false

theorem foundIn {rack : Declared} {check : Instantiation → Declared → Bool}
    (holds : ((lookup 0 r).run w).1.1.any
      (Definition.isInstance (Instantiation.standsIn rack check)) = true) :
    ∃ i t, FoundIn w rack r i t ∧ check i t = true := by
  cases run : (lookup 0 r).run w with
  | mk answer after =>
    obtain ⟨found, linked⟩ := answer
    rw [run] at holds
    obtain ⟨i, rfl, passes⟩ := Definition.boundOfInstance holds
    rw [Instantiation.standsIn] at passes
    split at passes
    · rename_i t open_
      obtain ⟨nests, checks⟩ := Bool.and_eq_true_iff.mp passes
      exact ⟨i, t, ⟨⟨linked, after, run⟩, open_, nests⟩, checks⟩
    · cases passes

theorem partArgumentsBox : ∃ rack box i,
    (racks []).findType 0 .deep .exact "App.Rack" 0 = some rack ∧
    FoundIn (racks []) rack (inRack [] "Box" [TypeRef.named "X"]) i box ∧
    box.body.members.map Member.name = ["content"] ∧ i.arguments.map TypeRef.canonical = ["X"] ∧
    List.Forall₂ (fun m made => m.Becomes (standFor [rack, box] i.arguments) (fun _ => none) made)
      box.body.members i.body.members := by
  have answers : ((racks []).findType 0 .deep .exact "App.Rack" 0).any (fun rack =>
      rack.body.typeParameters.isEmpty &&
        ((lookup 0 (inRack [] "Box" [TypeRef.named "X"])).run (racks [])).1.1.any
          (Definition.isInstance (Instantiation.standsIn rack fun _ box =>
            box.arity = 1 ∧ box.body.members.map Member.name = ["content"]))) := by decide +kernel
  obtain ⟨rack, found, checks⟩ := (Option.any_eq_true _ _).mp answers
  obtain ⟨bare, answers⟩ := Bool.and_eq_true_iff.mp checks
  obtain ⟨i, box, ⟨⟨linked, after, run⟩, open_, nests⟩, checks⟩ := foundIn answers
  obtain ⟨arity, named⟩ := of_decide_eq_true checks
  have x : TypeRef.WellFormed tabled (TypeRef.named "X") := by
    refine .intro (.inl rfl) (fun p inside => ?_) fun p inside a given => ?_
    · rw [List.mem_singleton.mp inside]
      exact tabledIdentifier (by decide) (by decide)
    · rw [List.mem_singleton.mp inside] at given
      cases given
  have formed : (inRack [] "Box" [TypeRef.named "X"]).WellFormed tabled := by
    refine .intro (.inr (by decide +kernel)) ?_ ?_
    · simp only [inRack, TypeRef.parts, List.cons_append, List.nil_append, List.forall_mem_cons]
      exact ⟨tabledIdentifier (by decide) (by decide), tabledIdentifier (by decide) (by decide),
        List.forall_mem_nil _⟩
    · simp [inRack, TypeRef.parts, x]
  have names : ∀ s, (racks []).Holds 0 s → Segmented tabled s.fullName := by
    have all : ((racks []).scope 0).references = [] ∧
        ∀ s ∈ ((racks []).store 0).allTypes, Segmented tabled s.fullName := by decide +kernel
    intro s holds
    rw [Workspace.Holds, findAlone all.1] at holds
    exact all.2 s (Store.candidatesMem (Store.findMem holds).1)
  have instances : (racks []).InstancesFormed tabled 0 := by
    have empty : ((racks []).scope 0).cache.entries.isEmpty = true := by decide +kernel
    intro key i cached
    rw [Table.emptyEntries empty] at cached
    cases cached
  have nothing : parameterNames [rack] = [] := by
    rw [parameterNames, List.flatMap_singleton, List.isEmpty_iff.mp bare, List.map_nil]
  have counts : ([rack] ++ [box]).map Declared.arity =
      (inRack [] "Box" [TypeRef.named "X"]).parts.map (fun p => p.arguments.length) := by
    have none_ : rack.arity = 0 := congrArg List.length (List.isEmpty_iff.mp bare)
    rw [List.cons_append, List.nil_append, List.map_cons, List.map_singleton, none_, arity]
    rfl
  have oneSided : (inRack [] "Box" [TypeRef.named "X"]).OneSided := .inr fun p mem => by
    rw [List.mem_singleton.mp mem]
  obtain ⟨j, same, arguments, -, members⟩ := partArguments tabledMarks (rackEvents [])
    names instances formed rfl rfl rfl run open_ counts
  cases same
  refine ⟨rack, box, i, found, ⟨⟨linked, after, run⟩, open_, nests⟩, named, arguments,
    members.imp ?_⟩
  rintro m made ⟨-, becomes⟩
  exact becomes oneSided fun s _ name _ inside => by
    rw [nothing] at inside
    cases inside

def ownedRacks : Workspace := racks [⟨"T", []⟩]

theorem partArgumentsLost : ∃ rack box label i j,
    ownedRacks.findType 0 .deep .exact "App.Rack" 1 = some rack ∧
    FoundIn ownedRacks rack (inRack [TypeRef.named "X"] "Box" [TypeRef.named "Y"]) i box ∧
    i.arguments.map TypeRef.canonical ≠
      (inRack [TypeRef.named "X"] "Box" [TypeRef.named "Y"]).allArguments.map TypeRef.canonical ∧
    FoundIn ownedRacks rack (inRack [TypeRef.named "X"] "Label" []) j label ∧
    label.body.members.map Member.name = ["owner"] ∧ j.body.members.map Member.name = ["owner"] ∧
    ∀ pair ∈ label.body.members.zip j.body.members,
      ¬ pair.1.Becomes (standFor [rack, label] j.arguments) (fun _ => none) pair.2 := by
  have answers : (ownedRacks.findType 0 .deep .exact "App.Rack" 1).any (fun rack =>
      ((lookup 0 (inRack [TypeRef.named "X"] "Box" [TypeRef.named "Y"])).run ownedRacks).1.1.any
        (Definition.isInstance (Instantiation.standsIn rack fun i _ =>
          i.arguments.map TypeRef.canonical ≠ (inRack [TypeRef.named "X"] "Box"
            [TypeRef.named "Y"]).allArguments.map TypeRef.canonical)) &&
      ((lookup 0 (inRack [TypeRef.named "X"] "Label" [])).run ownedRacks).1.1.any
        (Definition.isInstance (Instantiation.standsIn rack fun j label =>
          label.body.members.map Member.name = ["owner"] ∧
            j.body.members.map Member.name = ["owner"] ∧
            ∀ pair ∈ label.body.members.zip j.body.members,
              pair.2.texts ≠ (pair.1.substitute (Bindings.ofPairs
                ((parameterNames [rack, label]).zip j.arguments))).texts))) := by decide +kernel
  obtain ⟨rack, found, both⟩ := (Option.any_eq_true _ _).mp answers
  obtain ⟨first, second⟩ := Bool.and_eq_true_iff.mp both
  obtain ⟨i, box, inBox, differ⟩ := foundIn first
  obtain ⟨j, label, labelled, checks⟩ := foundIn second
  obtain ⟨names, names', unchanged⟩ := of_decide_eq_true checks
  refine ⟨rack, box, label, i, j, found, inBox, of_decide_eq_true differ, labelled, names, names',
    fun pair mem becomes => unchanged pair mem ?_⟩
  let bindings := Bindings.ofPairs ((parameterNames [rack, label]).zip j.arguments)
  have stands : bindings.get? = standFor [rack, label] j.arguments :=
    funext fun name => Bindings.ofPairsGet _ name
  have replaced := (pair.1.becomesSubstitute bindings Table.empty ⟨label.stamp, .receiver 0⟩).1
  rw [stands, Member.settledUnwritten] at replaced
  exact becomes.texts replaced

end Lookups
end TypeScope
