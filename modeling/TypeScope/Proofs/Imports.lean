import TypeScope.Proofs.LookupRoutes
import TypeScope.Proofs.NamespaceContents

/-! The namespaces that are offered for import. The listing compares decorated names, a lookup full
names and arities; for a type at the top level, whose decorated name has no dot behind the namespace,
the two come to the same. -/
namespace TypeScope

namespace Dotted
variable {ns name name' : String}

theorem joinSame (same : join ns name = join ns name') : name = name' := by
  rw [join, join] at same
  split at same
  · exact same
  · exact String.append_right_inj _ |>.mp same

theorem joinUnmarked : Arity.mark ∉ (join ns name).toList ↔
    Arity.mark ∉ ns.toList ∧ Arity.mark ∉ name.toList := by
  rw [joinChars]
  split
  · rename_i empty
    simp [empty]
  · simp [show Arity.mark ≠ '.' by decide]

end Dotted

namespace TypeRef
variable {r : TypeRef}

section Joined
variable (named : r.Named)
include named

theorem loneFullName (lone : r.segments = [r.last]) : r.fullName = r.last.name :=
  joinedLone (fun _ => rfl) named lone

theorem loneDecorated (lone : r.segments = [r.last]) :
    r.decoratedName = Arity.decorate r.last.name r.arguments.length :=
  joinedLone (fun _ => rfl) (decoratedNamed named) lone

theorem decoratedLone {name : String} {arity : Nat} (simple : '.' ∉ name.toList)
    (plain : Arity.mark ∉ name.toList) (unmarked : Arity.mark ∉ r.last.name.toList)
    (same : Arity.decorate name arity = r.decoratedName) :
    r.fullName = name ∧ r.arguments.length = arity ∧ r.segments = [r.last] := by
  have lone : r.segments = [r.last] := by
    refine loneJoined (f := TypePart.decorated) (fun _ => rfl) (decoratedNamed named) ?_
    rw [← decoratedName, ← same]
    exact decorateSimple simple arity
  rw [loneDecorated named lone] at same
  obtain ⟨names, counts⟩ := decorateUnique plain unmarked same
  exact ⟨(loneFullName named lone).trans names.symm, counts.symm, lone⟩

theorem fullNameLone (simple : '.' ∉ r.fullName.toList) :
    r.decoratedName = Arity.decorate r.fullName r.arguments.length := by
  have lone := loneJoined (fun _ => rfl) named simple
  rw [loneDecorated named lone, loneFullName named lone]

end Joined
end TypeRef

namespace Store
variable {store : Store} {ns : String} {r : TypeRef}

theorem memOffering {decorated : String} : ns ∈ store.namespacesOffering decorated ↔
    ∃ d ∈ store.topLevel, d.decoratedName = Dotted.join ns decorated ∧ d.ns = ns := by
  simp only [namespacesOffering, List.mem_map, List.mem_filter, beq_iff_eq, and_assoc]
  exact exists_congr fun d => and_congr_right fun _ =>
    ⟨fun ⟨same, own⟩ => ⟨own ▸ same, own⟩, fun ⟨same, own⟩ => ⟨own ▸ same, own⟩⟩

theorem Reflects.findOwn {units : List CompilationUnit} (reflects : Reflects units store)
    (sound : store.Sound) {t : Declared} (mem : t ∈ store.allTypes) :
    store.find t.fullName t.arity = some t := by
  cases found : store.find t.fullName t.arity with
  | none =>
    have absent := List.find?_eq_none.mp found t (sound.stored mem)
    simp at absent
  | some t' =>
    obtain ⟨listed, arity⟩ := findMem found
    have name := sound.named t.fullName t' listed
    rw [reflects.identifies sound (candidatesMem listed) mem name arity]

section Offering
variable (top : store.TopNamed) (plain : ∀ d ∈ store.topLevel, Arity.mark ∉ d.name.toList)
  (named : r.Named) (unmarked : Arity.mark ∉ r.last.name.toList)
include top plain named unmarked

theorem offering : ns ∈ store.namespacesOffering r.decoratedName ↔
    ∃ d ∈ store.topLevel, d.fullName = Dotted.join ns r.fullName ∧
      d.arity = r.arguments.length ∧ d.ns = ns := by
  rw [memOffering]
  refine exists_congr fun d => and_congr_right fun mem => ?_
  rw [Declared.decoratedName]
  constructor
  · rintro ⟨same, rfl⟩
    rw [top.named d mem, decorateJoin] at same
    obtain ⟨names, counts, -⟩ := TypeRef.decoratedLone named (top.simple d mem) (plain d mem) unmarked
      (Dotted.joinSame same)
    exact ⟨names ▸ top.named d mem, counts.symm, rfl⟩
  · rintro ⟨same, counts, rfl⟩
    have names : r.fullName = d.name := Dotted.joinSame (same.symm.trans (top.named d mem))
    have single : '.' ∉ r.fullName.toList := names ▸ top.simple d mem
    rw [same, counts, decorateJoin, ← TypeRef.fullNameLone named single]
    exact ⟨rfl, rfl⟩

theorem offeringLone (offered : ns ∈ store.namespacesOffering r.decoratedName) :
    r.segments = [r.last] := by
  obtain ⟨d, mem, same, rfl⟩ := memOffering.mp offered
  rw [Declared.decoratedName, top.named d mem, decorateJoin] at same
  exact (TypeRef.decoratedLone named (top.simple d mem) (plain d mem) unmarked
    (Dotted.joinSame same)).2.2

theorem offeringFound {units : List CompilationUnit} (reflects : Reflects units store)
    (sound : store.Sound) :
    ns ∈ store.namespacesOffering r.decoratedName ↔
      ∃ t, store.find (Dotted.join ns r.fullName) r.arguments.length = some t ∧ t.ns = ns ∧
        t.body.outer = none := by
  rw [offering top plain named unmarked]
  constructor
  · rintro ⟨d, mem, name, arity, own⟩
    obtain ⟨stored, outermost⟩ := memTopLevel.mp mem
    rw [← name, ← arity]
    exact ⟨d, reflects.findOwn sound stored, own, outermost⟩
  · rintro ⟨t, found, own, outermost⟩
    obtain ⟨listed, arity⟩ := findMem found
    exact ⟨t, memTopLevel.mpr ⟨candidatesMem listed, outermost⟩, sound.named _ t listed, arity, own⟩

end Offering
end Store

namespace Query
variable {w : Workspace} {id : ScopeId}

section Import
variable {q : Request} (some_ : q.name ≠ "") (uncalled : q.calling = none)
include some_ uncalled

theorem resolveReaches {u : CompilationUnit} (placed : q.unit = some u) {name : String}
    (candidate : name = q.name ∨ ∃ d ∈ u.usings, name ∈ d.candidates q.rule q.name)
    (found : ((getType id q.depth q.rule name q.arguments).run w).1.isSome = true) :
    ((resolve id q).run w).1.isSome = true := by
  have silent : ∀ source ∈ [fromKnown id q, fromAlias id q, fromUsings id q], Silent source := by
    simp only [List.forall_mem_cons]
    exact ⟨knownSilent id q, aliasSilent id q, usingsSilent id q, List.forall_mem_nil _⟩
  rw [resolveOutside some_ uncalled, firstOfAnswer silent, List.findSome?_isSome_iff]
  rcases candidate with rfl | ⟨d, given, listed⟩
  · exact ⟨fromKnown id q, by simp, found⟩
  · have asked := findFirstAnswer (f := fun name => lookupFor id q name q.arguments)
      (fun _ => getTypeSilent ..) (u.usings.flatMap (UsingDirective.candidates q.rule q.name)) w
    refine ⟨fromUsings id q, by simp, ?_⟩
    rw [fromUsings, placed, Option.elim_some, asked, List.findSome?_isSome_iff]
    exact ⟨name, List.mem_flatMap.mpr ⟨d, given, listed⟩, found⟩

theorem resolveImporting {ns : String} (placed : q.unit = some (importing ns))
    (unknown : w.findType id q.depth q.rule (Arity.strip q.name).1
      (askedArity q.name q.arguments) = none) :
    (resolve id q).run w =
      (getType id q.depth q.rule (ns ++ "." ++ q.name) q.arguments).run w := by
  have missed : ((fromKnown id q).run w).1 = none := congrArg Prod.fst (getTypeMissed unknown)
  have aliases : fromAlias id q = pure none := by
    rw [fromAlias, placed]
    rfl
  have usings : fromUsings id q = lookupFor id q (ns ++ "." ++ q.name) q.arguments := by
    rw [fromUsings, placed]
    exact findFirstSingle _ _
  have last : firstOf [lookupFor id q (ns ++ "." ++ q.name) q.arguments] =
      lookupFor id q (ns ++ "." ++ q.name) q.arguments := findFirstSingle (fun q => q) _
  rw [resolveOutside some_ uncalled, aliases, usings, firstOfPassed (knownSilent id q) missed,
    firstOfPassed silentNone rfl, last]
  rfl

end Import
end Query

def Workspace.behind (w : Workspace) (id : ScopeId) (r : TypeRef) (ns : String) : Option Declared :=
  w.findType id .shallow .exact (Dotted.join ns r.fullName) r.arguments.length

def Request.writtenIn (u : CompilationUnit) (r : TypeRef) : Request :=
  { ofReference r with unit := some u }

def CompilationUnit.Imports (u : CompilationUnit) (ns : String) : Prop :=
  ∃ d ∈ u.usings, ns ∈ d.namespaces

namespace Workspace
variable {xid : Char → Bool} {w : Workspace} {id : ScopeId} {r : TypeRef} {ns : String}

theorem behindFind (w : Workspace) (id : ScopeId) (r : TypeRef) (ns : String) :
    w.behind id r ns = (w.store id).find (Dotted.join ns r.fullName) r.arguments.length := by
  rw [behind, findType, consulted, List.findSome?_singleton, Store.lookupExact]

theorem possibleAlone (alone : (w.scope id).references = []) :
    ns ∈ w.possibleNamespaces id r ↔ ns ∈ (w.store id).namespacesOffering r.decoratedName := by
  simp [possibleNamespaces, withDirect, alone, memDistinct]

section Formed
variable (separate : ∀ c ∈ Text.marks, xid c = false) (formed : r.WellFormed xid)
include separate formed

theorem behindAnswers (unmarked : Arity.mark ∉ ns.toList) :
    ((Query.getType id .shallow .exact (Dotted.join ns r.fullName) r.arguments).run w).1.isSome =
      (w.behind id r ns).isSome := by
  have plain : Arity.mark ∉ (Dotted.join ns r.fullName).toList :=
    Dotted.joinUnmarked.mpr ⟨unmarked, TypeRef.fullNameUnmarked separate formed⟩
  rw [getTypeAnswers, Arity.stripUnmarked plain, askedUnmarked plain, behind]

theorem importReaches (unmarked : Arity.mark ∉ ns.toList) {u : CompilationUnit}
    (imports : ns = "" ∨ u.Imports ns) (found : (w.behind id r ns).isSome = true) :
    ((Query.resolve id (.writtenIn u r)).run w).1.isSome = true := by
  have candidate : Dotted.join ns r.fullName = r.fullName ∨
      ∃ d ∈ u.usings, Dotted.join ns r.fullName ∈ d.candidates .exact r.fullName := by
    by_cases empty : ns = ""
    · exact .inl (if_pos empty)
    · obtain ⟨d, given, listed⟩ := imports.resolve_left empty
      have joined : Dotted.join ns r.fullName = ns ++ "." ++ r.fullName := if_neg empty
      refine .inr ⟨d, given, List.mem_append_left _ (List.mem_append_left _ ?_)⟩
      exact List.mem_map.mpr ⟨ns, listed, joined.symm⟩
  exact Query.resolveReaches (q := .writtenIn u r) (TypeRef.fullNameSome formed.named) rfl rfl
    candidate ((behindAnswers separate formed unmarked).trans found)

theorem importAlone (unmarked : Arity.mark ∉ ns.toList) (some_ : ns ≠ "")
    (unknown : w.behind id r "" = none) :
    ((Query.resolve id (.writtenIn (Query.importing ns) r)).run w).1.isSome =
      (w.behind id r ns).isSome := by
  have plain := TypeRef.fullNameUnmarked separate formed
  have missed : w.findType id .shallow .exact (Arity.strip r.fullName).1
      (askedArity r.fullName r.arguments) = none := by
    rw [Arity.stripUnmarked plain, TypeRef.askedFull separate formed]
    exact unknown
  have joined : ns ++ "." ++ r.fullName = Dotted.join ns r.fullName := (if_neg some_).symm
  have run := Query.resolveImporting (q := .writtenIn (Query.importing ns) r)
    (TypeRef.fullNameSome formed.named) rfl rfl missed
  rw [run, ← behindAnswers separate formed unmarked, ← joined]
  rfl

end Formed

/-- In any session, for a scope without references whose top-level names have no arity mark, and for
every well-formed reference: a namespace is offered exactly if a type at its top level is what the
reference names behind the namespace, and it is offered once. A reference of several segments is
offered nothing, also where a nested type is what it names. Where an offered namespace is imported the
reference resolves; and if what is written is unknown as it is, an import by itself makes it resolve
exactly if it names something behind the namespace. -/
theorem importsOffered (separate : ∀ c ∈ Text.marks, xid c = false) (events : List Event)
    (id : ScopeId) (alone : ((Session.run events).workspace.scope id).references = [])
    (plain : ∀ d ∈ ((Session.run events).workspace.store id).topLevel,
      Arity.mark ∉ d.fullName.toList) (formed : r.WellFormed xid) :
    let w := (Session.run events).workspace
    let resolves := fun u => ((Query.resolve id (.writtenIn u r)).run w).1.isSome
    (w.possibleNamespaces id r).Nodup ∧
      (∀ ns, ns ∈ w.possibleNamespaces id r ↔
        ∃ t, w.behind id r ns = some t ∧ t.ns = ns ∧ t.body.outer = none) ∧
      (1 < r.segments.length → w.possibleNamespaces id r = []) ∧
      (∀ ns ∈ w.possibleNamespaces id r, ∀ u : CompilationUnit, ns = "" ∨ u.Imports ns →
        resolves u = true) ∧
      ∀ ns, Arity.mark ∉ ns.toList → ns ≠ "" → w.behind id r "" = none →
        resolves (Query.importing ns) = (w.behind id r ns).isSome := by
  intro w resolves
  have top := topLevelNamed events id
  have sound : (w.store id).Sound := (Session.storesSound events).at Store.soundEmpty id
  obtain ⟨units, -, reflects⟩ := (Session.placed events).stores.at Store.writtenEmpty id
  have unmarked : ∀ d ∈ (w.store id).topLevel, Arity.mark ∉ d.ns.toList ∧
      Arity.mark ∉ d.name.toList := fun d mem => Dotted.joinUnmarked.mp (top.named d mem ▸ plain d mem)
  have last : Arity.mark ∉ r.last.name.toList :=
    (formed.segment (by simp [TypeRef.segments, TypeRef.parts])).1.without separate (by decide)
  have simplePlain : ∀ d ∈ (w.store id).topLevel, Arity.mark ∉ d.name.toList :=
    fun d mem => (unmarked d mem).2
  have offered : ∀ ns, ns ∈ w.possibleNamespaces id r ↔
      ∃ t, w.behind id r ns = some t ∧ t.ns = ns ∧ t.body.outer = none := by
    intro ns
    rw [possibleAlone alone,
      Store.offeringFound top simplePlain formed.named last reflects sound]
    simp only [behindFind, w]
  refine ⟨distinctNodup _, offered, fun several => ?_, fun ns listed u imports => ?_,
    fun ns clean some_ unknown => importAlone separate formed clean some_ unknown⟩
  · refine List.eq_nil_iff_forall_not_mem.mpr fun ns listed => ?_
    have lone := Store.offeringLone top simplePlain formed.named last
      ((possibleAlone alone).mp listed)
    simp [lone] at several
  · obtain ⟨t, found, rfl, outermost⟩ := (offered ns).mp listed
    have stored : t ∈ (w.store id).topLevel := by
      rw [behindFind] at found
      exact Store.memTopLevel.mpr ⟨Store.candidatesMem (Store.findMem found).1, outermost⟩
    exact importReaches separate formed (unmarked t stored).1 imports (by rw [found]; rfl)

def engineLoading : List Event :=
  [.opens "app",
    .writes ⟨⟨0⟩, "Engine.cs", [], [Blueprint.bare "App.Core.Engine" .classType,
      Blueprint.bare "Lib.Engine" .classType]⟩,
    .ingests 0 0]

def engines : Workspace := (Session.run engineLoading).workspace

theorem importsOfferedEngine :
    "Lib" ∈ engines.possibleNamespaces 0 (TypeRef.named "Engine") ∧
      "App" ∉ engines.possibleNamespaces 0 (TypeRef.named "Engine") ∧
      (engines.possibleNamespaces 0 (TypeRef.named "Engine")).Nodup ∧
      ((Query.resolve 0 (.writtenIn (Query.importing "Lib") (TypeRef.named "Engine"))).run
        engines).1.isSome = true := by
  have plain : ∀ d ∈ (engines.store 0).topLevel, Arity.mark ∉ d.fullName.toList := by
    decide +kernel
  have formed : TypeRef.WellFormed tabled (TypeRef.named "Engine") :=
    bareFormed (tabledIdentifier (by decide +kernel) (by decide +kernel))
  obtain ⟨once, offered, -, resolves, -⟩ :=
    importsOffered tabledMarks engineLoading 0 (by decide +kernel) plain formed
  have lib : (engines.behind 0 (TypeRef.named "Engine") "Lib").any
      (fun t => t.ns = "Lib" ∧ t.body.outer = none) = true := by decide +kernel
  have app : engines.behind 0 (TypeRef.named "Engine") "App" = none := by
    rw [← Option.isNone_iff_eq_none]
    decide +kernel
  obtain ⟨t, found, placed⟩ := (Option.any_eq_true _ _).mp lib
  have listed := (offered "Lib").mpr ⟨t, found, of_decide_eq_true placed⟩
  have imports : (Query.importing "Lib").Imports "Lib" :=
    ⟨_, List.mem_singleton_self _, List.mem_singleton_self _⟩
  refine ⟨listed, fun other => ?_, once, resolves "Lib" listed _ (.inr imports)⟩
  obtain ⟨t', found', -⟩ := (offered "App").mp other
  cases app.symm.trans found'

def nestedLoading : List Event :=
  [.opens "app",
    .writes ⟨⟨0⟩, "Outer.cs", [], [{ Blueprint.bare "App.Outer" .classType with
      nested := [Blueprint.bare "Inner" .classType] }]⟩,
    .ingests 0 0]

def outerInner : TypeRef := ⟨"", [⟨"Outer", []⟩], ⟨"Inner", []⟩, .none, none⟩

def nested : Workspace := (Session.run nestedLoading).workspace

theorem nestedUnoffered : ∃ t, nested.behind 0 outerInner "App" = some t ∧ t.ns = "App" ∧
    ((Query.resolve 0 (.writtenIn (Query.importing "App") outerInner)).run nested).1.map
      Definition.fullName = some "App.Outer.Inner" ∧
    nested.possibleNamespaces 0 outerInner = [] := by
  have found : (nested.behind 0 outerInner "App").any (fun t => t.ns = "App") = true := by
    decide +kernel
  obtain ⟨t, here, own⟩ := (Option.any_eq_true _ _).mp found
  refine ⟨t, here, of_decide_eq_true own, ?_, ?_⟩ <;> decide +kernel

end Workspace
end TypeScope
