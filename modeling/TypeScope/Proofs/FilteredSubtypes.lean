import TypeScope.Proofs.IndexAge
import TypeScope.Proofs.Traces
import Mathlib.Data.Set.List

/-! The search for subtypes with and without a filter. The filter only decides what is listed, not
where the search goes on; and the arrays of what passes are the arrays that pass, since an array is
in the namespace of its element. The array of a collection's argument is listed in any case. -/
namespace TypeScope
open Query

inductive Listing where
  | type (d : Definition)
  | arrayOf (element : TypeRef)

namespace Listing

def ns : Listing → String
  | type d => d.ns
  | arrayOf element => element.ns

end Listing

def Definition.listed : Definition → Listing
  | .unbound (.array a) => .arrayOf a.element.unlinked
  | d => .type d

def Definition.collects : Definition → Option TypeRef
  | .bound i => if genericCollections.contains i.openType.fullName then i.arguments.head? else none
  | .unbound _ => none

section Arrays
variable {id : ScopeId} {w : Workspace}

theorem listedNs (d : Definition) : d.listed.ns = d.ns := by
  cases d with
  | bound i => rfl
  | unbound o => cases o <;> rfl

theorem passesListed (list : List String) (d : Definition) :
    passes (some list) d = list.contains d.listed.ns := by rw [listedNs]; rfl

theorem filterListed (list : List String) (ds : List Definition) :
    (ds.filter (passes (some list))).map Definition.listed =
      (ds.map Definition.listed).filter (fun l => list.contains l.ns) := by
  rw [List.filter_map]
  congr 1
  exact List.filter_congr fun d _ => passesListed list d

theorem ofChainNs (ns : String) (first : TypePart) (rest : List TypePart) :
    (TypeRef.ofChain ns first rest).ns = ns := by
  induction rest generalizing first with
  | nil => rfl
  | cons next rest ih => exact ih next

theorem mentionNs (t : Declared) : (TypeRef.forDefinition (.ofDeclared t)).ns = t.ns := by
  have chained : (TypeRef.forDefinition (.ofDeclared t)).ns =
      (TypeRef.chainOf t.body.ns t.fullName).ns := rfl
  rw [chained, TypeRef.chainOf]
  split <;> exact ofChainNs ..

theorem arrayListed (id : ScopeId) (element : TypeRef) (w : Workspace) :
    ((arrayOf id element).run w).1.1.listed = .arrayOf element.unlinked := rfl

theorem arraysListed (id : ScopeId) (ds : List Declared) (w : Workspace) :
    ((arraysOf id (ds.map Definition.ofDeclared)).run w).1.map Definition.listed =
      ds.map (fun t => .arrayOf (TypeRef.forDefinition (.ofDeclared t)).unlinked) := by
  induction ds generalizing w with
  | nil => rfl
  | cons t rest ih => exact congrArg (List.cons _) (ih _)

theorem currentUnlinked (links : Links) (site : Site) (r : TypeRef) :
    (links.current site r).unlinked = r.unlinked := by
  unfold Links.current
  split <;> rfl

theorem argumentListed (id : ScopeId) (d : Definition) (w : Workspace) :
    ((arrayOfArgument id d).run w).1.map Definition.listed =
      d.collects.toList.map (fun e => .arrayOf e.unlinked) := by
  cases d with
  | unbound o => rfl
  | bound i =>
    simp only [arrayOfArgument, Definition.collects]
    split
    · cases given : i.arguments with
      | nil => simp [Instantiation.currentArguments, given]; rfl
      | cons element rest =>
        have current : i.currentArguments w.links =
            w.links.current ⟨i.stamp, .argument 0⟩ element ::
              rest.mapIdx (fun n r => w.links.current ⟨i.stamp, .argument (n + 1)⟩ r) := by
          rw [Instantiation.currentArguments, given, List.mapIdx_cons]
        have made := arrayListed id (w.links.current ⟨i.stamp, .argument 0⟩ element) w
        rw [currentUnlinked] at made
        rw [StateT.run_bind, StateT.run_get, pure_bind, current]
        obtain ⟨⟨⟨array, after⟩, next⟩, run⟩ : ∃ answer,
          (arrayOf id (w.links.current ⟨i.stamp, .argument 0⟩ element)).run w = answer := ⟨_, rfl⟩
        rw [run] at made
        dsimp only
        rw [runThrough run]
        dsimp only
        split <;> exact congrArg (fun l => [l]) made
    · rfl

end Arrays

section Searches
variable {id : ScopeId} {u v w : Workspace}

structure SameSearch (id : ScopeId) (v w : Workspace) : Prop where
  lasting : v.lasting = w.lasting
  index : ((subtypeIndex id).run v).1 = ((subtypeIndex id).run w).1

theorem SameSearch.trans (first : SameSearch id u v) (second : SameSearch id v w) :
    SameSearch id u w := ⟨first.lasting.trans second.lasting, first.index.trans second.index⟩

theorem lastingStanding (same : v.standing = w.standing) : v.lasting = w.lasting := by
  have first : ∀ w : Workspace, w.lasting = w.standing.map Prod.fst := fun w => by
    rw [Workspace.lasting, Workspace.standing, List.map_map]
    rfl
  rw [first, first, same]

theorem indexLasting (id : ScopeId) (w : Workspace) :
    ((subtypeIndex id).run w).2.lasting = w.lasting :=
  ((lastingFrame w).subtypeIndex id (fun _ _ holds =>
    (Workspace.viewModify Scope.lasting _ _ rfl).trans holds) w rfl).1

theorem indexUnopened (beyond : w.scopes.length ≤ id) :
    ((subtypeIndex id).run w).1 = Table.empty := by
  have blank := w.scopeUnopened beyond
  have none_ : w.store id = Store.empty := by rw [Workspace.store, blank]; rfl
  have built : ((buildIndex id).run w).1 =
      ((indexTypes id (w.store id).allTypes Table.empty).run w).1 := rfl
  rw [indexBuilt (by rw [blank]; rfl), built, none_]
  rfl

theorem indexAgain (same : v.standing = ((subtypeIndex id).run w).2.standing) :
    SameSearch id v w := by
  refine ⟨(lastingStanding same).trans (indexLasting id w), ?_⟩
  by_cases known : id < ((subtypeIndex id).run w).2.scopes.length
  · rw [indexKept ((Workspace.standingScope same id).1.trans (indexThere known))]
  · have beyond := Nat.le_of_not_lt known
    have opened : ((subtypeIndex id).run w).2.scopes.length = w.scopes.length := by
      have lengths := congrArg List.length (indexLasting id w)
      rwa [Workspace.lasting, Workspace.lasting, List.length_map, List.length_map] at lengths
    rw [indexUnopened (standingLength same ▸ beyond), indexUnopened (opened ▸ beyond)]

structure Search where
  deep : Bool
  namespaces : Option (List String)
  start : Definition

def Workspace.searched (w : Workspace) (id : ScopeId) (searches : List Search) : Workspace :=
  searches.foldl
    (fun w s => (Question.subtypes s.deep s.namespaces s.start).after id w) w

theorem searchedSame (w : Workspace) (id : ScopeId) (searches : List Search) :
    SameSearch id (w.searched id searches) w := by
  induction searches generalizing w with
  | nil => exact ⟨rfl, rfl⟩
  | cons s rest ih => exact (ih _).trans (indexAgain (subtypesStanding id ..))

end Searches

section Answers
variable {id : ScopeId} {v w : Workspace}

theorem belowDeclared (index : SubtypeIndex) (deep : Bool) (t : Declared) :
    ∃ ds : List Declared, below index deep (.ofDeclared t) = ds.map Definition.ofDeclared := by
  have each : ∀ d ∈ below index deep (.ofDeclared t), d ∈ Set.range Definition.ofDeclared := by
    refine spreadSound (P := (· ∈ Set.range Definition.ofDeclared)) (fun _ _ s _ => ⟨s, rfl⟩) _
      fun e mem => ?_
    rw [List.mem_singleton.mp mem]
    exact ⟨t, rfl⟩
  obtain ⟨ds, same⟩ := (Set.range_list_map Definition.ofDeclared).symm.subset each
  exact ⟨ds, same.symm⟩

def objectArrays (index : SubtypeIndex) (namespaces : Option (List String)) (object : Declared) :
    List Listing :=
  ((below index true (.ofDeclared object)).filter (passes namespaces)).map
    (fun d => .arrayOf (TypeRef.forDefinition d).unlinked)

def Workspace.subtypesListed (w : Workspace) (id : ScopeId) (deep : Bool)
    (namespaces : Option (List String)) (d : Definition) : List Listing × List Listing :=
  let index := ((subtypeIndex id).run w).1
  (((below index deep d).filter (passes namespaces)).map Definition.listed,
    if objectCollections.contains d.fullName then
      (w.findType id .deep .exact objectName 0).elim [] (objectArrays index namespaces)
    else [])

theorem SameSearch.listed (same : SameSearch id v w) (deep : Bool)
    (namespaces : Option (List String)) (d : Definition) :
    v.subtypesListed id deep namespaces d = w.subtypesListed id deep namespaces d := by
  rw [Workspace.subtypesListed, Workspace.subtypesListed, same.index,
    Workspace.findTypeLasting same.lasting]

theorem objectsListed (w : Workspace) (id : ScopeId) (deep : Bool)
    (namespaces : Option (List String)) (d : Definition) :
    ((arraysOfObjects id namespaces d).run w).1.map Definition.listed =
      (w.subtypesListed id deep namespaces d).2 := by
  simp only [arraysOfObjects, Workspace.subtypesListed]
  split
  · rw [StateT.run_bind, StateT.run_get, pure_bind]
    cases w.findType id .deep .exact objectName 0 with
    | none => rfl
    | some object =>
      obtain ⟨ds, declared⟩ := belowDeclared ((subtypeIndex id).run w).1 true object
      have filtered : (ds.map Definition.ofDeclared).filter (passes namespaces) =
          (ds.filter (fun t => passes namespaces (.ofDeclared t))).map Definition.ofDeclared :=
        List.filter_map
      have run : (declaredSubtypes id true namespaces (.ofDeclared object)).run w =
          ((ds.filter (fun t => passes namespaces (.ofDeclared t))).map Definition.ofDeclared,
            ((subtypeIndex id).run w).2) := by
        rw [← filtered, ← declared]
        rfl
      dsimp only
      rw [runThrough run, arraysListed, Option.elim_some, objectArrays, declared, filtered,
        List.map_map]
      rfl
  · rfl

theorem subtypesRun (w : Workspace) (id : ScopeId) (deep : Bool)
    (namespaces : Option (List String)) (d : Definition) :
    ((subtypes id deep namespaces d).run w).1.map Definition.listed =
      (w.subtypesListed id deep namespaces d).1 ++
        d.collects.toList.map (fun e => .arrayOf e.unlinked) ++
        (w.subtypesListed id deep namespaces d).2 := by
  have parts : ((subtypes id deep namespaces d).run w).1 =
      (below ((subtypeIndex id).run w).1 deep d).filter (passes namespaces) ++
        ((arrayOfArgument id d).run ((subtypeIndex id).run w).2).1 ++
        ((arraysOfObjects id namespaces d).run
          ((arrayOfArgument id d).run ((subtypeIndex id).run w).2).2).1 := rfl
  have stands := ((standingFrame ((subtypeIndex id).run w).2).arrayOfArgument id d _ rfl).1
  rw [parts, List.map_append, List.map_append, argumentListed, objectsListed _ id deep,
    (indexAgain stands).listed]
  rfl

theorem filteredListed (w : Workspace) (id : ScopeId) (deep : Bool) (list : List String)
    (d : Definition) : w.subtypesListed id deep (some list) d =
      ((w.subtypesListed id deep none d).1.filter (fun l => list.contains l.ns),
        (w.subtypesListed id deep none d).2.filter (fun l => list.contains l.ns)) := by
  have all : ∀ ds : List Definition, ds.filter (passes none) = ds := fun ds =>
    List.filter_eq_self.mpr fun _ _ => rfl
  refine Prod.ext ?_ ?_
  · simp only [Workspace.subtypesListed, all]
    exact filterListed list _
  · simp only [Workspace.subtypesListed]
    split
    · cases w.findType id .deep .exact objectName 0 with
      | none => rfl
      | some object =>
        obtain ⟨ds, declared⟩ := belowDeclared ((subtypeIndex id).run w).1 true object
        rw [Option.elim_some, Option.elim_some, objectArrays, objectArrays, all, declared,
          List.map_map, List.filter_map, List.filter_map, List.map_map]
        refine congrArg (List.map _) (List.filter_congr fun t _ => ?_)
        have ns : (Definition.ofDeclared t).ns = (TypeRef.forDefinition (.ofDeclared t)).ns :=
          (mentionNs t).symm
        exact congrArg list.contains ns
    · rfl

/-- The filtered search, in any state and asked as often as wanted before and after the open one:
it lists what passes of what the open search lists, the types as well as the arrays of all objects;
but the array of the argument of a generic collection it lists in any case. So the two agree exactly
if there is no such array or it passes. -/
theorem subtypesFiltered (w : Workspace) (id : ScopeId) (before after : List Search) (deep : Bool)
    (list : List String) (d : Definition) :
    let whole := ((subtypes id deep none d).run (w.searched id before)).1
    let kept := ((subtypes id deep (some list) d).run (w.searched id after)).1
    let arrays := d.collects.toList.map (fun e => Listing.arrayOf e.unlinked)
    (∃ declared objects, whole.map Definition.listed = declared ++ arrays ++ objects ∧
      kept.map Definition.listed = declared.filter (fun l => list.contains l.ns) ++ arrays ++
        objects.filter (fun l => list.contains l.ns)) ∧
    (kept.map Definition.listed =
        (whole.filter (fun e => list.contains e.ns)).map Definition.listed ↔
      ∀ e, d.collects = some e → list.contains e.ns = true) := by
  intro whole kept arrays
  have open_ : whole.map Definition.listed = (w.subtypesListed id deep none d).1 ++ arrays ++
      (w.subtypesListed id deep none d).2 := by
    rw [← (searchedSame w id before).listed]
    exact subtypesRun ..
  have some_ : kept.map Definition.listed =
      (w.subtypesListed id deep none d).1.filter (fun l => list.contains l.ns) ++
      arrays ++ (w.subtypesListed id deep none d).2.filter (fun l => list.contains l.ns) := by
    have run := subtypesRun (w.searched id after) id deep (some list) d
    rwa [(searchedSame w id after).listed, filteredListed] at run
  have filtered : (whole.filter (fun e => list.contains e.ns)).map Definition.listed =
      (whole.map Definition.listed).filter (fun l => list.contains l.ns) := filterListed list whole
  refine ⟨⟨_, _, open_, some_⟩, ?_⟩
  rw [some_, filtered, open_, List.filter_append, List.filter_append, List.append_left_inj,
    List.append_right_inj, eq_comm, List.filter_eq_self]
  cases given : d.collects with
  | none => simp [arrays, given]
  | some e =>
    simp only [arrays, given, Option.toList_some, List.map_cons, List.map_nil, List.mem_singleton,
      forall_eq, Option.some.injEq, forall_eq']
    rfl

def collectionLoading : List Event :=
  [.opens "app", .writes ⟨⟨0⟩, "List.cs", [],
    [{ Blueprint.bare listName .classType with typeParameters := [⟨"T", []⟩] }]⟩, .ingests 0 0]

theorem subtypesUnfiltered : ∃ d after,
    (getType 0 .deep .exact listName [TypeRef.named indexTypeName]).run
      (Session.run collectionLoading).workspace = (some d, after) ∧
    ((subtypes 0 true none d).run after).1.filter (fun e => ["App"].contains e.ns) = [] ∧
    ((subtypes 0 true (some ["App"]) d).run after).1.map Definition.fullName =
      ["System.Int32[]"] := by
  refine ⟨_, _, rfl, ?_, ?_⟩
  · rw [← List.isEmpty_iff]
    decide +kernel
  · decide +kernel

end Answers
end TypeScope
