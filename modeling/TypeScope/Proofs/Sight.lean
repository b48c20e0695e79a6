import TypeScope.Inheritance
import TypeScope.Proofs.Mentions
import TypeScope.Proofs.Queries

/-! What lookups can come upon. However many instances and placeholders a walk makes on the way,
their names and numbers of bases are those of definitions that were in sight before; only arrays
are new. -/
namespace TypeScope

structure Horizon where
  names : List String
  width : Nat

namespace Horizon

def coversType (h : Horizon) (t : Declared) : Prop :=
  t.decoratedName ∈ h.names ∧ t.body.bases.length ≤ h.width ∧
    ∀ p ∈ t.body.typeParameters, p.name ∈ h.names ∧ p.constraints.length ≤ h.width

def coversOpen (h : Horizon) : OpenType → Prop
  | .declared t => h.coversType t
  | .array a =>
      (Definition.unbound (.array a)).decoratedName ∈ h.names ∧ a.body.bases.length ≤ h.width
  | .placeholder p =>
      h.coversType p.owner ∧ p.parameter.name ∈ h.names ∧
        p.parameter.constraints.length ≤ h.width

def covers (h : Horizon) (d : Definition) : Prop :=
  h.coversOpen d.openType ∧ d.body.bases.length ≤ h.width

def Origin (h : Horizon) (d : Definition) : Prop :=
  match d.openType with
  | .declared t => h.coversType t
  | .placeholder p => h.coversType p.owner
  | .array _ => True

variable {h : Horizon} {d : Definition} {t : Declared}

theorem placeholderName (p : Placeholder) :
    (Definition.unbound (.placeholder p)).decoratedName = p.parameter.name := by
  have full : p.body.fullName = p.parameter.name := rfl
  have bare : p.body.arity = 0 := rfl
  rw [Definition.decoratedName, Arity.decorate]
  exact (if_pos bare).trans full

theorem coversName (covered : h.covers d) : d.decoratedName ∈ h.names := by
  obtain ⟨inside, -⟩ := covered
  have own : d.decoratedName = (Definition.unbound d.openType).decoratedName := by
    cases d <;> rfl
  rw [own]
  cases open_ : d.openType with
  | declared t =>
    rw [open_] at inside
    exact inside.1
  | array a =>
    rw [open_] at inside
    exact inside.1
  | placeholder p =>
    rw [open_] at inside
    rw [placeholderName]
    exact inside.2.1

theorem coversOrigin (covered : h.coversOpen d.openType) : h.Origin d := by
  unfold Origin
  cases open_ : d.openType with
  | declared t =>
    rw [open_] at covered
    exact covered
  | array a => trivial
  | placeholder p =>
    rw [open_] at covered
    exact covered.1

theorem coversDeclared (covered : h.coversType t) : h.covers (.ofDeclared t) :=
  ⟨covered, covered.2.1⟩

theorem openWidth {o : OpenType} (covered : h.coversOpen o) : o.body.bases.length ≤ h.width := by
  cases o with
  | declared t => exact covered.2.1
  | array a => exact covered.2
  | placeholder p => exact covered.2.2

theorem coversUnbound {o : OpenType} (covered : h.coversOpen o) : h.covers (.unbound o) :=
  ⟨covered, openWidth covered⟩

end Horizon

def Scope.lasting (scope : Scope) : String × Store × List ScopeId :=
  (scope.uri, scope.store, scope.references)

def Workspace.lasting (w : Workspace) : List (String × Store × List ScopeId) :=
  w.scopes.map Scope.lasting

structure Within (h : Horizon) (graph : List (String × Store × List ScopeId)) (w : Workspace) :
    Prop where
  graph : w.lasting = graph
  stored : ∀ scope ∈ w.scopes, ∀ t ∈ scope.store.allTypes, h.coversType t
  cached : ∀ scope ∈ w.scopes, ∀ d ∈ scope.cache.values, h.covers d
  linked : ∀ d ∈ w.targets.values, h.covers d

section Within
variable {h : Horizon} {graph : List (String × Store × List ScopeId)} {w : Workspace}

theorem Within.scopeOf (within : Within h graph w) (id : ScopeId) :
    (∀ t ∈ (w.store id).allTypes, h.coversType t) ∧
      ∀ d ∈ (w.scope id).cache.values, h.covers d := by
  rw [Workspace.store, Workspace.scope, List.getD_eq_getElem?_getD]
  cases found : w.scopes[id]? with
  | none =>
    refine ⟨fun t empty => ?_, fun d empty => ?_⟩
    · cases empty
    · cases empty
  | some scope =>
    have mem := List.mem_of_getElem? found
    exact ⟨within.stored scope mem, within.cached scope mem⟩

theorem Store.candidatesMem {s : Store} {name : String} {t : Declared}
    (mem : t ∈ s.candidates name) : t ∈ s.allTypes := by
  rw [candidates] at mem
  cases found : s.logical.get? name with
  | none =>
    rw [found] at mem
    cases mem
  | some types =>
    rw [found] at mem
    exact List.mem_flatten.mpr ⟨types, Table.valueOfGet found, mem⟩

theorem Store.lookupMem {s : Store} {rule : CaseRule} {name : String} {arity : Nat} {t : Declared}
    (found : s.lookup rule name arity = some t) : t ∈ s.allTypes := by
  unfold lookup at found
  split at found
  · rename_i own first
    cases found
    exact candidatesMem (List.mem_of_find?_eq_some first)
  · split at found
    · cases found
    · obtain ⟨spelling, -, here⟩ := List.exists_of_findSome?_eq_some found
      exact candidatesMem (List.mem_of_find?_eq_some here)

theorem Store.enclosingMem {s : Store} {outer name : String} {arity : Nat} {t : Declared}
    (found : Workspace.enclosingIn s outer name arity = some t) : t ∈ s.candidates outer := by
  rcases Option.or_eq_some_iff.mp found with nests | ⟨-, head⟩
  · exact List.mem_of_find?_eq_some nests
  · exact List.mem_of_head? head

theorem Within.findType (within : Within h graph w) {id : ScopeId} {depth : Depth}
    {rule : CaseRule} {name : String} {arity : Nat} {t : Declared}
    (found : w.findType id depth rule name arity = some t) : h.coversType t := by
  obtain ⟨at_, -, here⟩ := List.exists_of_findSome?_eq_some found
  exact (within.scopeOf at_).1 t (Store.lookupMem here)

theorem Within.declaringType (within : Within h graph w) {id : ScopeId} {d outer : Definition}
    (origin : h.Origin d) (found : w.declaringType id d = some outer) : h.Origin outer := by
  unfold Workspace.declaringType at found
  unfold Horizon.Origin at origin
  cases open_ : d.openType with
  | placeholder p =>
    rw [open_] at found origin
    cases found
    exact origin
  | array a =>
    rw [open_] at found
    cases found
  | declared t =>
    rw [open_] at found
    obtain ⟨name, -, later⟩ := Option.bind_eq_some_iff.mp found
    obtain ⟨at_, -, here⟩ := List.exists_of_findSome?_eq_some later
    obtain ⟨c, enclosing, rfl⟩ := Option.map_eq_some_iff.mp here
    exact (within.scopeOf at_).1 c (Store.candidatesMem (Store.enclosingMem enclosing))

theorem Within.outwardFrom (within : Within h graph w) {id : ScopeId} {steps : Nat}
    {d : Definition} (origin : h.Origin d) :
    ∀ outer ∈ w.outwardFrom id steps d, h.Origin outer := by
  induction steps generalizing d with
  | zero =>
    intro outer mem
    cases mem
  | succ steps ih =>
    intro outer mem
    unfold Workspace.outwardFrom at mem
    rcases List.mem_cons.mp mem with here | later
    · rw [here]
      exact origin
    · cases around : w.declaringType id d with
      | none =>
        rw [around] at later
        cases later
      | some next =>
        rw [around] at later
        exact ih (within.declaringType origin around) outer later

end Within

namespace Workspace
variable {w after : Workspace}

theorem lastingScope (same : after.lasting = w.lasting) (id : ScopeId) :
    (after.scope id).lasting = (w.scope id).lasting := by
  rw [lasting, lasting] at same
  rw [viewAt Scope.lasting, viewAt Scope.lasting, same]

theorem visitLasting (same : after.lasting = w.lasting) (steps : Nat) (visited : List String)
    (queue : List ScopeId) : after.visit steps visited queue = w.visit steps visited queue := by
  have named : ∀ id, after.uri id = w.uri id := fun id => congrArg Prod.fst (lastingScope same id)
  have refer : ∀ id, (after.scope id).references = (w.scope id).references := fun id =>
    congrArg (fun lasting => lasting.2.2) (lastingScope same id)
  induction steps generalizing visited queue with
  | zero => rfl
  | succ steps ih =>
    unfold visit
    simp only [named, refer, ih]

theorem findTypeLasting (same : after.lasting = w.lasting) (id : ScopeId) (depth : Depth)
    (rule : CaseRule) (name : String) (arity : Nat) :
    after.findType id depth rule name arity = w.findType id depth rule name arity := by
  have stored : ∀ id, after.store id = w.store id := fun id =>
    congrArg (fun lasting => lasting.2.1) (lastingScope same id)
  have refer := congrArg (fun lasting => lasting.2.2) (lastingScope same id)
  have named := congrArg Prod.fst (lastingScope same id)
  have counted : after.scopes.length = w.scopes.length := by
    have lengths := congrArg List.length same
    rwa [lasting, lasting, List.length_map, List.length_map] at lengths
  have consulted : after.consulted id depth = w.consulted id depth := by
    cases depth with
    | shallow => rfl
    | deep =>
      have reached : after.reach id = w.reach id := by
        rw [reach, reach, counted, visitLasting same]
        have uris : after.uri id = w.uri id := named
        have references : (after.scope id).references = (w.scope id).references := refer
        rw [uris, references]
      rw [Workspace.consulted, Workspace.consulted, reached]
  rw [findType, findType, consulted]
  simp only [stored]

end Workspace

section Horizon
open Workspace (brings namesAmong widthsAmong inSight)

theorem leWidest {n : Nat} {ns : List Nat} (mem : n ∈ ns) : n ≤ ns.foldr max 0 := by
  induction ns with
  | nil => cases mem
  | cons first rest ih =>
    rw [List.foldr_cons]
    rcases List.mem_cons.mp mem with same | later
    · rw [same]
      exact Nat.le_max_left _ _
    · exact Nat.le_trans (ih later) (Nat.le_max_right _ _)

def horizonOf (w : Workspace) (start : Definition) : Horizon :=
  ⟨namesAmong (w.inSight start), (widthsAmong (w.inSight start)).foldr max 0⟩

variable {w : Workspace} {start d : Definition}

theorem horizonOpen {o : OpenType} (mem : o ∈ (w.inSight start).flatMap brings) :
    (Definition.unbound o).decoratedName ∈ (horizonOf w start).names ∧
      o.body.bases.length ≤ (horizonOf w start).width ∧
      ∀ p ∈ o.body.typeParameters, p.name ∈ (horizonOf w start).names ∧
        p.constraints.length ≤ (horizonOf w start).width := by
  refine ⟨?_, ?_, fun p inside => ⟨?_, ?_⟩⟩
  · exact List.mem_flatMap.mpr ⟨o, mem, List.mem_cons_self⟩
  · refine leWidest (List.mem_append_right _ ?_)
    exact List.mem_flatMap.mpr ⟨o, mem, List.mem_cons_self⟩
  · refine List.mem_flatMap.mpr ⟨o, mem, List.mem_cons_of_mem _ ?_⟩
    exact List.mem_map.mpr ⟨p, inside, rfl⟩
  · refine leWidest (List.mem_append_right _ ?_)
    refine List.mem_flatMap.mpr ⟨o, mem, List.mem_cons_of_mem _ ?_⟩
    exact List.mem_map.mpr ⟨p, inside, rfl⟩

theorem horizonCovers (mem : d ∈ w.inSight start) : (horizonOf w start).covers d := by
  have brought : ∀ o ∈ brings d, o ∈ (w.inSight start).flatMap brings := fun o inside =>
    List.mem_flatMap.mpr ⟨d, mem, inside⟩
  refine ⟨?_, leWidest (List.mem_append_left _ (List.mem_map.mpr ⟨d, mem, rfl⟩))⟩
  cases open_ : d.openType with
  | declared t =>
    exact horizonOpen (brought (.declared t) (by simp [brings, open_]))
  | array a =>
    have own := horizonOpen (brought (.array a) (by simp [brings, open_]))
    exact ⟨own.1, own.2.1⟩
  | placeholder p =>
    have own := horizonOpen (brought (.placeholder p) (by simp [brings, open_]))
    refine ⟨horizonOpen (brought (.declared p.owner) (by simp [brings, open_])), ?_, own.2.1⟩
    rw [← Horizon.placeholderName]
    exact own.1

theorem horizonWithin (w : Workspace) (start : Definition) :
    Within (horizonOf w start) w.lasting w := by
  have mentioned : ∀ scope ∈ w.scopes, ∀ d ∈ scope.store.allTypes.map Definition.ofDeclared ++
      scope.cache.values, (horizonOf w start).covers d := by
    intro scope inside d mem
    refine horizonCovers (List.mem_cons_of_mem _ (List.mem_append_left _ ?_))
    exact List.mem_flatMap.mpr ⟨scope, inside, mem⟩
  refine ⟨rfl, fun scope inside t mem => ?_, fun scope inside d mem => ?_, fun d mem => ?_⟩
  · exact (mentioned scope inside (.ofDeclared t)
      (List.mem_append_left _ (List.mem_map.mpr ⟨t, mem, rfl⟩))).1
  · exact mentioned scope inside d (List.mem_append_right _ mem)
  · exact horizonCovers (List.mem_cons_of_mem _ (List.mem_append_right _ mem))

end Horizon
end TypeScope
