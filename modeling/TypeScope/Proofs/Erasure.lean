import TypeScope.Proofs.Declarations
import TypeScope.Proofs.Queries
import TypeScope.Proofs.Updates

/-! What remains of stored types when nobody asks which object they are or what their references
were found to be. Whatever a store does with types, it does with what remains of them: reading,
uniting and replacing files never look at stamps and links. -/
namespace TypeScope

section Definitions

def Table.mapped {κ α β : Type} (f : α → β) (t : Table κ α) : Table κ β :=
  ⟨t.entries.map (fun e => (e.1, f e.2))⟩

def Parameter.bare (p : Parameter) : Parameter := { p with type := p.type.unlinked }

def Member.bare (m : Member) : Member := { m with parameters := m.parameters.map Parameter.bare }

def Body.bare (b : Body) : Body :=
  { b with
    base := b.base.map TypeRef.unlinked
    interfaces := b.interfaces.map TypeRef.unlinked
    members := b.members.map Member.bare }

mutual
def Declared.bare : Declared → Declared
  | ⟨_, body, nested, parts⟩ =>
      ⟨Stamp.at 0, body.bare, Declared.bareAll nested, Declared.bareAll parts⟩
  termination_by structural d => d

def Declared.bareAll : List Declared → List Declared
  | [] => []
  | d :: rest => Declared.bare d :: Declared.bareAll rest
  termination_by structural ds => ds
end

def CompilationUnit.bare (u : CompilationUnit) : CompilationUnit :=
  { u with types := u.types.map Declared.bare }

def Fragment.bare (f : Fragment) : Fragment := { f with type := f.type.bare }

def Store.bare (s : Store) : Store where
  units := s.units.mapped CompilationUnit.bare
  fragments := s.fragments.mapped (List.map Fragment.bare)
  logical := s.logical.mapped (List.map Declared.bare)
  folded := s.folded

end Definitions

namespace Table

theorem mappedTwice {κ α β γ : Type} (f : α → β) (g : β → γ) (t : Table κ α) :
    (t.mapped f).mapped g = t.mapped (g ∘ f) := by
  rw [mapped, mapped, mapped, List.map_map]
  rfl

variable {κ α β : Type} [DecidableEq κ] (f : α → β)

theorem getMapped (t : Table κ α) (k : κ) : (t.mapped f).get? k = (t.get? k).map f :=
  findMap f t.entries k

theorem putMapped (t : Table κ α) (k : κ) (v : α) :
    (t.put k v).mapped f = (t.mapped f).put k (f v) := by
  have written : ∀ entries : List (κ × α), (write entries k v).map (fun e => (e.1, f e.2)) =
      write (entries.map fun e => (e.1, f e.2)) k (f v) := by
    intro entries
    induction entries with
    | nil => rfl
    | cons e rest ih =>
      rw [List.map_cons, write, write, ← ih]
      split <;> rfl
  rw [mapped, put, written]
  rfl

theorem eraseMapped (t : Table κ α) (k : κ) : (t.erase k).mapped f = (t.mapped f).erase k := by
  rw [mapped, erase, mapped, erase, List.filter_map]
  rfl

theorem gatherMapped {g : α → α} {key : α → κ} (same : ∀ x, key (g x) = key x) (xs : List α) :
    gather key (xs.map g) = (gather key xs).mapped (List.map g) := by
  have keys : (xs.map g).map key = xs.map key := by
    rw [List.map_map]
    exact List.map_congr_left fun x _ => same x
  have entries := gatherEntries key (xs.map g)
  rw [keys] at entries
  rw [mapped, gatherEntries, List.map_map]
  refine congrArg Table.mk (entries.trans (List.map_congr_left fun k _ => ?_))
  simp [List.filter_map, Function.comp_def, same]

end Table

section Types

theorem Declared.bareAllMap (ds : List Declared) : bareAll ds = ds.map bare := by
  induction ds with
  | nil => rfl
  | cons d rest ih => rw [bareAll, ih, List.map_cons]

theorem TypeRef.canonicalUnlinked (r : TypeRef) : r.unlinked.canonical = r.canonical := by
  obtain ⟨ns, outer, last, marks, link⟩ := r
  rfl

theorem TypeRef.unlinkedTwice (r : TypeRef) : r.unlinked.unlinked = r.unlinked := rfl

theorem Links.currentUnlinked (links : Links) (site : Site) (r : TypeRef) :
    (links.current site r).unlinked = r.unlinked := by
  rw [current]
  split <;> rfl

theorem Member.bareTwice (m : Member) : m.bare.bare = m.bare := by
  simp [bare, Parameter.bare, TypeRef.unlinked, Function.comp_def]

theorem Body.bareTwice (b : Body) : b.bare.bare = b.bare := by
  simp [bare, Function.comp_def, TypeRef.unlinkedTwice, Member.bareTwice]

mutual
theorem Declared.bareTwice (d : Declared) : d.bare.bare = d.bare := by
  obtain ⟨stamp, body, nested, parts⟩ := d
  rw [bare, bare, Body.bareTwice, bareAllTwice nested, bareAllTwice parts]

theorem Declared.bareAllTwice (ds : List Declared) : bareAll (bareAll ds) = bareAll ds := by
  cases ds with
  | nil => rfl
  | cons d rest => rw [bareAll, bareAll, bareTwice d, bareAllTwice rest]
end

theorem Declared.bareNested (d : Declared) : d.bare.nested = d.nested.map bare := by
  obtain ⟨stamp, body, nested, parts⟩ := d
  exact bareAllMap nested

theorem Declared.bareBody (d : Declared) : d.bare.body = d.body.bare := by
  obtain ⟨stamp, body, nested, parts⟩ := d
  rfl

theorem Declared.bareName (d : Declared) : d.bare.fullName = d.fullName := by
  rw [fullName, bareBody]
  rfl

theorem Declared.bareArity (d : Declared) : d.bare.arity = d.arity := by
  rw [arity, bareBody]
  rfl

theorem Member.settledBare (links : Links) (site : Site) (m : Member) :
    (m.settled links site).bare = m.bare := by
  rw [settled]
  split
  · rfl
  · next first rest listed =>
    simp [bare, listed, Parameter.bare, Links.currentUnlinked]

theorem Body.settledBare (links : Links) (holder : Stamp) (b : Body) :
    (b.settled links holder).bare = b.bare := by
  have base : (b.base.map (links.current ⟨holder, .base 0⟩)).map TypeRef.unlinked =
      b.base.map TypeRef.unlinked := by
    rw [Option.map_map]
    exact congrArg (fun f => b.base.map f) (funext fun r => links.currentUnlinked _ r)
  have each : ∀ {α : Type} (g : α → α) (f : Nat → α → α) (xs : List α),
      (∀ i x, g (f i x) = g x) → (xs.mapIdx f).map g = xs.map g := by
    intro α g f xs same
    refine List.ext_getElem (by simp) fun i here there => ?_
    simp [same]
  rw [bare, settled, bare]
  dsimp only
  rw [base, each _ _ _ fun i r => links.currentUnlinked _ r,
    each _ _ _ fun i m => m.settledBare links _]

mutual
theorem Declared.settledBare (links : Links) (d : Declared) : (d.settled links).bare = d.bare := by
  obtain ⟨stamp, body, nested, parts⟩ := d
  rw [settled, bare, bare, Body.settledBare, settledAllBare links nested]

theorem Declared.settledAllBare (links : Links) (ds : List Declared) :
    bareAll (settledAll links ds) = bareAll ds := by
  cases ds with
  | nil => rfl
  | cons d rest => rw [settledAll, bareAll, bareAll, settledBare links d, settledAllBare links rest]
end

mutual
theorem Declared.preorderBare (d : Declared) : d.bare.preorder = d.preorder.map bare := by
  obtain ⟨stamp, body, nested, parts⟩ := d
  rw [bare, preorder, preorder, List.map_cons, bare, preordersBare nested]

theorem Declared.preordersBare (ds : List Declared) :
    preorders (bareAll ds) = (preorders ds).map bare := by
  cases ds with
  | nil => rfl
  | cons d rest =>
    rw [bareAll, preorders, preorders, List.map_append, preorderBare d, preordersBare rest]
end

theorem CompilationUnit.bareTypes (u : CompilationUnit) :
    u.bare.allTypes = u.allTypes.map Declared.bare := by
  rw [allTypesPreorders, allTypesPreorders, bare, ← Declared.bareAllMap, Declared.preordersBare]

section Built
open Blueprint

mutual
theorem Blueprint.buildInBare (file : Option FileId) (around : Option Around)
    (stamp other : Stamp) (b : Blueprint) :
    (buildIn file around stamp b).bare = (buildIn file around other b).bare := by
  obtain ⟨fullName, kind, modifiers, parameters, base, interfaces, members, nested, location⟩ := b
  rw [buildIn, buildIn, Declared.bare, Declared.bare,
    buildAllBare file _ stamp other 0 nested]

theorem Blueprint.buildAllBare (file : Option FileId) (around : Option Around)
    (stamp other : Stamp) (i : Nat) (bs : List Blueprint) :
    Declared.bareAll (buildAll file around stamp i bs) =
      Declared.bareAll (buildAll file around other i bs) := by
  cases bs with
  | nil => rfl
  | cons b rest =>
    rw [buildAll, buildAll, Declared.bareAll, Declared.bareAll,
      buildInBare file around (stamp.child i) (other.child i) b,
      buildAllBare file around stamp other (i + 1) rest]
end

theorem CompilationUnit.buildBare (stamp other : Stamp) (file : FileId) (fileName : String)
    (usings : List UsingDirective) (types : List Blueprint) :
    (build stamp file fileName usings types).bare =
      (build other file fileName usings types).bare := by
  rw [build, build, bare, bare, ← Declared.bareAllMap, ← Declared.bareAllMap,
    Blueprint.buildAllBare (some file) none stamp other 0 types]

end Built

section United
open Declared

theorem withoutRepeatsUnlinked (rs : List TypeRef) :
    withoutRepeats (rs.map TypeRef.unlinked) = (withoutRepeats rs).map TypeRef.unlinked := by
  induction rs with
  | nil => rfl
  | cons r rest ih =>
    rw [List.map_cons, withoutRepeats, withoutRepeats, ih, List.map_cons, List.filter_map]
    simp [Function.comp_def, TypeRef.same, TypeRef.canonicalUnlinked]

theorem unitedBodyBare (first : Declared) (rest : List Declared) :
    unitedBody first.bare (rest.map bare) = (unitedBody first rest).bare := by
  have bodies : (first.bare :: rest.map bare).map Declared.body =
      ((first :: rest).map Declared.body).map Body.bare := by
    rw [← List.map_cons, List.map_map, List.map_map]
    exact List.map_congr_left fun d _ => d.bareBody
  have bases : ∀ bs : List Body, (bs.map Body.bare).findSome? Body.base =
      (bs.findSome? Body.base).map TypeRef.unlinked := by
    intro bs
    induction bs with
    | nil => rfl
    | cons b rest ih =>
      rw [List.map_cons, List.findSome?_cons, List.findSome?_cons, ih]
      have own : b.bare.base = b.base.map TypeRef.unlinked := rfl
      rw [own]
      cases b.base <;> rfl
  have interfaces : ∀ bs : List Body, (bs.map Body.bare).flatMap Body.interfaces =
      (bs.flatMap Body.interfaces).map TypeRef.unlinked := by
    intro bs
    rw [List.flatMap_map, List.map_flatMap]
    rfl
  have members : ∀ bs : List Body, (bs.map Body.bare).flatMap Body.members =
      (bs.flatMap Body.members).map Member.bare := by
    intro bs
    rw [List.flatMap_map, List.map_flatMap]
    rfl
  have modifiers : ∀ (bs : List Body) (m : Modifiers),
      (bs.map Body.bare).foldl (fun m b => m.union b.modifiers) m =
        bs.foldl (fun m b => m.union b.modifiers) m := by
    intro bs m
    rw [List.foldl_map]
    rfl
  have parameters : ∀ bs : List Body,
      (bs.map Body.bare).map Body.typeParameters = bs.map Body.typeParameters := by
    intro bs
    rw [List.map_map]
    rfl
  rw [unitedBody, bodies, unitedBody, Body.bare]
  dsimp only
  rw [bases, interfaces, members, modifiers, parameters, withoutRepeatsUnlinked, first.bareBody]
  rfl

mutual
theorem heightBare (d : Declared) : d.bare.height = d.height := by
  obtain ⟨stamp, body, nested, parts⟩ := d
  rw [bare, height, height, heightsBare nested]

theorem heightsBare (ds : List Declared) : heights (bareAll ds) = heights ds := by
  cases ds with
  | nil => rfl
  | cons d rest => rw [bareAll, heights, heights, heightBare d, heightsBare rest]
end

theorem nestedGroupsBare (ds : List Declared) :
    nestedGroups (ds.map bare) = (nestedGroups ds).map (List.map bare) := by
  have nested : (ds.map bare).flatMap Declared.nested = (ds.flatMap Declared.nested).map bare := by
    rw [List.flatMap_map, List.map_flatMap]
    simp only [bareNested]
  rw [nestedGroups, nestedGroups, nested,
    Table.gatherMapped fun d => by rw [bareName, bareArity], Table.values, Table.values,
    Table.mapped, List.map_map, List.map_map]
  rfl

theorem compoundBare (stamp other : Stamp) (first : Declared) (rest : List Declared)
    {nested others : List Declared} (same : nested.map bare = others.map bare) :
    Declared.bare ⟨stamp, unitedBody first.bare (rest.map bare), nested,
        first.bare :: rest.map bare⟩ =
      Declared.bare ⟨other, unitedBody first rest, others, first :: rest⟩ := by
  have parts : (first.bare :: rest.map bare).map bare = (first :: rest).map bare := by
    rw [← List.map_cons, List.map_map]
    exact List.map_congr_left fun d _ => d.bareTwice
  rw [bare, bare, unitedBodyBare, Body.bareTwice, bareAllMap, bareAllMap, bareAllMap, bareAllMap,
    same, parts]

theorem uniteGroupsBare {f : Stamp → List Declared → Option Declared}
    (one : ∀ stamp other ds, (f stamp (ds.map bare)).map bare = (f other ds).map bare)
    (stamp other : Stamp) (groups : List (List Declared)) (n : Nat) :
    (((groups.map (List.map bare)).zipIdx n).filterMap (fun g => f (stamp.child g.2) g.1)).map
        bare =
      ((groups.zipIdx n).filterMap (fun g => f (other.child g.2) g.1)).map bare := by
  induction groups generalizing n with
  | nil => rfl
  | cons ds rest ih =>
    have first := one (stamp.child n) (other.child n) ds
    have later := ih (n + 1)
    simp only [List.map_cons, List.zipIdx_cons, List.filterMap_cons]
    rcases Query.bothOrNeither first with ⟨left, right⟩ | ⟨d, e, left, right, same⟩
    · rw [left, right]
      exact later
    · rw [left, right, List.map_cons, List.map_cons, same, later]

theorem uniteToBare (depth : Nat) (stamp other : Stamp) (ds : List Declared) :
    (uniteTo depth stamp (ds.map bare)).map bare = (uniteTo depth other ds).map bare := by
  induction depth generalizing stamp other ds with
  | zero =>
    match ds with
    | [] => rfl
    | [only] => exact congrArg some only.bareTwice
    | first :: second :: rest =>
      exact congrArg some (compoundBare stamp other first (second :: rest) rfl)
  | succ depth ih =>
    match ds with
    | [] => rfl
    | [only] => exact congrArg some only.bareTwice
    | first :: second :: rest =>
      refine congrArg some (compoundBare stamp other first (second :: rest) ?_)
      have groups : nestedGroups (first.bare :: (second :: rest).map bare) =
          (nestedGroups (first :: second :: rest)).map (List.map bare) :=
        nestedGroupsBare (first :: second :: rest)
      rw [groups]
      exact uniteGroupsBare ih stamp other _ 0

theorem uniteBare (stamp other : Stamp) (ds : List Declared) :
    (unite stamp (ds.map bare)).map bare = (unite other ds).map bare := by
  rw [unite, unite, ← bareAllMap, heightsBare, bareAllMap]
  exact uniteToBare _ stamp other ds

end United
end Types

namespace Store

theorem uniteByArityBare (stamp other : Stamp) (ds : List Declared) :
    (uniteByArity stamp (ds.map Declared.bare)).map Declared.bare =
      (uniteByArity other ds).map Declared.bare := by
  have groups : (Table.gather Declared.arity (ds.map Declared.bare)).values =
      (Table.gather Declared.arity ds).values.map (List.map Declared.bare) := by
    rw [Table.gatherMapped Declared.bareArity, Table.values, Table.values, Table.mapped,
      List.map_map, List.map_map]
    rfl
  rw [uniteByArity, uniteByArity, groups]
  exact uniteGroupsBare uniteBare stamp other _ 0

variable (s : Store)

theorem fragmentsBare (name : String) :
    s.bare.fragmentsOf name = (s.fragmentsOf name).map Fragment.bare := by
  rw [fragmentsOf, Store.bare, Table.getMapped, fragmentsOf]
  cases s.fragments.get? name <;> rfl

theorem bareTwice : s.bare.bare = s.bare := by
  have types : List.map Declared.bare ∘ List.map Declared.bare = List.map Declared.bare := by
    rw [List.map_comp_map]
    exact congrArg List.map (funext Declared.bareTwice)
  have units : CompilationUnit.bare ∘ CompilationUnit.bare = CompilationUnit.bare :=
    funext fun u => by
      rw [Function.comp_apply, CompilationUnit.bare, CompilationUnit.bare]
      exact congrArg (fun ds => ({ u with types := ds } : CompilationUnit)) (congrFun types u.types)
  have fragments : Fragment.bare ∘ Fragment.bare = Fragment.bare := funext fun f => by
    rw [Function.comp_apply, Fragment.bare, Fragment.bare, Declared.bareTwice]
  have fragmentLists : List.map Fragment.bare ∘ List.map Fragment.bare = List.map Fragment.bare := by
    rw [List.map_comp_map, fragments]
  rw [Store.bare, Store.bare, Table.mappedTwice, Table.mappedTwice, Table.mappedTwice, units,
    fragmentLists, types]

theorem settledBare (links : Links) : (s.settled links).bare = s.bare := by
  have same : (List.map Fragment.bare) ∘ (List.map fun f : Fragment =>
      { f with type := f.type.settled links }) = List.map Fragment.bare := by
    rw [List.map_comp_map]
    refine congrArg List.map (funext fun f => ?_)
    rw [Function.comp_apply, Fragment.bare, Declared.settledBare]
    rfl
  have fragments := Table.mappedTwice (fun fs : List Fragment =>
    fs.map fun f => { f with type := f.type.settled links }) (List.map Fragment.bare) s.fragments
  rw [same] at fragments
  exact congrArg (fun table => ({ s.bare with fragments := table } : Store)) fragments

theorem withdrawBare (file : FileId) (name : String) :
    (s.withdraw file name).bare = s.bare.withdraw file name := by
  have known : s.bare.fragments.get? name = (s.fragments.get? name).map (List.map Fragment.bare) :=
    Table.getMapped _ s.fragments name
  rw [withdraw, withdraw, known]
  cases s.fragments.get? name with
  | none => rfl
  | some list =>
    have kept : (list.filter fun f => f.file ≠ file).map Fragment.bare =
        (list.map Fragment.bare).filter fun f => f.file ≠ file := by
      rw [List.filter_map]
      rfl
    have put := Table.putMapped (List.map Fragment.bare) s.fragments name
      (list.filter fun f => f.file ≠ file)
    rw [kept] at put
    exact congrArg (fun table => ({ s.bare with fragments := table } : Store)) put

theorem declareBare (file : FileId) (d : Declared) :
    (s.declare file d).bare = s.bare.declare file d.bare := by
  have put := Table.putMapped (List.map Fragment.bare) s.fragments d.fullName
    (s.fragmentsOf d.fullName ++ [⟨file, d⟩])
  rw [List.map_append, ← fragmentsBare] at put
  rw [declare, declare, Declared.bareName]
  exact congrArg (fun table => ({ s.bare with fragments := table } : Store)) put

theorem rebuildBare (stamp other : Stamp) (name : String) :
    (s.bare.rebuild stamp name).bare = (s.rebuild other name).bare := by
  have same := s.fragmentsBare name
  have units : s.bare.units.mapped CompilationUnit.bare = s.bare.units :=
    congrArg Store.units s.bareTwice
  have fragments : s.bare.fragments.mapped (List.map Fragment.bare) = s.bare.fragments :=
    congrArg Store.fragments s.bareTwice
  have logical : s.bare.logical.mapped (List.map Declared.bare) = s.bare.logical :=
    congrArg Store.logical s.bareTwice
  by_cases empty : s.fragmentsOf name = []
  · rw [empty] at same
    rw [rebuildWithout same, rebuildWithout empty, Store.bare]
    dsimp only
    rw [Table.eraseMapped, Table.eraseMapped, units, fragments, logical, Store.bare, Store.bare,
      Table.eraseMapped, Table.eraseMapped]
  · have filled : s.bare.fragmentsOf name ≠ [] := by
      rw [same]
      exact fun none_ => empty (List.map_eq_nil_iff.mp none_)
    have types : (s.bare.fragmentsOf name).map Fragment.type =
        ((s.fragmentsOf name).map Fragment.type).map Declared.bare := by
      rw [same, List.map_map, List.map_map]
      rfl
    have united := uniteByArityBare stamp other ((s.fragmentsOf name).map Fragment.type)
    rw [rebuildWith filled, rebuildWith empty, types, Store.bare]
    dsimp only
    rw [Table.putMapped, units, fragments, logical, united, Store.bare, Store.bare,
      Table.putMapped]

theorem typesBare (unit : Option CompilationUnit) :
    (unit.map CompilationUnit.bare).elim [] CompilationUnit.allTypes =
      (unit.elim [] CompilationUnit.allTypes).map Declared.bare := by
  cases unit with
  | none => rfl
  | some u => exact u.bareTypes

theorem affectedBare (file : FileId) (unit : Option CompilationUnit) :
    s.bare.affected file (unit.map CompilationUnit.bare) = s.affected file unit := by
  have named : ∀ ds : List Declared,
      (ds.map Declared.bare).map Declared.fullName = ds.map Declared.fullName := fun ds => by
    rw [List.map_map]
    exact List.map_congr_left fun d _ => d.bareName
  have units : s.bare.units.get? file = (s.units.get? file).map CompilationUnit.bare :=
    Table.getMapped _ s.units file
  rw [affected, affected, units, typesBare, typesBare, ← List.map_append, named]

theorem exchangeBare (file : FileId) (unit : Option CompilationUnit) :
    (s.exchange file unit).bare = s.bare.exchange file (unit.map CompilationUnit.bare) := by
  have withdrawn : ∀ (names : List String) (s : Store),
      (names.foldl (fun s name => s.withdraw file name) s).bare =
        names.foldl (fun s name => s.withdraw file name) s.bare := by
    intro names
    induction names with
    | nil => exact fun s => rfl
    | cons name rest ih => exact fun s => (ih _).trans (by rw [withdrawBare, List.foldl_cons])
  have declared : ∀ (ds : List Declared) (s : Store),
      (ds.foldl (fun s d => s.declare file d) s).bare =
        (ds.map Declared.bare).foldl (fun s d => s.declare file d) s.bare := by
    intro ds
    induction ds with
    | nil => exact fun s => rfl
    | cons d rest ih =>
      exact fun s => (ih _).trans (by rw [declareBare, List.map_cons, List.foldl_cons])
  have started : Store.bare { s with
        units := unit.elim (s.units.erase file) ((s.units.erase file).put file) } =
      { s.bare with
        units := (unit.map CompilationUnit.bare).elim (s.bare.units.erase file)
          ((s.bare.units.erase file).put file) } := by
    have erased := Table.eraseMapped CompilationUnit.bare s.units file
    rw [Store.bare]
    cases unit with
    | none => exact congrArg (fun table => ({ s.bare with units := table } : Store)) erased
    | some u =>
      have put := Table.putMapped CompilationUnit.bare (s.units.erase file) file u
      rw [erased] at put
      exact congrArg (fun table => ({ s.bare with units := table } : Store)) put
  rw [exchange, exchange, affectedBare, typesBare, declared, withdrawn, started]

theorem rebuildsBare (stamp other : Stamp) (names : List (String × Nat)) :
    (names.foldl (fun s n => s.rebuild (stamp.child n.2) n.1) s.bare).bare =
      (names.foldl (fun s n => s.rebuild (other.child n.2) n.1) s).bare := by
  have alike : ∀ {s t : Store}, s.bare = t.bare →
      (names.foldl (fun s n => s.rebuild (stamp.child n.2) n.1) s).bare =
        (names.foldl (fun s n => s.rebuild (other.child n.2) n.1) t).bare := by
    induction names with
    | nil => exact fun same => same
    | cons first rest ih =>
      intro s t same
      refine ih ?_
      rw [← rebuildBare s (stamp.child first.2), same, rebuildBare]
  exact alike s.bareTwice

theorem replaceBare (stamp other : Stamp) (file : FileId) (unit : Option CompilationUnit) :
    (s.bare.replaceFile stamp file (unit.map CompilationUnit.bare)).1.bare =
        (s.replaceFile other file unit).1.bare ∧
      (s.bare.replaceFile stamp file (unit.map CompilationUnit.bare)).2 =
        (s.replaceFile other file unit).2 := by
  have stored : (s.bare.replaceFile stamp file (unit.map CompilationUnit.bare)).1.bare =
      (s.replaceFile other file unit).1.bare := by
    rw [replaceExchanged, replaceExchanged, affectedBare, ← exchangeBare, rebuildsBare]
  refine ⟨stored, ?_⟩
  have emptied : ∀ (s : Store) name, (s.bare.fragmentsOf name).isEmpty =
      (s.fragmentsOf name).isEmpty := fun s name => by
    rw [fragmentsBare, List.isEmpty_map]
  have before : ∀ name, (s.bare.fragmentsOf name).isEmpty = (s.fragmentsOf name).isEmpty :=
    emptied s
  have after : ∀ name, ((s.bare.replaceFile stamp file (unit.map
      CompilationUnit.bare)).1.fragmentsOf name).isEmpty =
        ((s.replaceFile other file unit).1.fragmentsOf name).isEmpty := fun name => by
    rw [← emptied, stored, emptied]
  have report : ∀ (s : Store) stamp unit, (s.replaceFile stamp file unit).2 =
      (s.affected file unit).foldl (fun r name => r.note name
        (((s.affected file unit).filter fun name => !(s.fragmentsOf name).isEmpty).contains name)
        (!((s.replaceFile stamp file unit).1.fragmentsOf name).isEmpty)) Report.empty :=
    fun _ _ _ => rfl
  rw [report, report, affectedBare]
  simp only [before, after]

theorem candidatesBare (name : String) :
    s.bare.candidates name = (s.candidates name).map Declared.bare := by
  rw [candidates, Store.bare, Table.getMapped, candidates]
  cases s.logical.get? name <;> rfl

theorem findBare (name : String) (arity : Nat) :
    s.bare.find name arity = (s.find name arity).map Declared.bare := by
  rw [find, candidatesBare, List.find?_map, find]
  simp only [Function.comp_def, Declared.bareArity]

theorem lookupBare (rule : CaseRule) (name : String) (arity : Nat) :
    s.bare.lookup rule name arity = (s.lookup rule name arity).map Declared.bare := by
  unfold lookup
  rw [findBare]
  cases s.find name arity with
  | some d => rfl
  | none =>
    cases rule with
    | exact => rfl
    | relaxed =>
      have spellings : s.bare.spellingsOf name = s.spellingsOf name := rfl
      simp only [Option.map_none, spellings, findBare]
      induction s.spellingsOf name with
      | nil => rfl
      | cons spelling rest ih =>
        rw [List.findSome?_cons, List.findSome?_cons]
        cases s.find spelling arity <;> simp [ih]

end Store
end TypeScope
