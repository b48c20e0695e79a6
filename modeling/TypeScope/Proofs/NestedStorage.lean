import TypeScope.Proofs.Outlines
import TypeScope.Proofs.Sight

/-! Nested types are kept twice: inside the type around them, and under their own full name, which
tells the name of the outer type and not its arity. Both are united from the same declarations, of
which the outer type has those that its own fragments nest. -/
namespace TypeScope

theorem filterOnly {α κ : Type} [DecidableEq κ] {key : α → κ} {xs : List α}
    (once : (xs.map key).Nodup) {x : α} (mem : x ∈ xs) :
    xs.filter (fun y => key y = key x) = [x] := by
  induction xs with
  | nil => cases mem
  | cons first rest ih =>
    obtain ⟨new, once⟩ := List.nodup_cons.mp once
    rcases List.mem_cons.mp mem with rfl | later
    · have none_ : rest.filter (fun y => key y = key x) = [] :=
        List.filter_eq_nil_iff.mpr fun y inside same =>
          new (List.mem_map.mpr ⟨y, inside, by simpa using same⟩)
      rw [List.filter_cons, if_pos (by simp), none_]
    · have other : key first ≠ key x := fun same =>
        new (same ▸ List.mem_map.mpr ⟨x, later, rfl⟩)
      rw [List.filter_cons, if_neg (by simpa using other), ih once later]

namespace Declared

section Unite
variable {stamp : Stamp} {fragments : List Declared} {t : Declared}

theorem calledPair (n : Declared) :
    called n.fullName n.arity = fun m => decide ((m.fullName, m.arity) = (n.fullName, n.arity)) :=
  funext fun m => by simp [called]

theorem fragmentsAlone {d : Declared} (single : d.parts = []) : d.fragments = [d] := by
  simp [fragments, isCompound, single]

theorem uniteInside (h : unite stamp fragments = some t)
    (single : ∀ f ∈ fragments, f.parts = [])
    (below : ∀ m ∈ fragments.flatMap nested, m.parts = []) {n : Declared} (mem : n ∈ t.nested) :
    let inside := (fragments.flatMap nested).filter (called n.fullName n.arity)
    let alike := t.nested.filter (called n.fullName n.arity)
    n.fragments.Sublist inside ∧ (t.isCompound = true → alike = [n]) ∧
      (alike = [n] → n.fragments = inside) ∧
      ∃ m ∈ inside, m.name = n.name ∧ m.body.outer = n.body.outer := by
  match fragments, h with
  | [], h => cases h
  | [only], h =>
    intro inside alike
    rw [uniteAlone, Option.some.injEq] at h
    subst h
    have same : inside = alike := by simp [inside, alike]
    have listed : n ∈ inside := by
      rw [same]
      exact List.mem_filter.mpr ⟨mem, calledIff.mpr ⟨rfl, rfl⟩⟩
    have alone : n.fragments = [n] := fragmentsAlone (below n (List.mem_filter.mp listed).1)
    refine ⟨?_, fun compound => ?_, fun unique => ?_, n, listed, rfl, rfl⟩
    · rw [alone]
      exact List.singleton_sublist.mpr listed
    · simp [isCompound, single only List.mem_cons_self] at compound
    · rw [alone, same, unique]
  | first :: second :: rest, h =>
    intro inside alike
    obtain ⟨keys, each⟩ := uniteNested h
    obtain ⟨depth, own, united⟩ := each n mem
    rw [← calledPair] at united
    have once : (t.nested.map fun n => (n.fullName, n.arity)).Nodup := keys ▸ distinctNodup _
    have whole : n.fragments = inside :=
      (uniteFragments united fun m listed => below m (List.mem_filter.mp listed).1).1
    obtain ⟨f, listed, -, name, outer⟩ := uniteLike united
    refine ⟨?_, fun _ => ?_, fun _ => whole, f, listed, name.symm, outer.symm⟩
    · rw [whole]
    · rw [← filterOnly once mem, ← calledPair]

theorem uniteCovers (h : unite stamp fragments = some t) {m : Declared}
    (mem : m ∈ fragments.flatMap nested) :
    ∃ n ∈ t.nested, n.called m.fullName m.arity = true := by
  match fragments, h with
  | [], h => cases h
  | [only], h =>
    rw [uniteAlone, Option.some.injEq] at h
    subst h
    exact ⟨m, by simpa using mem, calledIff.mpr ⟨rfl, rfl⟩⟩
  | first :: second :: rest, h =>
    have listed : (m.fullName, m.arity) ∈ t.nested.map fun n => (n.fullName, n.arity) := by
      rw [(uniteNested h).1, memDistinct]
      exact List.mem_map.mpr ⟨m, mem, rfl⟩
    obtain ⟨n, inside, same⟩ := List.mem_map.mp listed
    exact ⟨n, inside, calledIff.mpr (Prod.mk.inj same)⟩

end Unite

section Tags
variable {xs ys : List Declared}

theorem tagsCalled (xs : List Declared) (name : String) (arity : Nat) :
    (xs.filter (called name arity)).map tag =
      (xs.map tag).filter (fun g => g.fullName = name ∧ g.arity = arity) := by
  rw [List.filter_map]
  rfl

theorem tagStamps (xs : List Declared) : (xs.map tag).map Tag.stamp = xs.map Declared.stamp :=
  List.map_map

theorem tagged (same : xs.map tag = ys.map tag) {x : Declared} (mem : x ∈ xs) :
    ∃ y ∈ ys, y.tag = x.tag := by
  have listed : x.tag ∈ ys.map tag := same ▸ List.mem_map.mpr ⟨x, mem, rfl⟩
  exact List.mem_map.mp listed

theorem singleTagged (same : xs.map tag = ys.map tag) (single : ∀ y ∈ ys, y.parts = []) :
    ∀ x ∈ xs, x.parts = [] := by
  intro x mem
  obtain ⟨y, listed, alike⟩ := tagged same mem
  have compound : y.isCompound = x.isCompound := congrArg Tag.compound alike
  simpa [isCompound, single y listed] using compound.symm

theorem outlineTags (same : xs.map outline = ys.map outline) :
    xs.map tag = ys.map tag ∧ (xs.flatMap nested).map tag = (ys.flatMap nested).map tag := by
  have heads := congrArg (List.map Prod.fst) same
  have inner := congrArg (List.flatMap Prod.snd) same
  simp only [List.map_map, List.flatMap_map] at heads inner
  refine ⟨heads, ?_⟩
  rw [List.map_flatMap, List.map_flatMap]
  exact inner

end Tags
end Declared

namespace Store
open Declared (tag called)

structure Origin (units : List CompilationUnit) (name : String) (t : Declared) (stamp : Stamp)
    (fragments : List Declared) : Prop where
  united : Declared.unite stamp fragments = some t
  heads : fragments.map tag = (declarationsOf units name t.arity).map tag
  inner : (fragments.flatMap Declared.nested).map tag =
    ((declarationsOf units name t.arity).flatMap Declared.nested).map tag

section Reflected
variable {units : List CompilationUnit} {s : Store} {name : String} {t : Declared}

theorem Reflects.candidates (reflects : Reflects units s) (name : String) : ∃ stamp fragments,
    fragments.map Declared.outline =
        ((declarations units).filter (fun d => d.fullName = name)).map Declared.outline ∧
      s.candidates name = uniteByArity stamp fragments := by
  obtain ⟨stamp, fragments, outlines, united⟩ := reflects.united name
  refine ⟨stamp, fragments, ?_, united⟩
  rw [outlines, ← contributedTypes, List.map_map]
  rfl

theorem Reflects.origin (reflects : Reflects units s) (mem : t ∈ s.candidates name) :
    ∃ stamp fragments, Origin units name t stamp fragments := by
  obtain ⟨stamp, fragments, outlines, united⟩ := reflects.candidates name
  rw [united] at mem
  obtain ⟨own, unites⟩ := (uniteByArityGroups stamp fragments).2 t mem
  have ofArity (ds : List Declared) : (Declared.ofArity ds t.arity).map Declared.outline =
      (ds.map Declared.outline).filter (fun o => o.1.arity = t.arity) := by
    rw [List.filter_map]
    rfl
  have group : (Declared.ofArity fragments t.arity).map Declared.outline =
      (declarationsOf units name t.arity).map Declared.outline := by
    rw [ofArity, outlines, ← ofArity, ← contributedTypes, contributedArity]
  obtain ⟨heads, inner⟩ := Declared.outlineTags group
  exact ⟨own, _, unites, heads, inner⟩

theorem Reflects.finds (reflects : Reflects units s) {d : Declared}
    (mem : d ∈ declarations units) : ∃ t, s.find d.fullName d.arity = some t := by
  obtain ⟨stamp, fragments, outlines, united⟩ := reflects.candidates d.fullName
  have own : d ∈ (declarations units).filter (fun e => e.fullName = d.fullName) :=
    List.mem_filter.mpr ⟨mem, by simp⟩
  obtain ⟨f, listed, alike⟩ := Declared.tagged (Declared.outlineTags outlines).1.symm own
  have arity : f.arity = d.arity := congrArg Tag.arity alike
  have known : d.arity ∈ (s.candidates d.fullName).map Declared.arity := by
    rw [united, (uniteByArityGroups stamp fragments).1, memDistinct]
    exact List.mem_map.mpr ⟨f, listed, arity⟩
  obtain ⟨t, stored, same⟩ := List.mem_map.mp known
  exact Option.isSome_iff_exists.mp (List.find?_isSome.mpr ⟨t, stored, by simpa using same⟩)

theorem Reflects.covers (reflects : Reflects units s) (mem : t ∈ s.candidates name) {m : Declared}
    (listed : m ∈ (declarationsOf units name t.arity).flatMap Declared.nested) :
    ∃ n ∈ t.nested, n.called m.fullName m.arity = true := by
  obtain ⟨stamp, fragments, origin⟩ := reflects.origin mem
  obtain ⟨f, inside, alike⟩ := Declared.tagged origin.inner.symm listed
  have fullName : f.fullName = m.fullName := congrArg Tag.fullName alike
  have arity : f.arity = m.arity := congrArg Tag.arity alike
  rw [← fullName, ← arity]
  exact Declared.uniteCovers origin.united inside

variable (placed : ∀ u ∈ units, u.Placed)
include placed

theorem nestedDeclared {arity : Nat} {m : Declared}
    (mem : m ∈ (declarationsOf units name arity).flatMap Declared.nested) :
    m ∈ declarations units ∧ m.body.outer = some name := by
  obtain ⟨e, listed, inside⟩ := List.mem_flatMap.mp mem
  obtain ⟨declared, rfl, -⟩ := memDeclarationsOf.mp listed
  have own : m ∈ declarationsOf units m.fullName m.arity :=
    (nestedListed placed).subset (List.mem_filter.mpr ⟨mem, Declared.calledIff.mpr ⟨rfl, rfl⟩⟩)
  exact ⟨(memDeclarationsOf.mp own).1, (declarationPlaced placed declared).below m inside⟩

section Origins
variable {stamp : Stamp} {fragments : List Declared}

theorem Origin.single (origin : Origin units name t stamp fragments) :
    ∀ f ∈ fragments, f.parts = [] :=
  Declared.singleTagged origin.heads fun _ listed =>
    (declarationPlaced placed (memDeclarationsOf.mp listed).1).single

theorem Origin.singleNested (origin : Origin units name t stamp fragments) :
    ∀ m ∈ fragments.flatMap Declared.nested, m.parts = [] :=
  Declared.singleTagged origin.inner fun _ listed =>
    (declarationPlaced placed (nestedDeclared placed listed).1).single

end Origins

variable (reflects : Reflects units s) (mem : t ∈ s.candidates name)
include reflects mem

theorem storedFragments :
    t.fragments.map tag = (declarationsOf units name t.arity).map tag := by
  obtain ⟨stamp, fragments, origin⟩ := reflects.origin mem
  rw [(Declared.uniteFragments origin.united (origin.single placed)).1, origin.heads]

variable {n : Declared} (inside : n ∈ t.nested)
include inside

theorem storedNested :
    let nested := ((declarationsOf units name t.arity).flatMap Declared.nested).filter
      (called n.fullName n.arity)
    let alike := t.nested.filter (called n.fullName n.arity)
    (n.fragments.map tag).Sublist (nested.map tag) ∧ (t.isCompound = true → alike = [n]) ∧
      (alike = [n] → n.fragments.map tag = nested.map tag) ∧
      ∃ m ∈ nested, m.name = n.name ∧ m.body.outer = n.body.outer := by
  intro nested alike
  obtain ⟨stamp, fragments, origin⟩ := reflects.origin mem
  have groups : ((fragments.flatMap Declared.nested).filter
      (called n.fullName n.arity)).map tag = nested.map tag := by
    rw [Declared.tagsCalled, origin.inner, ← Declared.tagsCalled]
  obtain ⟨some_, compound, unique, m, listed, name, outer⟩ :=
    Declared.uniteInside origin.united (origin.single placed) (origin.singleNested placed) inside
  obtain ⟨d, declared, alike⟩ := Declared.tagged groups listed
  refine ⟨groups ▸ some_.map tag, compound, fun only => ?_, d, declared, ?_, ?_⟩
  · rw [unique only, groups]
  · exact (congrArg Tag.name alike).trans name
  · exact (congrArg Tag.outer alike).trans outer

theorem nestedOuter : n.body.outer = some name ∧ '.' ∉ n.name.toList ∧
    ∃ m ∈ declarations units, n.called m.fullName m.arity = true := by
  obtain ⟨-, -, -, m, listed, same, outer⟩ := storedNested placed reflects mem inside
  obtain ⟨below, called⟩ := List.mem_filter.mp listed
  obtain ⟨declared, own⟩ := nestedDeclared placed below
  obtain ⟨full, arity⟩ := Declared.calledIff.mp called
  exact ⟨outer.symm.trans own, same ▸ (declarationPlaced placed declared).simple, m, declared,
    Declared.calledIff.mpr ⟨full.symm, arity.symm⟩⟩

theorem nestedAlike {e m : Declared} (memToo : e ∈ s.candidates name) (insideToo : m ∈ e.nested) :
    m.called n.fullName n.arity = true ↔ m.name = n.name ∧ m.arity = n.arity := by
  obtain ⟨outer, simple, -⟩ := nestedOuter placed reflects mem inside
  obtain ⟨outerToo, simpleToo, -⟩ := nestedOuter placed reflects memToo insideToo
  rw [Declared.calledIff]
  refine and_congr_left fun _ => ⟨fun full => ?_, fun simple => ?_⟩
  · exact (Declared.nameUnique outerToo outer simpleToo simple full).2
  · rw [Declared.nameBelow outerToo, Declared.nameBelow outer, simple]

theorem nestedFound : ∃ found, s.find n.fullName n.arity = some found ∧
    found.fragments.map tag = (declarationsOf units n.fullName n.arity).map tag := by
  obtain ⟨-, -, m, declared, called⟩ := nestedOuter placed reflects mem inside
  obtain ⟨full, arity⟩ := Declared.calledIff.mp called
  obtain ⟨found, stored⟩ := reflects.finds declared
  rw [← full, ← arity] at stored
  obtain ⟨listed, same⟩ := findMem stored
  refine ⟨found, stored, ?_⟩
  rw [← same]
  exact storedFragments placed reflects listed

theorem nestedExact
    (alone : ∀ e ∈ s.candidates name, (∃ m ∈ e.nested, m.name = n.name ∧ m.arity = n.arity) → e = t)
    (top : ∀ m ∈ declarationsOf units n.fullName n.arity, m.body.outer ≠ none)
    (once : t.nested.filter (called n.fullName n.arity) = [n]) :
    n.fragments.map tag = (declarationsOf units n.fullName n.arity).map tag := by
  obtain ⟨outer, simple, -⟩ := nestedOuter placed reflects mem inside
  obtain ⟨-, -, whole, -⟩ := storedNested placed reflects mem inside
  rw [whole once, nestedWhole placed (fun e declared same other => ?_) fun m declared => ?_]
  · refine List.filter_eq_nil_iff.mpr fun m listed calledSo => other ?_
    -- the declaration belongs to a stored type of its own arity, which nests such a type too
    obtain ⟨stored, found⟩ := reflects.finds declared
    rw [same] at found
    obtain ⟨candidate, arity⟩ := findMem found
    have own : e ∈ declarationsOf units name stored.arity :=
      memDeclarationsOf.mpr ⟨declared, same, arity.symm⟩
    obtain ⟨k, insideToo, calledToo⟩ :=
      reflects.covers candidate (List.mem_flatMap.mpr ⟨e, own, listed⟩)
    obtain ⟨full, ownArity⟩ := Declared.calledIff.mp calledSo
    rw [full, ownArity] at calledToo
    have alike := (nestedAlike placed reflects mem inside candidate insideToo).mp calledToo
    rw [← arity, alone stored candidate ⟨k, insideToo, alike⟩]
  · obtain ⟨listed, full, -⟩ := memDeclarationsOf.mp declared
    cases below : m.body.outer with
    | none => exact absurd below (top m declared)
    | some other =>
      rw [(Declared.nameUnique below outer (declarationPlaced placed listed).simple simple full).1]

end Reflected

theorem enclosingNests {s : Store} {outer name : String} {arity : Nat} {t : Declared}
    (mem : t ∈ s.candidates outer) (nests : ∃ m ∈ t.nested, m.name = name ∧ m.arity = arity) :
    ∃ e ∈ s.candidates outer, (∃ m ∈ e.nested, m.name = name ∧ m.arity = arity) ∧
      Workspace.enclosingIn s outer name arity = some e := by
  have nesting (e : Declared) : (e.findNested .exact name arity).isSome = true ↔
      ∃ m ∈ e.nested, m.name = name ∧ m.arity = arity := by
    simp [Declared.findNested, Declared.findAmong, Name.sameExact, and_comm]
  have some_ : ((s.candidates outer).find? fun c =>
      (c.findNested .exact name arity).isSome).isSome :=
    List.find?_isSome.mpr ⟨t, mem, (nesting t).mpr nests⟩
  obtain ⟨e, found⟩ := Option.isSome_iff_exists.mp some_
  have own : (e.findNested .exact name arity).isSome = true := by
    simpa only using List.find?_some found
  refine ⟨e, List.mem_of_find?_eq_some found, (nesting e).mp own, ?_⟩
  rw [Workspace.enclosingIn, found, Option.some_or]

end Store

theorem Workspace.declaringEnclosing (w : Workspace) {id : ScopeId} {n e : Declared}
    {outer : String} (below : n.body.outer = some outer)
    (enclosing : enclosingIn (w.store id) outer n.name n.arity = some e) :
    w.declaringType id (.ofDeclared n) = some (.ofDeclared e) := by
  have step : w.declaringType id (.ofDeclared n) = n.body.outer.bind fun outer =>
      (w.consulted id .deep).findSome? fun at_ =>
        (enclosingIn (w.store at_) outer n.name n.arity).map .ofDeclared := rfl
  rw [step, below, Option.bind_some, consulted, List.findSome?_cons, enclosing]
  rfl

theorem Session.unitIngested (events : List Event) {id : ScopeId} {i : Nat} {u : CompilationUnit}
    (written : (run events).written[i]? = some u)
    (opened : id < (run events).workspace.scopes.length) :
    u ∈ ((run (events ++ [.ingests id i])).workspace.store id).units.values := by
  let w := (run events).workspace
  obtain ⟨units, -, reflects⟩ := (Session.placed events).stores.at Store.writtenEmpty id
  have sound := (Session.storesSound events).at Store.soundEmpty id
  have ingested : (run (events ++ [.ingests id i])).workspace =
      ((Query.replaceFile id u.file (some u)).run w).2 := by
    rw [runAppend, perform, written]
    rfl
  have store : (run (events ++ [.ingests id i])).workspace.store id =
      (((w.store id).settled w.links).replaceFile (Stamp.at w.clock) u.file (some u)).1 := by
    have here := Workspace.scopeModify { w with clock := w.clock + 1 } id id
      (fun _ => ((w.scope id).replaceFile w.links (Stamp.at w.clock) u.file (some u)).1)
    rw [if_pos ⟨rfl, opened⟩] at here
    rw [ingested, Query.replaceRun, Workspace.store, here, Scope.replaceStore]
    rfl
  have own : ∀ v ∈ some u, v.file = u.file := fun v same => by rw [Option.some.inj same]
  have after := Store.replaceReflects reflects sound own w.links (Stamp.at w.clock)
  rw [store, Table.values, after.stored]
  simp [Store.replaced]

theorem Session.declarationStored (events : List Event) (id : ScopeId) {u : CompilationUnit}
    {d : Declared} (listed : u ∈ ((Session.run events).workspace.store id).units.values)
    (mem : d ∈ Declared.preorders u.types) :
    ∃ t, ((Session.run events).workspace.store id).find d.fullName d.arity = some t ∧
      (t.fullName = d.fullName ∧ t.arity = d.arity) ∧ ∃ f ∈ t.fragments, f.tag = d.tag := by
  obtain ⟨units, placed, reflects⟩ := (Session.placed events).stores.at Store.writtenEmpty id
  have sound := (Session.storesSound events).at Store.soundEmpty id
  have written : u ∈ units := by
    rw [Table.values, reflects.stored] at listed
    simpa using listed
  have declared : d ∈ Store.declarations units := List.mem_flatMap.mpr ⟨u, written, mem⟩
  obtain ⟨t, found⟩ := reflects.finds declared
  obtain ⟨candidate, arity⟩ := Store.findMem found
  have fragments := Store.storedFragments placed reflects candidate
  have own : d ∈ Store.declarationsOf units d.fullName t.arity :=
    Store.memDeclarationsOf.mpr ⟨declared, rfl, arity.symm⟩
  exact ⟨t, found, ⟨sound.named _ t candidate, arity⟩, Declared.tagged fragments.symm own⟩

/-- A type nested in a stored one, in any session. Under its full name and arity the store has a
type with its declarations among others, in order; the type it is declared in is found to be one of
the same name that nests a type of this name and arity; and a type united from several declarations
nests only one. If no other stored type of that name nests any, the outer type itself is found; and
if it nests only one and no top-level type has the full name, there are no other declarations. -/
theorem nestedStored (events : List Event) (id : ScopeId) {outer n : Declared}
    (stored : outer ∈ ((Session.run events).workspace.store id).allTypes)
    (inside : n ∈ outer.nested) :
    let w := (Session.run events).workspace
    let alike (m : Declared) : Bool := m.name = n.name ∧ m.arity = n.arity
    (outer.isCompound = true → outer.nested.filter alike = [n]) ∧
    (∃ e ∈ (w.store id).allTypes, e.fullName = outer.fullName ∧ e.nested.any alike = true ∧
      w.declaringType id (.ofDeclared n) = some (.ofDeclared e)) ∧
    ∃ t, (w.store id).find n.fullName n.arity = some t ∧
      (n.fragments.map Declared.stamp).Sublist (t.fragments.map Declared.stamp) ∧
      ((∀ e ∈ (w.store id).allTypes, e.fullName = outer.fullName → e.nested.any alike = true →
          e = outer) →
        w.declaringType id (.ofDeclared n) = some (.ofDeclared outer) ∧
        (outer.nested.filter alike = [n] → (∀ f ∈ t.fragments, f.body.outer ≠ none) →
          t.fragments.map Declared.stamp = n.fragments.map Declared.stamp)) := by
  intro w alike
  have sound : (w.store id).Sound := (Session.storesSound events).at Store.soundEmpty id
  obtain ⟨units, placed, reflects⟩ := (Session.placed events).stores.at Store.writtenEmpty id
  have mem := sound.stored stored
  obtain ⟨below, -, -⟩ := Store.nestedOuter placed reflects mem inside
  obtain ⟨among, compound, -, -⟩ := Store.storedNested placed reflects mem inside
  obtain ⟨t, found, fragments⟩ := Store.nestedFound placed reflects mem inside
  have same : outer.nested.filter (Declared.called n.fullName n.arity) =
      outer.nested.filter alike :=
    List.filter_congr fun m listed => by
      rw [Bool.eq_iff_iff, Store.nestedAlike placed reflects mem inside mem listed]
      simp [alike]
  obtain ⟨e, candidate, nests, enclosing⟩ :=
    Store.enclosingNests mem ⟨n, inside, rfl, rfl⟩
  have declaring := w.declaringEnclosing below enclosing
  refine ⟨fun several => same ▸ compound several, ⟨e, Store.candidatesMem candidate,
    sound.named _ e candidate, by simpa [alike] using nests, declaring⟩, t, found, ?_,
    fun alone => ⟨?_, fun once top => ?_⟩⟩
  · have wider := among.trans ((Store.nestedListed placed).map Declared.tag)
    rw [← fragments] at wider
    simpa only [Declared.tagStamps] using wider.map Tag.stamp
  · rw [declaring, alone e (Store.candidatesMem candidate) (sound.named _ e candidate)
      (by simpa [alike] using nests)]
  · have only : ∀ e ∈ (w.store id).candidates outer.fullName,
        (∃ m ∈ e.nested, m.name = n.name ∧ m.arity = n.arity) → e = outer := fun e mem nests =>
      alone e (Store.candidatesMem mem) (sound.named _ e mem) (by simpa [alike] using nests)
    have inner : ∀ m ∈ Store.declarationsOf units n.fullName n.arity, m.body.outer ≠ none := by
      intro m listed none_
      obtain ⟨f, part, alike⟩ := Declared.tagged fragments.symm listed
      exact top f part ((congrArg Tag.outer alike).trans none_)
    have exact_ := Store.nestedExact placed reflects mem inside only inner (same.trans once)
    rw [← Declared.tagStamps, ← Declared.tagStamps, fragments, exact_]

section Examples

def nestingSource (file : Nat) (types : List (String × List String × List String)) : Source where
  file := ⟨file⟩
  fileName := ""
  usings := []
  types := types.map fun (name, parameters, nested) =>
    { Blueprint.bare name .classType with
      typeParameters := parameters.map (⟨·, []⟩)
      nested := nested.map (Blueprint.bare · .classType) }

def halvesLoading : List Event :=
  [.opens "lib", .writes (nestingSource 0 [("Lib.Outer", [], ["Inner"])]),
    .writes (nestingSource 1 [("Lib.Outer", [], ["Inner", "Other"])]), .ingests 0 0,
    .asks 0 (.typeNamed .deep .exact "Lib.Outer" []), .ingests 0 1]

def nestedHalves : Workspace := (Session.run halvesLoading).workspace

theorem nestedStoredHalves : ∃ outer ∈ (nestedHalves.store 0).allTypes, ∃ n ∈ outer.nested, ∃ t,
    outer.fullName = "Lib.Outer" ∧ n.fragments.length = 2 ∧
    nestedHalves.declaringType 0 (.ofDeclared n) = some (.ofDeclared outer) ∧
    (nestedHalves.store 0).find "Lib.Outer.Inner" 0 = some t ∧
    t.fragments.map Declared.stamp = n.fragments.map Declared.stamp := by
  obtain ⟨outer, stored, n, inside, outerName, compound, two, name, arity⟩ :
      ∃ outer ∈ (nestedHalves.store 0).allTypes, ∃ n ∈ outer.nested,
        outer.fullName = "Lib.Outer" ∧ outer.isCompound = true ∧ n.fragments.length = 2 ∧
          n.fullName = "Lib.Outer.Inner" ∧ n.arity = 0 := by decide +kernel
  have once : ((nestedHalves.store 0).allTypes.map Declared.fullName).Nodup := by decide +kernel
  have below : ∀ t ∈ (nestedHalves.store 0).find "Lib.Outer.Inner" 0, ∀ f ∈ t.fragments,
      f.body.outer ≠ none := by decide +kernel
  obtain ⟨unique, -, t, found, -, exact_⟩ := nestedStored halvesLoading 0 stored inside
  obtain ⟨declaring, whole⟩ := exact_ fun e mem same _ =>
    List.inj_on_of_nodup_map once mem stored same
  rw [name, arity] at found
  exact ⟨outer, stored, n, inside, t, outerName, two, declaring, found,
    whole (unique compound) (below t found)⟩

def overloaded : Workspace := (Session.run [.opens "lib",
  .writes (nestingSource 0 [("Lib.Outer", [], ["Inner"]), ("Lib.Outer", ["T"], ["Inner"])]),
  .ingests 0 0]).workspace

def namespaced : Workspace := (Session.run [.opens "lib",
  .writes (nestingSource 0 [("Lib.Outer", [], ["Inner"]), ("Lib.Outer.Inner", [], [])]),
  .ingests 0 0]).workspace

def unmerged : Workspace := (Session.run [.opens "lib",
  .writes (nestingSource 0 [("Lib.Outer", [], ["Inner", "Inner"])]), .ingests 0 0]).workspace

theorem nestedCollided :
    (∃ outer ∈ (overloaded.store 0).allTypes, ∃ n ∈ outer.nested, n.fragments.length = 1 ∧
      ((overloaded.store 0).find n.fullName n.arity).map (fun t => t.fragments.length) = some 2 ∧
      (overloaded.declaringType 0 (.ofDeclared n)).map Definition.stamp ≠ some outer.stamp) ∧
    (∃ outer ∈ (namespaced.store 0).allTypes, ∃ n ∈ outer.nested, n.fragments.length = 1 ∧
      ((namespaced.store 0).find n.fullName n.arity).map (fun t => t.fragments.length) = some 2) ∧
    ∃ outer ∈ (unmerged.store 0).allTypes, ∃ n ∈ outer.nested, n.fragments.length = 1 ∧
      (outer.nested.filter (fun m => m.name = n.name ∧ m.arity = n.arity)).length = 2 := by
  decide +kernel

end Examples
end TypeScope
