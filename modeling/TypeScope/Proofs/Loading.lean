import TypeScope.Proofs.Incremental
import TypeScope.Proofs.Workspaces
import TypeScope.UpdateQueue

/-! Storing file by file against loading from scratch. After any run of updates a scope holds what
the units that still count declare, as if it had seen nothing else. -/
namespace TypeScope

def Update.current : List Update → List CompilationUnit
  | [] => []
  | .ingest unit :: later =>
      if later.any (fun u => u.file == unit.file) then current later else unit :: current later
  | .remove _ :: later => current later

def Update.unit? : Update → Option CompilationUnit
  | .ingest unit => some unit
  | .remove _ => none

theorem Update.unitFile {u : Update} {unit : CompilationUnit} (h : u.unit? = some unit) :
    unit.file = u.file := by
  cases u with
  | ingest own => cases h; rfl
  | remove file => cases h

theorem Update.currentAppend (updates : List Update) (last : Update) :
    current (updates ++ [last]) =
      (current updates).filter (fun c => c.file ≠ last.file) ++ last.unit?.toList := by
  induction updates with
  | nil => cases last <;> rfl
  | cons u rest ih =>
    cases u with
    | remove file => exact ih
    | ingest unit =>
      simp only [List.cons_append, current, List.any_append, ih]
      by_cases later : rest.any (fun u => u.file == unit.file) = true
      · simp [later]
      · by_cases replaced : last.file = unit.file
        · simp [later, replaced]
        · simp [later, replaced, show unit.file ≠ last.file from fun same => replaced same.symm]

theorem Scope.evictStore (s : Scope) (names : List String) :
    (names.foldl Scope.evict s).store = s.store := by
  induction names generalizing s with
  | nil => rfl
  | cons name rest ih => exact ih _

theorem Scope.replaceStore (s : Scope) (links : Links) (stamp : Stamp) (file : FileId)
    (unit : Option CompilationUnit) :
    (s.replaceFile links stamp file unit).1.store =
      ((s.store.settled links).replaceFile stamp file unit).1 := by
  unfold Scope.replaceFile
  dsimp only
  split <;> exact evictStore ..

namespace Workspace

theorem applyUpdate (w : Workspace) (id : ScopeId) (u : Update) :
    Pending.apply w ⟨id, u⟩ =
      { w with clock := w.clock + 1 }.modifyScope id
        (fun _ => ((w.scope id).replaceFile w.links (Stamp.at w.clock) u.file u.unit?).1) := by
  cases u <;> rfl

structure Loaded (id : ScopeId) (units : List CompilationUnit) (w : Workspace) : Prop where
  unwritten : w.links = Table.empty
  known : id < w.scopes.length
  mirrors : Store.Mirrors units (w.store id)

theorem Loaded.apply {id : ScopeId} {units : List CompilationUnit} {w : Workspace}
    (h : Loaded id units w) (u : Update) :
    Loaded id (Store.replaced units u.file u.unit?) (Pending.apply w ⟨id, u⟩) := by
  have store : (Pending.apply w ⟨id, u⟩).store id =
      ((w.store id).replaceFile (Stamp.at w.clock) u.file u.unit?).1 := by
    rw [applyUpdate, Workspace.store, scopeModify, if_pos ⟨rfl, h.known⟩, Scope.replaceStore,
      h.unwritten, Store.settledUnwritten]
    rfl
  refine ⟨?_, ?_, ?_⟩
  · rw [applyUpdate]
    exact h.unwritten
  · rw [applyUpdate, lengthModify]
    exact h.known
  · rw [store]
    exact Store.replaceMirrors h.mirrors (fun unit same => Update.unitFile same) _

theorem Loaded.applyAll {id : ScopeId} {w : Workspace} (h : Loaded id [] w)
    (updates : List Update) :
    Loaded id (Update.current updates) (Pending.applyAll w (updates.map (Pending.mk id))) := by
  induction updates using List.reverseRecOn with
  | nil => exact h
  | append_singleton updates last ih =>
    rw [List.map_append, Pending.applyAll, List.foldl_append, Update.currentAppend]
    exact ih.apply last

end Workspace

def Store.after (uri : String) (updates : List Update) : Store :=
  let (id, w) := (Query.openScope uri).run Workspace.empty
  (Pending.applyAll w (updates.map (Pending.mk id))).store id

theorem Store.afterMirrors (uri : String) (updates : List Update) :
    Store.Mirrors (Update.current updates) (Store.after uri updates) :=
  have opened : Workspace.Loaded 0 [] ((Query.openScope uri).run Workspace.empty).2 :=
    { unwritten := rfl, known := Nat.zero_lt_one, mirrors := Store.emptyMirrors }
  (opened.applyAll updates).mirrors

namespace Store

def declarations (units : List CompilationUnit) : List Declared :=
  units.flatMap (fun u => Declared.preorders u.types)

def declarationsOf (units : List CompilationUnit) (name : String) (arity : Nat) : List Declared :=
  (declarations units).filter (fun d => d.fullName = name ∧ d.arity = arity)

variable {units : List CompilationUnit} {s : Store}

theorem contributedTypes (units : List CompilationUnit) (name : String) :
    (contributed units name).map Fragment.type =
      (declarations units).filter (fun d => d.fullName = name) := by
  simp only [contributed, declarations, List.map_flatMap, List.map_map, List.filter_flatMap,
    CompilationUnit.allTypesPreorders, Function.comp_def, List.map_id']

theorem contributedArity (units : List CompilationUnit) (name : String) (arity : Nat) :
    Declared.ofArity ((contributed units name).map Fragment.type) arity =
      declarationsOf units name arity := by
  rw [contributedTypes, Declared.ofArity, declarationsOf, List.filter_filter]
  exact List.filter_congr fun d _ => by simp [Bool.and_comm]

theorem Mirrors.candidates (h : Mirrors units s) (name : String) :
    (s.candidates name).map Declared.arity =
        distinct (((declarations units).filter (fun d => d.fullName = name)).map Declared.arity) ∧
      ∀ d ∈ s.candidates name, d.fullName = name ∧
        ∃ own, Declared.unite own (declarationsOf units name d.arity) = some d := by
  rw [Store.candidates, ← contributedTypes]
  by_cases empty : contributed units name = []
  · rw [(h.upToDate name).forgotten (h.fragments name ▸ empty), empty]
    exact ⟨rfl, fun d mem => (List.not_mem_nil mem).elim⟩
  · obtain ⟨stamp, united⟩ := (h.upToDate name).united (h.fragments name ▸ empty)
    rw [united, Option.getD_some, h.fragments]
    obtain ⟨arities, each⟩ :=
      uniteByArityGroups stamp ((contributed units name).map Fragment.type)
    refine ⟨arities, fun d mem => ⟨uniteByArityName (fun f inside => ?_) d mem, ?_⟩⟩
    · rw [contributedTypes] at inside
      simpa using (List.mem_filter.mp inside).2
    · simpa only [contributedArity] using each d mem

theorem findMem {name : String} {arity : Nat} {d : Declared} (found : s.find name arity = some d) :
    d ∈ s.candidates name ∧ d.arity = arity :=
  ⟨List.mem_of_find?_eq_some found, by simpa using List.find?_some found⟩

theorem Mirrors.found (h : Mirrors units s) {name : String} {arity : Nat} :
    (∃ d, s.find name arity = some d) ↔
      ∃ d ∈ declarations units, d.fullName = name ∧ d.arity = arity := by
  rw [← Option.isSome_iff_exists, Store.find, List.find?_isSome]
  have listed : (∃ d ∈ s.candidates name, d.arity = arity) ↔
      arity ∈ (s.candidates name).map Declared.arity := by simp
  simp only [beq_iff_eq]
  rw [listed, (h.candidates name).1, memDistinct]
  simp [and_assoc]

theorem Mirrors.foundUnites (h : Mirrors units s) {name : String} {arity : Nat} {d : Declared}
    (found : s.find name arity = some d) :
    d.fullName = name ∧ d.arity = arity ∧ d.Unites (declarationsOf units name arity) := by
  obtain ⟨mem, rfl⟩ := findMem found
  obtain ⟨named, own, united⟩ := (h.candidates name).2 d mem
  exact ⟨named, rfl, Declared.uniteUnites united⟩

theorem Mirrors.named (h : Mirrors units s) {name : String} :
    (∃ arity d, s.find name arity = some d) ↔ s.fragmentsOf name ≠ [] := by
  have empty : s.fragmentsOf name = [] ↔ ∀ d ∈ declarations units, d.fullName ≠ name := by
    rw [h.fragments, ← List.map_eq_nil_iff (f := Fragment.type), contributedTypes,
      List.filter_eq_nil_iff]
    simp
  rw [ne_eq, empty]
  constructor
  · rintro ⟨arity, found⟩ absent
    obtain ⟨d, mem, named, -⟩ := h.found.mp found
    exact absent d mem named
  · intro present
    simp only [ne_eq, not_forall, not_not] at present
    obtain ⟨d, mem, named⟩ := present
    exact ⟨d.arity, h.found.mpr ⟨d, mem, named, rfl⟩⟩

theorem Mirrors.entry (h : Mirrors units s) {e : String × List Declared}
    (mem : e ∈ s.logical.entries) : e.2 = s.candidates e.1 := by
  rw [Store.candidates, (Table.getIffMem h.names).mpr mem, Option.getD_some]

theorem Mirrors.memAllTypes (h : Mirrors units s) {d : Declared} :
    d ∈ s.allTypes ↔ d ∈ s.candidates d.fullName := by
  constructor
  · intro mem
    obtain ⟨types, inside, mem⟩ := List.mem_flatten.mp mem
    obtain ⟨e, entry, rfl⟩ := List.mem_map.mp inside
    rw [h.entry entry] at mem
    rwa [((h.candidates e.1).2 d mem).1]
  · intro mem
    cases known : s.logical.get? d.fullName with
    | none => simp [Store.candidates, known] at mem
    | some types =>
      rw [Store.candidates, known] at mem
      exact List.mem_flatten.mpr ⟨types, Table.valueOfGet known, mem⟩

def identity (d : Declared) : String × Nat := (d.fullName, d.arity)

theorem Mirrors.identityNodup (h : Mirrors units s) : (s.allTypes.map identity).Nodup := by
  have own {e} (mem : e ∈ s.logical.entries) :
      e.2.map identity = (e.2.map Declared.arity).map (Prod.mk e.1) := by
    rw [List.map_map]
    refine List.map_congr_left fun d inside => ?_
    rw [h.entry mem] at inside
    simp [identity, ((h.candidates e.1).2 d inside).1]
  have whole : s.allTypes.map identity = s.logical.entries.flatMap (fun e => e.2.map identity) := by
    simp [Store.allTypes, Table.values, List.flatMap_def, List.map_flatten, Function.comp_def]
  rw [whole, List.nodup_flatMap]
  constructor
  · intro e mem
    rw [own mem, h.entry mem, (h.candidates e.1).1]
    exact (distinctNodup _).map fun j k same => (Prod.mk.inj same).2
  · have apart : s.logical.entries.Pairwise (fun e f => e.1 ≠ f.1) :=
      List.pairwise_map.mp h.names
    refine apart.imp_of_mem fun {e f} left right different pair inE inF => different ?_
    have memE : pair ∈ e.2.map identity := inE
    have memF : pair ∈ f.2.map identity := inF
    rw [own left] at memE
    rw [own right] at memF
    obtain ⟨_, _, rfl⟩ := List.mem_map.mp memE
    obtain ⟨_, _, same⟩ := List.mem_map.mp memF
    exact (congrArg Prod.fst same).symm

theorem Mirrors.size (h : Mirrors units s) :
    s.size = (distinct ((declarations units).map identity)).length := by
  have same : (s.allTypes.map identity).Perm (distinct ((declarations units).map identity)) := by
    rw [List.perm_ext_iff_of_nodup h.identityNodup (distinctNodup _)]
    rintro ⟨name, arity⟩
    rw [memDistinct]
    have stored : (name, arity) ∈ s.allTypes.map identity ↔
        ∃ d ∈ s.candidates name, d.arity = arity := by
      simp only [List.mem_map, identity, Prod.mk.injEq]
      constructor
      · rintro ⟨d, mem, rfl, rfl⟩
        exact ⟨d, h.memAllTypes.mp mem, rfl⟩
      · rintro ⟨d, mem, rfl⟩
        have named := ((h.candidates name).2 d mem).1
        exact ⟨d, h.memAllTypes.mpr (named.symm ▸ mem), named, rfl⟩
    have declared : (∃ d ∈ s.candidates name, d.arity = arity) ↔
        arity ∈ (s.candidates name).map Declared.arity := by simp
    rw [stored, declared, (h.candidates name).1, memDistinct]
    simp [identity, and_assoc]
  simpa [Store.size] using same.length_eq

end Store

/-- Storing file by file keeps exactly what loading the units that count at the end would: their
files in order, for each declared full name and arity one type united from its declarations in
order and nothing else, and for each stored name one spelling, under its lower-case form. -/
theorem storageAsLoaded (uri : String) (updates : List Update) :
    let s := Store.after uri updates
    let units := Update.current updates
    s.files = units.map CompilationUnit.file ∧
      (∀ name arity, (∃ d, s.find name arity = some d) ↔
        ∃ unit ∈ units, ∃ d ∈ Declared.preorders unit.types, d.fullName = name ∧ d.arity = arity) ∧
      (∀ name arity d, s.find name arity = some d →
        d.fullName = name ∧ d.arity = arity ∧ d.Unites (Store.declarationsOf units name arity)) ∧
      s.size = (distinct ((Store.declarations units).map (fun d => (d.fullName, d.arity)))).length ∧
      s.folded.values.flatten.Nodup ∧
      ∀ key name, (∃ spellings, (key, spellings) ∈ s.folded.entries ∧ name ∈ spellings) ↔
        key = Text.lowered name ∧ ∃ arity d, s.find name arity = some d := by
  intro s units
  have h : Store.Mirrors units s := Store.afterMirrors uri updates
  refine ⟨?_, fun name arity => ?_, fun name arity d found => h.foundUnites found, h.size,
    Store.tidyNodup h.tidy, fun key name => ?_⟩
  · simp [Store.files, Table.keys, h.stored, Function.comp_def]
  · simp only [h.found, Store.declarations, List.mem_flatMap]
    constructor
    · rintro ⟨d, ⟨unit, inside, mem⟩, same⟩
      exact ⟨unit, inside, d, mem, same⟩
    · rintro ⟨unit, inside, d, mem, same⟩
      exact ⟨d, ⟨unit, inside, mem⟩, same⟩
  · rw [Store.tidyEntries h.tidy, h.named, ← (h.upToDate name).spelled]
    constructor
    · intro mem
      obtain rfl := h.tidy.lowered key name mem
      exact ⟨rfl, mem⟩
    · rintro ⟨rfl, mem⟩
      exact mem

def half (file : FileId) : Declared :=
  (Blueprint.bare "app.W" .classType).build (some file) (Stamp.at file.index)

def halfUnit (file : FileId) : CompilationUnit := ⟨file, "", [], [half file]⟩

def halves : List Update :=
  [.ingest (halfUnit ⟨0⟩), .ingest (halfUnit ⟨1⟩), .ingest (halfUnit ⟨0⟩)]

theorem storageAsLoadedHalves :
    ∃ d, (Store.after "app" halves).find "app.W" 0 = some d ∧ d.parts = [half ⟨1⟩, half ⟨0⟩] := by
  obtain ⟨-, stored, united, -⟩ := storageAsLoaded "app" halves
  have current : Update.current halves = [halfUnit ⟨1⟩, halfUnit ⟨0⟩] := rfl
  have listed : Declared.preorders (halfUnit ⟨0⟩).types = [half ⟨0⟩] := rfl
  have declared : Store.declarationsOf (Update.current halves) "app.W" 0 =
      [half ⟨1⟩, half ⟨0⟩] := rfl
  obtain ⟨d, found⟩ := (stored "app.W" 0).mpr
    ⟨halfUnit ⟨0⟩, by simp [current], half ⟨0⟩, by simp [listed], rfl, rfl⟩
  obtain ⟨-, -, alone | ⟨-, parts, -⟩⟩ := united "app.W" 0 d found
  · have long := congrArg List.length alone
    rw [declared] at long
    cases long
  · exact ⟨d, found, parts.trans declared⟩

end TypeScope
