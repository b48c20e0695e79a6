import TypeScope.Proofs.Declarations
import TypeScope.Proofs.Spellings
import TypeScope.Proofs.Unions

/-! What replacing one file does to a store that holds what some units declare. The invariant ties
the fragments of every name to those units, and the logical types and the spelling of every name to
its fragments; in between only the names of the replaced file are out of date. -/
namespace TypeScope

namespace Store

def contributed (units : List CompilationUnit) (name : String) : List Fragment :=
  units.flatMap (fun u => (u.allTypes.filter (fun d => d.fullName = name)).map (Fragment.mk u.file))

structure UpToDate (s : Store) (name : String) : Prop where
  forgotten : s.fragmentsOf name = [] → s.logical.get? name = none
  united : s.fragmentsOf name ≠ [] → ∃ stamp,
    s.logical.get? name = some (uniteByArity stamp ((s.fragmentsOf name).map Fragment.type))
  spelled : name ∈ s.spellingsOf name ↔ s.fragmentsOf name ≠ []

structure Mirrors (units : List CompilationUnit) (s : Store) : Prop where
  once : (units.map CompilationUnit.file).Nodup
  stored : s.units.entries = units.map (fun u => (u.file, u))
  fragments : ∀ name, s.fragmentsOf name = contributed units name
  upToDate : ∀ name, s.UpToDate name
  names : s.logical.keys.Nodup
  tidy : Tidy s.folded

theorem emptyMirrors : Mirrors [] empty where
  once := List.nodup_nil
  stored := rfl
  fragments _ := rfl
  upToDate _ := ⟨fun _ => rfl, fun some_ => (some_ rfl).elim,
    ⟨fun mem => (List.not_mem_nil mem).elim, fun some_ => (some_ rfl).elim⟩⟩
  names := List.nodup_nil
  tidy := tidyEmpty

section Phases
variable {s : Store} {file : FileId}

theorem fragmentsWithdraw (s : Store) (file : FileId) (name other : String) :
    (s.withdraw file name).fragmentsOf other =
      if other = name then (s.fragmentsOf other).filter (fun f => f.file ≠ file)
      else s.fragmentsOf other := by
  unfold withdraw fragmentsOf
  by_cases here : other = name
  · subst here
    cases known : s.fragments.get? other <;> simp [known, Table.getPut]
  · cases known : s.fragments.get? name with
    | none => simp [here]
    | some list => simp [Table.getPut, here, show name ≠ other from fun e => here e.symm]

theorem fragmentsDeclare (s : Store) (file : FileId) (d : Declared) (name : String) :
    (s.declare file d).fragmentsOf name =
      s.fragmentsOf name ++ if d.fullName = name then [⟨file, d⟩] else [] := by
  unfold declare fragmentsOf
  by_cases here : d.fullName = name
  · simp [Table.getPut, here]
  · simp [Table.getPut, here]

structure SameIndex (s t : Store) : Prop where
  units : t.units = s.units
  logical : t.logical = s.logical
  folded : t.folded = s.folded

theorem SameIndex.refl (s : Store) : SameIndex s s := ⟨rfl, rfl, rfl⟩

theorem SameIndex.trans {s t u : Store} (first : SameIndex s t) (second : SameIndex t u) :
    SameIndex s u :=
  ⟨second.units.trans first.units, second.logical.trans first.logical,
    second.folded.trans first.folded⟩

theorem withdrawIndex (s : Store) (file : FileId) (name : String) :
    SameIndex s (s.withdraw file name) := by
  unfold withdraw
  split <;> exact ⟨rfl, rfl, rfl⟩

theorem withdrawAll (names : List String) :
    SameIndex s (names.foldl (fun s name => s.withdraw file name) s) ∧
      ∀ other, (names.foldl (fun s name => s.withdraw file name) s).fragmentsOf other =
        if other ∈ names then (s.fragmentsOf other).filter (fun f => f.file ≠ file)
        else s.fragmentsOf other := by
  induction names generalizing s with
  | nil => exact ⟨.refl s, fun other => by simp⟩
  | cons name rest ih =>
    obtain ⟨index, fragments⟩ := ih (s := s.withdraw file name)
    refine ⟨(withdrawIndex s file name).trans index, fun other => ?_⟩
    rw [List.foldl_cons, fragments, fragmentsWithdraw]
    by_cases here : other = name
    · by_cases later : other ∈ rest <;> simp [here, List.filter_filter]
    · simp [here]

theorem declareAll (types : List Declared) :
    SameIndex s (types.foldl (fun s d => s.declare file d) s) ∧
      ∀ name, (types.foldl (fun s d => s.declare file d) s).fragmentsOf name =
        s.fragmentsOf name ++
          (types.filter (fun d => d.fullName = name)).map (Fragment.mk file) := by
  induction types generalizing s with
  | nil => exact ⟨.refl s, fun name => by simp⟩
  | cons d rest ih =>
    obtain ⟨index, fragments⟩ := ih (s := s.declare file d)
    have first : SameIndex s (s.declare file d) := ⟨rfl, rfl, rfl⟩
    refine ⟨first.trans index, fun name => ?_⟩
    rw [List.foldl_cons, fragments, fragmentsDeclare, List.append_assoc]
    by_cases here : d.fullName = name <;> simp [here]

theorem rebuildWithout {name : String} (h : s.fragmentsOf name = []) (stamp : Stamp) :
    s.rebuild stamp name =
      { s with
        fragments := s.fragments.erase name
        logical := s.logical.erase name
        folded := dropSpelling s.folded name } := by
  simp only [rebuild, h]

theorem rebuildWith {name : String} (h : s.fragmentsOf name ≠ []) (stamp : Stamp) :
    s.rebuild stamp name =
      { s with
        logical := s.logical.put name (uniteByArity stamp ((s.fragmentsOf name).map Fragment.type))
        folded := addSpelling s.folded name } := by
  cases known : s.fragmentsOf name with
  | nil => exact (h known).elim
  | cons first rest => simp only [rebuild, known]

theorem fragmentsRebuild (s : Store) (stamp : Stamp) (name other : String) :
    (s.rebuild stamp name).fragmentsOf other = s.fragmentsOf other := by
  by_cases empty : s.fragmentsOf name = []
  · rw [rebuildWithout empty, fragmentsOf, Table.getErase]
    by_cases here : other = name
    · simp [here, empty]
    · simp [here, fragmentsOf]
  · rw [rebuildWith empty]
    rfl

theorem rebuildUpToDate {name other : String} {stamp : Stamp} (tidy : Tidy s.folded)
    (h : other = name ∨ s.UpToDate other) : (s.rebuild stamp name).UpToDate other := by
  have fragments := fragmentsRebuild s stamp name other
  by_cases empty : s.fragmentsOf name = []
  · have logical : (s.rebuild stamp name).logical.get? other =
        if other = name then none else s.logical.get? other := by
      rw [rebuildWithout empty, Table.getErase]
    have spelled : other ∈ (s.rebuild stamp name).spellingsOf other ↔
        other ∈ s.spellingsOf other ∧ other ≠ name := by
      rw [rebuildWithout empty]
      exact memDrop tidy
    by_cases here : other = name
    · subst here
      exact ⟨fun _ => by simp [logical], fun some_ => (some_ (fragments.trans empty)).elim,
        by simp [spelled, fragments, empty]⟩
    · have before := h.resolve_left here
      exact ⟨fun empty => by simp [logical, here, before.forgotten (fragments ▸ empty)],
        fun some_ => by simpa [logical, here, fragments] using before.united (fragments ▸ some_),
        by simp [spelled, here, fragments, before.spelled]⟩
  · have logical : (s.rebuild stamp name).logical.get? other =
        if name = other then some (uniteByArity stamp ((s.fragmentsOf name).map Fragment.type))
        else s.logical.get? other := by
      rw [rebuildWith empty, Table.getPut]
    have spelled : other ∈ (s.rebuild stamp name).spellingsOf other ↔
        other ∈ s.spellingsOf other ∨ other = name := by
      rw [rebuildWith empty]
      refine memAdd.trans (or_congr_right ⟨And.left, fun same => ⟨same, ?_⟩⟩)
      rw [same]
    by_cases here : other = name
    · subst here
      exact ⟨fun gone => (empty (fragments ▸ gone)).elim,
        fun _ => ⟨stamp, by simp [logical, fragments]⟩, by simp [spelled, fragments, empty]⟩
    · have before := h.resolve_left here
      have there : name ≠ other := fun same => here same.symm
      exact ⟨fun empty => by simp [logical, there, before.forgotten (fragments ▸ empty)],
        fun some_ => by simpa [logical, there, fragments] using before.united (fragments ▸ some_),
        by simp [spelled, here, fragments, before.spelled]⟩

theorem rebuildNames {name : String} {stamp : Stamp} (h : s.logical.keys.Nodup) :
    (s.rebuild stamp name).logical.keys.Nodup := by
  by_cases empty : s.fragmentsOf name = []
  · rw [rebuildWithout empty]
    exact Table.keysNodupErase h
  · rw [rebuildWith empty]
    exact Table.keysNodupPut h

theorem rebuildTidy {name : String} {stamp : Stamp} (h : Tidy s.folded) :
    Tidy (s.rebuild stamp name).folded := by
  by_cases empty : s.fragmentsOf name = []
  · rw [rebuildWithout empty]
    exact tidyDrop h name
  · rw [rebuildWith empty]
    exact tidyAdd h name

theorem rebuildUnits (s : Store) (stamp : Stamp) (name : String) :
    (s.rebuild stamp name).units = s.units := by
  unfold rebuild
  split <;> rfl

theorem rebuildAll (stamp : Stamp) (names : List (String × Nat)) (order : s.logical.keys.Nodup)
    (tidy : Tidy s.folded) :
    let t := names.foldl (fun s n => s.rebuild (stamp.child n.2) n.1) s
    t.units = s.units ∧ (∀ other, t.fragmentsOf other = s.fragmentsOf other) ∧
      t.logical.keys.Nodup ∧ Tidy t.folded ∧
      ∀ other, other ∈ names.map Prod.fst ∨ s.UpToDate other → t.UpToDate other := by
  induction names generalizing s with
  | nil => exact ⟨rfl, fun _ => rfl, order, tidy, fun other h => h.resolve_left (by simp)⟩
  | cons n rest ih =>
    obtain ⟨units, fragments, order', tidy', upToDate⟩ :=
      ih (s := s.rebuild (stamp.child n.2) n.1) (rebuildNames order) (rebuildTidy tidy)
    refine ⟨units.trans (rebuildUnits ..), fun other => ?_, order', tidy', fun other h => ?_⟩
    · exact (fragments other).trans (fragmentsRebuild ..)
    · apply upToDate
      rw [List.map_cons, List.mem_cons, or_assoc] at h
      rcases h with here | later | before
      · exact .inr (rebuildUpToDate tidy (.inl here))
      · exact .inl later
      · exact .inr (rebuildUpToDate tidy (.inr before))

end Phases

section Replacement
variable {units : List CompilationUnit} {s : Store}

theorem memContributed {name : String} {f : Fragment} :
    f ∈ contributed units name ↔
      ∃ u ∈ units, u.file = f.file ∧ f.type ∈ u.allTypes ∧ f.type.fullName = name := by
  simp only [contributed, List.mem_flatMap, List.mem_map, List.mem_filter, decide_eq_true_eq]
  constructor
  · rintro ⟨u, inside, d, ⟨declared, named⟩, rfl⟩
    exact ⟨u, inside, rfl, declared, named⟩
  · rintro ⟨u, inside, file, declared, named⟩
    exact ⟨u, inside, f.type, ⟨declared, named⟩, by rw [file]⟩

theorem contributedAppend (left right : List CompilationUnit) (name : String) :
    contributed (left ++ right) name = contributed left name ++ contributed right name :=
  List.flatMap_append

theorem contributedWithout (units : List CompilationUnit) (file : FileId) (name : String) :
    contributed (units.filter (fun u => u.file ≠ file)) name =
      (contributed units name).filter (fun f => f.file ≠ file) := by
  induction units with
  | nil => rfl
  | cons u rest ih =>
    have here (ds : List Declared) : (ds.map (Fragment.mk u.file)).filter (fun f => f.file ≠ file) =
        if u.file ≠ file then ds.map (Fragment.mk u.file) else [] := by
      by_cases own : u.file = file <;> simp [own, List.filter_map, Function.comp_def]
    have split : contributed (u :: rest) name =
        (u.allTypes.filter (fun d => d.fullName = name)).map (Fragment.mk u.file) ++
          contributed rest name := rfl
    rw [split, List.filter_append, here, ← ih, List.filter_cons]
    by_cases own : u.file = file
    · simp [own]
    · simp [own, contributed]

section Kept
variable (once : (units.map CompilationUnit.file).Nodup)
  (stored : s.units.entries = units.map (fun u => (u.file, u)))
include once stored

theorem unitKept {u : CompilationUnit} (inside : u ∈ units) : s.units.get? u.file = some u := by
  have keys : s.units.keys.Nodup := by
    simpa [Table.keys, stored, Function.comp_def] using once
  rw [Table.getIffMem keys, stored]
  exact List.mem_map.mpr ⟨u, inside, rfl⟩

theorem contributedKept {file : FileId} {name : String}
    (absent : name ∉
      ((s.units.get? file).elim [] CompilationUnit.allTypes).map Declared.fullName) :
    (contributed units name).filter (fun f => f.file ≠ file) = contributed units name := by
  rw [List.filter_eq_self]
  intro f mem
  obtain ⟨u, inside, own, declared, named⟩ := memContributed.mp mem
  have other : f.file ≠ file := by
    rintro rfl
    rw [← own, unitKept once stored inside] at absent
    exact absent (List.mem_map.mpr ⟨f.type, declared, named⟩)
  simpa using other

end Kept

def affected (s : Store) (file : FileId) (unit : Option CompilationUnit) : List String :=
  distinct (((s.units.get? file).elim [] CompilationUnit.allTypes ++
    unit.elim [] CompilationUnit.allTypes).map Declared.fullName)

def exchange (s : Store) (file : FileId) (unit : Option CompilationUnit) : Store :=
  let units := s.units.erase file
  let s' := (s.affected file unit).foldl (fun s name => s.withdraw file name)
    { s with units := unit.elim units (units.put file) }
  (unit.elim [] CompilationUnit.allTypes).foldl (fun s d => s.declare file d) s'

theorem replaceExchanged (s : Store) (stamp : Stamp) (file : FileId)
    (unit : Option CompilationUnit) :
    (s.replaceFile stamp file unit).1 =
      (s.affected file unit).zipIdx.foldl (fun s n => s.rebuild (stamp.child n.2) n.1)
        (s.exchange file unit) := rfl

theorem memAffected {file : FileId} {unit : Option CompilationUnit} {name : String} :
    name ∈ s.affected file unit ↔
      name ∈ ((s.units.get? file).elim [] CompilationUnit.allTypes).map Declared.fullName ∨
        name ∈ (unit.elim [] CompilationUnit.allTypes).map Declared.fullName := by
  rw [affected, memDistinct, List.map_append, List.mem_append]

theorem exchangeIndex (s : Store) (file : FileId) (unit : Option CompilationUnit) :
    SameIndex { s with units := unit.elim (s.units.erase file) ((s.units.erase file).put file) }
      (s.exchange file unit) :=
  (withdrawAll (s.affected file unit)).1.trans (declareAll _).1

theorem exchangeFragments (s : Store) (file : FileId) (unit : Option CompilationUnit)
    (name : String) :
    (s.exchange file unit).fragmentsOf name =
      (if name ∈ s.affected file unit then (s.fragmentsOf name).filter (fun f => f.file ≠ file)
        else s.fragmentsOf name) ++
      ((unit.elim [] CompilationUnit.allTypes).filter (fun d => d.fullName = name)).map
        (Fragment.mk file) := by
  rw [exchange, (declareAll _).2, (withdrawAll _).2]
  rfl

def replaced (units : List CompilationUnit) (file : FileId) (unit : Option CompilationUnit) :
    List CompilationUnit :=
  units.filter (fun u => u.file ≠ file) ++ unit.toList

variable {file : FileId} {unit : Option CompilationUnit}

theorem replacedOnce (once : (units.map CompilationUnit.file).Nodup)
    (own : ∀ u ∈ unit, u.file = file) :
    ((replaced units file unit).map CompilationUnit.file).Nodup := by
  have others : ((units.filter (fun u => u.file ≠ file)).map CompilationUnit.file).Nodup :=
    once.sublist (List.filter_sublist.map _)
  rw [replaced, List.map_append]
  cases unit with
  | none => simpa using others
  | some u =>
    refine List.nodup_append.mpr ⟨others, List.nodup_singleton _, ?_⟩
    intro f mem g last
    obtain ⟨v, inside, rfl⟩ := List.mem_map.mp mem
    have away : v.file ≠ file := by simpa using (List.mem_filter.mp inside).2
    simpa [List.mem_singleton.mp last, own u rfl] using away

theorem exchangeUnits (stored : s.units.entries = units.map (fun u => (u.file, u)))
    (own : ∀ u ∈ unit, u.file = file) :
    (s.exchange file unit).units.entries =
      (replaced units file unit).map (fun u => (u.file, u)) := by
  have erased : (s.units.erase file).entries =
      (units.filter (fun u => u.file ≠ file)).map (fun u => (u.file, u)) := by
    simp only [Table.erase, stored, List.filter_map]
    rfl
  have fresh : file ∉ (s.units.erase file).keys := by simp [Table.keysErase]
  rw [(exchangeIndex s file unit).units, replaced, List.map_append, ← erased]
  cases unit with
  | none => exact (List.append_nil _).symm
  | some u =>
    refine (Table.putNew fresh).trans ?_
    simp [own u rfl]

theorem contributedReplaced (once : (units.map CompilationUnit.file).Nodup)
    (stored : s.units.entries = units.map (fun u => (u.file, u)))
    (own : ∀ u ∈ unit, u.file = file) (name : String) :
    contributed (replaced units file unit) name =
      (if name ∈ s.affected file unit then
        (contributed units name).filter (fun f => f.file ≠ file)
      else contributed units name) ++
      ((unit.elim [] CompilationUnit.allTypes).filter (fun d => d.fullName = name)).map
        (Fragment.mk file) := by
  have new : contributed unit.toList name =
      ((unit.elim [] CompilationUnit.allTypes).filter (fun d => d.fullName = name)).map
        (Fragment.mk file) := by
    cases unit with
    | none => rfl
    | some u => simp [contributed, own u rfl]
  rw [replaced, contributedAppend, contributedWithout, new]
  split
  · rfl
  · rename_i absent
    rw [contributedKept once stored fun known => absent (memAffected.mpr (.inl known))]

theorem undeclared {name : String} (absent : name ∉ s.affected file unit) :
    (unit.elim [] CompilationUnit.allTypes).filter (fun d => d.fullName = name) = [] := by
  rw [List.filter_eq_nil_iff]
  intro d mem
  have other : d.fullName ≠ name := fun same =>
    absent (memAffected.mpr (.inr (List.mem_map.mpr ⟨d, mem, same⟩)))
  simpa using other

theorem exchangeRest {name : String} (absent : name ∉ s.affected file unit) :
    (s.exchange file unit).fragmentsOf name = s.fragmentsOf name := by
  rw [exchangeFragments, if_neg absent, undeclared absent]
  exact List.append_nil _

theorem contributedRest (once : (units.map CompilationUnit.file).Nodup)
    (stored : s.units.entries = units.map (fun u => (u.file, u)))
    (own : ∀ u ∈ unit, u.file = file) {name : String} (absent : name ∉ s.affected file unit) :
    contributed (replaced units file unit) name = contributed units name := by
  rw [contributedReplaced once stored own, if_neg absent, undeclared absent]
  exact List.append_nil _

theorem Mirrors.exchangeUntouched (h : Mirrors units s) {name : String}
    (absent : name ∉ s.affected file unit) : (s.exchange file unit).UpToDate name := by
  have fragments := exchangeRest absent
  have index := exchangeIndex s file unit
  have before := h.upToDate name
  refine ⟨fun empty => ?_, fun some_ => ?_, ?_⟩
  · rw [index.logical]
    exact before.forgotten (fragments ▸ empty)
  · rw [fragments, index.logical]
    exact before.united (fragments ▸ some_)
  · rw [fragments, spellingsOf, index.folded]
    exact before.spelled

theorem replaceMirrors (h : Mirrors units s) (own : ∀ u ∈ unit, u.file = file) (stamp : Stamp) :
    Mirrors (replaced units file unit) (s.replaceFile stamp file unit).1 := by
  have index := exchangeIndex s file unit
  have order : (s.exchange file unit).logical.keys.Nodup := index.logical ▸ h.names
  have tidy : Tidy (s.exchange file unit).folded := index.folded ▸ h.tidy
  obtain ⟨sameUnits, fragments, order', tidy', upToDate⟩ :=
    rebuildAll stamp (s.affected file unit).zipIdx order tidy
  rw [← replaceExchanged] at sameUnits fragments order' tidy' upToDate
  refine ⟨replacedOnce h.once own, ?_, fun name => ?_, fun name => upToDate name ?_, order', tidy'⟩
  · rw [sameUnits]
    exact exchangeUnits h.stored own
  · rw [fragments, exchangeFragments, h.fragments, contributedReplaced h.once h.stored own]
  · rw [List.zipIdx_map_fst]
    by_cases touched : name ∈ s.affected file unit
    · exact .inl touched
    · exact .inr (h.exchangeUntouched touched)

end Replacement
end Store
end TypeScope
