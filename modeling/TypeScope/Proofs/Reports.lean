import TypeScope.Proofs.Outlines
import TypeScope.Proofs.Sight

/-! What the report of an update tells. A name is stored as long as some file declares a type of
that full name; the report sorts the names of the replaced file by whether they were stored before
and are stored now, so that it is the difference between the two stores, and what it does not name
is as it was. -/
namespace TypeScope

namespace Store

def Knows (s : Store) (name : String) : Prop := ∃ t ∈ s.allTypes, t.fullName = name

instance (s : Store) (name : String) : Decidable (s.Knows name) :=
  inferInstanceAs (Decidable (∃ t ∈ s.allTypes, t.fullName = name))

variable {units : List CompilationUnit} {s : Store}

theorem knowsCandidates (sound : Sound s) (name : String) :
    s.Knows name ↔ s.candidates name ≠ [] := by
  constructor
  · rintro ⟨t, stored, rfl⟩
    exact List.ne_nil_of_mem (sound.stored stored)
  · intro some_
    obtain ⟨t, mem⟩ := List.exists_mem_of_ne_nil _ some_
    exact ⟨t, candidatesMem mem, sound.named name t mem⟩

theorem Reflects.knows (reflects : Reflects units s) (sound : Sound s) (name : String) :
    s.Knows name ↔ s.fragmentsOf name ≠ [] := by
  rw [knowsCandidates sound]
  refine not_congr ⟨fun empty => ?_, fun empty => ?_⟩
  · obtain ⟨stamp, older, outlines, united⟩ := reflects.united name
    have grouped := (uniteByArityGroups stamp older).1
    rw [← united, empty, List.map_nil] at grouped
    have none_ : older = [] := List.eq_nil_iff_forall_not_mem.mpr fun d mem => by
      have listed := memDistinct.mpr (List.mem_map_of_mem (f := Declared.arity) mem)
      rw [← grouped] at listed
      cases listed
    rw [none_, List.map_nil] at outlines
    have fragments := reflects.fragments name
    rwa [List.map_eq_nil_iff.mp outlines.symm, List.map_nil, List.map_eq_nil_iff] at fragments
  · rw [Store.candidates, sound.forgotten name empty]
    rfl

section Replacing
variable {file : FileId} {unit : Option CompilationUnit}

theorem fragmentsUntouched (sound : Sound s) (stamp : Stamp) {name : String}
    (absent : name ∉ s.affected file unit) :
    (s.replaceFile stamp file unit).1.fragmentsOf name = s.fragmentsOf name := by
  rw [replaceFragments sound, exchangeRest absent]

theorem reportAdded (sound : Sound s) (stamp : Stamp) {name : String} :
    name ∈ (s.replaceFile stamp file unit).2.added ↔
      (s.replaceFile stamp file unit).1.fragmentsOf name ≠ [] ∧ s.fragmentsOf name = [] := by
  rw [reportLists]
  simp only [List.mem_filter, Bool.and_eq_true, Bool.not_eq_true', Bool.not_eq_false',
    List.isEmpty_iff, List.isEmpty_eq_false_iff]
  constructor
  · exact fun ⟨_, before, now⟩ => ⟨now, before⟩
  · rintro ⟨now, before⟩
    refine ⟨?_, before, now⟩
    by_contra absent
    exact now ((fragmentsUntouched sound stamp absent).trans before)

theorem reportRemoved (sound : Sound s) (stamp : Stamp) {name : String} :
    name ∈ (s.replaceFile stamp file unit).2.removed ↔
      s.fragmentsOf name ≠ [] ∧ (s.replaceFile stamp file unit).1.fragmentsOf name = [] := by
  rw [reportLists]
  simp only [List.mem_filter, Bool.and_eq_true, Bool.not_eq_true', Bool.not_eq_false',
    List.isEmpty_iff, List.isEmpty_eq_false_iff]
  constructor
  · exact And.right
  · rintro ⟨before, now⟩
    refine ⟨?_, before, now⟩
    by_contra absent
    exact before ((fragmentsUntouched sound stamp absent).symm.trans now)

theorem reportModified (stamp : Stamp) {name : String} :
    name ∈ (s.replaceFile stamp file unit).2.modified ↔ s.fragmentsOf name ≠ [] ∧
      (s.replaceFile stamp file unit).1.fragmentsOf name ≠ [] ∧ name ∈ s.affected file unit := by
  rw [reportLists]
  simp only [List.mem_filter, Bool.and_eq_true, Bool.not_eq_true', List.isEmpty_eq_false_iff]
  rw [and_comm, and_assoc]

theorem reportOnce (stamp : Stamp) : (s.replaceFile stamp file unit).2.names.Nodup := by
  have once := affectedOnce s file unit
  rw [reportLists, Report.names, List.nodup_append', List.nodup_append']
  refine ⟨⟨once.filter _, once.filter _, fun name added removed => ?_⟩, once.filter _,
    fun name listed modified => ?_⟩
  · have fresh := (List.mem_filter.mp added).2
    have known := (List.mem_filter.mp removed).2
    simp_all
  · have both := (List.mem_filter.mp modified).2
    rcases List.mem_append.mp listed with added | removed
    · have fresh := (List.mem_filter.mp added).2
      simp_all
    · have gone := (List.mem_filter.mp removed).2
      simp_all

end Replacing
end Store

theorem memUnitNames {unit : Option CompilationUnit} {name : String} :
    name ∈ (unit.elim [] CompilationUnit.allTypes).map Declared.fullName ↔
      ∃ u, unit = some u ∧ ∃ d ∈ u.allTypes, d.fullName = name := by
  cases unit with
  | none => simp
  | some u => simp

theorem updateSeen (events : List Event) {id : ScopeId}
    (opened : id < (Session.run events).workspace.scopes.length) (u : Update) :
    let w := (Session.run events).workspace
    let s := (w.store id).settled w.links
    let replaced := s.replaceFile (Stamp.at w.clock) u.file u.unit?
    s.Sound ∧ ((u.applyTo id).run w).1 = replaced.2 ∧
    ((u.applyTo id).run w).2.store id = replaced.1 ∧
    (∀ name, (w.store id).Knows name ↔ s.fragmentsOf name ≠ []) ∧
    ∀ name, replaced.1.Knows name ↔ replaced.1.fragmentsOf name ≠ [] := by
  intro w s replaced
  have sound : (w.store id).Sound := (Session.storesSound events).at Store.soundEmpty id
  obtain ⟨units, -, reflects⟩ := (Session.placed events).stores.at Store.writtenEmpty id
  have settled := Store.soundSettled sound w.links
  have own : ∀ unit ∈ u.unit?, unit.file = u.file := fun unit given => Update.unitFile given
  refine ⟨settled, by cases u <;> rfl, ?_, fun name => ?_, ?_⟩
  · have applied : ((u.applyTo id).run w).2 = Pending.apply w ⟨id, u⟩ := rfl
    rw [applied, w.applyUpdate, Workspace.store, Workspace.scopeModify, if_pos ⟨rfl, opened⟩,
      Scope.replaceStore]
    rfl
  · rw [reflects.knows sound, Store.fragmentsSettled, ne_eq, ne_eq, List.map_eq_nil_iff]
  · exact (Store.replaceReflects reflects sound own w.links (Stamp.at w.clock)).knows
      (Store.soundReplace settled ..)

theorem reportKnown (events : List Event) {id : ScopeId}
    (opened : id < (Session.run events).workspace.scopes.length) (u : Update) {name : String}
    (listed : name ∈ ((u.applyTo id).run (Session.run events).workspace).1.names) :
    ((Session.run events).workspace.store id).Knows name ∨
      (((u.applyTo id).run (Session.run events).workspace).2.store id).Knows name := by
  obtain ⟨settled, reported, stored, was, now⟩ := updateSeen events opened u
  rw [reported, Report.names, List.mem_append, List.mem_append] at listed
  rw [stored, was, now]
  rcases listed with (added | removed) | modified
  · exact .inr ((Store.reportAdded settled _).mp added).1
  · exact .inl ((Store.reportRemoved settled _).mp removed).1
  · exact .inl ((Store.reportModified _).mp modified).1

/-- The report of an update, in any session: no name is listed twice; added are the names that are
stored now and were not before, removed those that were and are not, and modified, of those that
were and are, the ones that the replaced unit declared or the new one declares; of a name that is
not listed the store has the types it had, as the same objects. -/
theorem reportExact (events : List Event) {id : ScopeId}
    (opened : id < (Session.run events).workspace.scopes.length) (u : Update) :
    let w := (Session.run events).workspace
    let report := ((u.applyTo id).run w).1
    let before := w.store id
    let after := ((u.applyTo id).run w).2.store id
    report.names.Nodup ∧
    (∀ name, name ∈ report.added ↔ after.Knows name ∧ ¬ before.Knows name) ∧
    (∀ name, name ∈ report.removed ↔ before.Knows name ∧ ¬ after.Knows name) ∧
    (∀ name, name ∈ report.modified ↔ before.Knows name ∧ after.Knows name ∧
      ∃ unit, (before.units.get? u.file = some unit ∨ u.unit? = some unit) ∧
        ∃ d ∈ unit.allTypes, d.fullName = name) ∧
    ∀ name, name ∉ report.names → after.candidates name = before.candidates name := by
  intro w report before after
  obtain ⟨settled, reported, stored, was, now⟩ := updateSeen events opened u
  rw [show report = _ from reported, show after = _ from stored]
  refine ⟨Store.reportOnce _, fun name => ?_, fun name => ?_, fun name => ?_, fun name absent => ?_⟩
  · rw [now, was, not_not, Store.reportAdded settled]
  · rw [now, was, not_not, Store.reportRemoved settled]
  · rw [now, was, Store.reportModified]
    refine and_congr_right fun _ => and_congr_right fun _ => ?_
    rw [Store.memAffected, memUnitNames, memUnitNames]
    constructor
    · rintro (⟨unit, given, d, mem, named⟩ | ⟨unit, given, d, mem, named⟩)
      · exact ⟨unit, .inl given, d, mem, named⟩
      · exact ⟨unit, .inr given, d, mem, named⟩
    · rintro ⟨unit, given | given, declares⟩
      · exact .inl ⟨unit, given, declares⟩
      · exact .inr ⟨unit, given, declares⟩
  · rw [Store.candidates, Store.replaceUnreported settled _ absent]
    rfl

section Boxes

def sharedLoading : List Event :=
  let typed (name : String) (parameters : List String) : Blueprint :=
    { Blueprint.bare name .classType with typeParameters := parameters.map (⟨·, []⟩) }
  [.opens "app", .writes ⟨⟨0⟩, "Box.cs", [], [typed "App.Box" ["T"], typed "App.Gone" []]⟩,
    .writes ⟨⟨1⟩, "Shared.cs", [], [typed "App.Box" [], typed "App.Kept" []]⟩,
    .writes ⟨⟨0⟩, "Box.cs", [], [typed "App.Box" ["T", "U"], typed "App.New" []]⟩,
    .ingests 0 0, .ingests 0 1]

theorem reportExactShared : ∃ unit, (Session.run sharedLoading).written[2]? = some unit ∧
    let w := (Session.run sharedLoading).workspace
    let report := ((Update.applyTo 0 (.ingest unit)).run w).1
    let after := ((Update.applyTo 0 (.ingest unit)).run w).2
    0 < w.scopes.length ∧ report.names.Nodup ∧ "App.New" ∈ report.added ∧
      "App.Gone" ∈ report.removed ∧ "App.Box" ∈ report.modified ∧ "App.Kept" ∉ report.names ∧
      (after.store 0).candidates "App.Kept" = (w.store 0).candidates "App.Kept" := by
  obtain ⟨unit, written⟩ := Option.isSome_iff_exists.mp
    (show ((Session.run sharedLoading).written[2]?).isSome = true by decide +kernel)
  have opened : 0 < (Session.run sharedLoading).workspace.scopes.length := by decide +kernel
  have before : ∀ name ∈ ["App.Box", "App.Gone", "App.Kept"],
      ((Session.run sharedLoading).workspace.store 0).Knows name := by decide +kernel
  have unknown : ¬ ((Session.run sharedLoading).workspace.store 0).Knows "App.New" := by
    decide +kernel
  have after : ∀ unit ∈ (Session.run sharedLoading).written[2]?,
      let store := (((Update.applyTo 0 (.ingest unit)).run
        (Session.run sharedLoading).workspace).2.store 0)
      store.Knows "App.Box" ∧ store.Knows "App.New" ∧ ¬ store.Knows "App.Gone" ∧
        ∃ d ∈ unit.allTypes, d.fullName = "App.Box" := by decide +kernel
  have listed : ∀ unit ∈ (Session.run sharedLoading).written[2]?,
      "App.Kept" ∉ ((Update.applyTo 0 (.ingest unit)).run
        (Session.run sharedLoading).workspace).1.names := by decide +kernel
  obtain ⟨box, new, gone, declared⟩ := after unit written
  obtain ⟨once, added, removed, modified, rest⟩ := reportExact sharedLoading opened (.ingest unit)
  exact ⟨unit, written, opened, once, (added _).mpr ⟨new, unknown⟩,
    (removed _).mpr ⟨before _ (by decide), gone⟩,
    (modified _).mpr ⟨before _ (by decide), box, unit, .inr rfl, declared⟩, listed unit written,
    rest _ (listed unit written)⟩

end Boxes
end TypeScope
