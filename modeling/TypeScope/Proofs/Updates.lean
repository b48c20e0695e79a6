import TypeScope.Proofs.Incremental

/-! What updates keep of a store whose fragments may carry links of earlier lookups, and what their
reports tell: a name that is not in the report has the logical types it had before. -/
namespace TypeScope

theorem Declared.settledName (links : Links) (d : Declared) :
    (d.settled links).fullName = d.fullName := by
  obtain ⟨stamp, body, nested, parts⟩ := d
  rfl

theorem Table.findMap {κ α β : Type} [DecidableEq κ] (f : α → β) (entries : List (κ × α)) (k : κ) :
    find (entries.map (fun e => (e.1, f e.2))) k = (find entries k).map f := by
  induction entries with
  | nil => rfl
  | cons e rest ih =>
    obtain ⟨key, value⟩ := e
    simp only [List.map_cons, find, ih]
    split <;> rfl

theorem Table.eraseAbsent {κ α : Type} [DecidableEq κ] {t : Table κ α} {k : κ}
    (absent : t.get? k = none) : t.erase k = t := by
  have others : ∀ e ∈ t.entries, e.1 ≠ k := by
    rintro e mem rfl
    exact Table.getNone.mp absent (List.mem_map.mpr ⟨e, mem, rfl⟩)
  have whole : t.entries.filter (fun e => e.1 ≠ k) = t.entries :=
    List.filter_eq_self.mpr fun e mem => by simpa using others e mem
  rw [erase, whole]

namespace Store

structure Sound (s : Store) : Prop where
  names : s.logical.keys.Nodup
  tidy : Tidy s.folded
  fragments : ∀ name, ∀ f ∈ s.fragmentsOf name, f.type.fullName = name
  named : ∀ name, ∀ t ∈ s.candidates name, t.fullName = name
  forgotten : ∀ name, s.fragmentsOf name = [] → s.logical.get? name = none
  spelled : ∀ name, name ∈ s.spellingsOf name ↔ s.fragmentsOf name ≠ []

theorem soundEmpty : Sound empty where
  names := List.nodup_nil
  tidy := tidyEmpty
  fragments _ _ mem := nomatch mem
  named _ _ mem := nomatch mem
  forgotten _ _ := rfl
  spelled _ := ⟨fun mem => (List.not_mem_nil mem).elim, fun some_ => (some_ rfl).elim⟩

variable {s : Store}

theorem fragmentsSettled (links : Links) (s : Store) (name : String) :
    (s.settled links).fragmentsOf name =
      (s.fragmentsOf name).map (fun f => { f with type := f.type.settled links }) := by
  rw [fragmentsOf, settled, Table.get?, Table.findMap, fragmentsOf, Table.get?]
  cases Table.find s.fragments.entries name <;> rfl

theorem soundSettled (sound : Sound s) (links : Links) : Sound (s.settled links) where
  names := sound.names
  tidy := sound.tidy
  fragments name f mem := by
    rw [fragmentsSettled] at mem
    obtain ⟨g, inside, rfl⟩ := List.mem_map.mp mem
    exact (Declared.settledName links g.type).trans (sound.fragments name g inside)
  named := sound.named
  forgotten name empty := by
    rw [fragmentsSettled, List.map_eq_nil_iff] at empty
    exact sound.forgotten name empty
  spelled name := by
    rw [fragmentsSettled, ne_eq, List.map_eq_nil_iff]
    exact sound.spelled name

section Rebuilding

theorem rebuildOther {name other : String} (tidy : Tidy s.folded) (stamp : Stamp)
    (different : other ≠ name) :
    (s.rebuild stamp name).logical.get? other = s.logical.get? other ∧
      (other ∈ (s.rebuild stamp name).spellingsOf other ↔ other ∈ s.spellingsOf other) := by
  by_cases empty : s.fragmentsOf name = []
  · rw [rebuildWithout empty]
    refine ⟨Table.getErase.trans (if_neg different), (memDrop tidy).trans ?_⟩
    exact and_iff_left different
  · rw [rebuildWith empty]
    refine ⟨Table.getPut.trans (if_neg fun same => different same.symm), memAdd.trans ?_⟩
    exact or_iff_left fun both => different both.1

theorem rebuildRest (stamp : Stamp) (names : List (String × Nat)) (tidy : Tidy s.folded)
    {other : String} (absent : other ∉ names.map Prod.fst) :
    let t := names.foldl (fun s n => s.rebuild (stamp.child n.2) n.1) s
    t.logical.get? other = s.logical.get? other ∧
      (other ∈ t.spellingsOf other ↔ other ∈ s.spellingsOf other) := by
  induction names generalizing s with
  | nil => exact ⟨rfl, Iff.rfl⟩
  | cons n rest ih =>
    rw [List.map_cons, List.mem_cons, not_or] at absent
    obtain ⟨logical, spelled⟩ := rebuildOther tidy (stamp.child n.2) absent.1
    obtain ⟨later, spelledLater⟩ := ih (s := s.rebuild (stamp.child n.2) n.1) (rebuildTidy tidy)
      absent.2
    exact ⟨later.trans logical, spelledLater.trans spelled⟩

theorem rebuildNothing (stamp : Stamp) (names : List (String × Nat))
    (gone : ∀ n ∈ names, s.fragmentsOf n.1 = [] ∧ s.logical.get? n.1 = none) :
    (names.foldl (fun s n => s.rebuild (stamp.child n.2) n.1) s).logical = s.logical := by
  induction names generalizing s with
  | nil => rfl
  | cons n rest ih =>
    obtain ⟨empty, absent⟩ := gone n List.mem_cons_self
    have same : (s.rebuild (stamp.child n.2) n.1).logical = s.logical := by
      rw [rebuildWithout empty]
      exact Table.eraseAbsent absent
    refine (ih fun m mem => ?_).trans same
    obtain ⟨none_, unknown⟩ := gone m (List.mem_cons_of_mem n mem)
    rw [fragmentsRebuild, same]
    exact ⟨none_, unknown⟩

end Rebuilding

section Replacing
variable {file : FileId} {unit : Option CompilationUnit}

theorem exchangeNamed (sound : Sound s) {name : String} {f : Fragment}
    (mem : f ∈ (s.exchange file unit).fragmentsOf name) : f.type.fullName = name := by
  rw [exchangeFragments] at mem
  rcases List.mem_append.mp mem with old | new
  · split at old
    · exact sound.fragments name f (List.mem_filter.mp old).1
    · exact sound.fragments name f old
  · obtain ⟨d, inside, rfl⟩ := List.mem_map.mp new
    simpa using (List.mem_filter.mp inside).2

theorem replaceFragments (sound : Sound s) (stamp : Stamp) (file : FileId)
    (unit : Option CompilationUnit) (name : String) :
    (s.replaceFile stamp file unit).1.fragmentsOf name = (s.exchange file unit).fragmentsOf name := by
  have index := exchangeIndex s file unit
  have order : (s.exchange file unit).logical.keys.Nodup := index.logical ▸ sound.names
  have tidy : Tidy (s.exchange file unit).folded := index.folded ▸ sound.tidy
  rw [replaceExchanged]
  exact (rebuildAll stamp (s.affected file unit).zipIdx order tidy).2.1 name

theorem soundReplace (sound : Sound s) (stamp : Stamp) (file : FileId)
    (unit : Option CompilationUnit) : Sound (s.replaceFile stamp file unit).1 := by
  have index := exchangeIndex s file unit
  have order : (s.exchange file unit).logical.keys.Nodup := index.logical ▸ sound.names
  have tidy : Tidy (s.exchange file unit).folded := index.folded ▸ sound.tidy
  obtain ⟨-, -, orderLater, tidyLater, rebuilt⟩ :=
    rebuildAll stamp (s.affected file unit).zipIdx order tidy
  rw [← replaceExchanged] at orderLater tidyLater rebuilt
  have fragments := replaceFragments sound stamp file unit
  have named : ∀ name, ∀ f ∈ (s.replaceFile stamp file unit).1.fragmentsOf name,
      f.type.fullName = name := by
    intro name f mem
    rw [fragments] at mem
    exact exchangeNamed sound mem
  have touched : ∀ name, name ∈ s.affected file unit →
      (s.replaceFile stamp file unit).1.UpToDate name := by
    intro name mem
    exact rebuilt name (.inl (by rwa [List.zipIdx_map_fst]))
  have rest : ∀ name, name ∉ s.affected file unit →
      (s.replaceFile stamp file unit).1.logical.get? name = s.logical.get? name ∧
        (name ∈ (s.replaceFile stamp file unit).1.spellingsOf name ↔
          name ∈ s.spellingsOf name) := by
    intro name absent
    obtain ⟨logical, spelled⟩ := rebuildRest stamp (s.affected file unit).zipIdx tidy
      (show name ∉ (s.affected file unit).zipIdx.map Prod.fst by rwa [List.zipIdx_map_fst])
    rw [← replaceExchanged] at logical spelled
    rw [index.logical] at logical
    have before : (s.exchange file unit).spellingsOf name = s.spellingsOf name := by
      unfold spellingsOf
      rw [index.folded]
    exact ⟨logical, spelled.trans (by rw [before])⟩
  refine ⟨orderLater, tidyLater, named, fun name t mem => ?_, fun name empty => ?_, fun name => ?_⟩
  · by_cases here : name ∈ s.affected file unit
    · have now := touched name here
      by_cases empty : (s.replaceFile stamp file unit).1.fragmentsOf name = []
      · rw [candidates, now.forgotten empty] at mem
        cases mem
      · obtain ⟨own, united⟩ := now.united empty
        rw [candidates, united] at mem
        refine uniteByArityName (fun d inside => ?_) t mem
        obtain ⟨f, listed, rfl⟩ := List.mem_map.mp inside
        exact named name f listed
    · rw [candidates, (rest name here).1] at mem
      exact sound.named name t mem
  · by_cases here : name ∈ s.affected file unit
    · exact (touched name here).forgotten empty
    · rw [(rest name here).1]
      rw [fragments, exchangeRest here] at empty
      exact sound.forgotten name empty
  · by_cases here : name ∈ s.affected file unit
    · exact (touched name here).spelled
    · rw [(rest name here).2, fragments, exchangeRest here]
      exact sound.spelled name

end Replacing

section Reports
variable {file : FileId} {unit : Option CompilationUnit}

theorem noteLists (before after : String → Bool) (names : List String) (r : Report) :
    names.foldl (fun r name => r.note name (before name) (after name)) r =
      ⟨r.added ++ names.filter (fun name => !before name && after name),
        r.removed ++ names.filter (fun name => before name && !after name),
        r.modified ++ names.filter (fun name => before name && after name)⟩ := by
  induction names generalizing r with
  | nil => simp
  | cons name rest ih =>
    rw [List.foldl_cons, ih]
    cases was : before name <;> cases now : after name <;> simp [Report.note, was, now]

theorem reportLists (s : Store) (stamp : Stamp) (file : FileId) (unit : Option CompilationUnit) :
    let was (name : String) : Bool := !(s.fragmentsOf name).isEmpty
    let now (name : String) : Bool :=
      !((s.replaceFile stamp file unit).1.fragmentsOf name).isEmpty
    (s.replaceFile stamp file unit).2 =
      ⟨(s.affected file unit).filter (fun name => !was name && now name),
        (s.affected file unit).filter (fun name => was name && !now name),
        (s.affected file unit).filter (fun name => was name && now name)⟩ := by
  intro was now
  have noted := noteLists (((s.affected file unit).filter was).contains ·) now
    (s.affected file unit) Report.empty
  refine Eq.trans noted ?_
  have existed : ∀ name ∈ s.affected file unit,
      ((s.affected file unit).filter was).contains name = was name := by
    intro name touched
    rw [Bool.eq_iff_iff, List.contains_iff_mem, List.mem_filter, and_iff_right touched]
  simp only [Report.empty, List.nil_append, Report.mk.injEq]
  refine ⟨?_, ?_, ?_⟩ <;>
    exact List.filter_congr fun name touched => by rw [existed name touched]

theorem memReport (stamp : Stamp) {name : String} :
    name ∈ (s.replaceFile stamp file unit).2.names ↔ name ∈ s.affected file unit ∧
      (s.fragmentsOf name ≠ [] ∨ (s.replaceFile stamp file unit).1.fragmentsOf name ≠ []) := by
  rw [reportLists, Report.names]
  simp only [List.mem_append, List.mem_filter, Bool.and_eq_true, Bool.not_eq_true',
    Bool.not_eq_false', List.isEmpty_iff, List.isEmpty_eq_false_iff, ← and_or_left]
  refine and_congr_right fun _ => ?_
  tauto

theorem reportEmpty {r : Report} : r.isEmpty = true ↔ r.names = [] := by
  simp [Report.isEmpty, Report.names, List.isEmpty_iff, and_assoc]

theorem replaceUnreported (sound : Sound s) (stamp : Stamp) {name : String}
    (absent : name ∉ (s.replaceFile stamp file unit).2.names) :
    (s.replaceFile stamp file unit).1.logical.get? name = s.logical.get? name := by
  have index := exchangeIndex s file unit
  by_cases here : name ∈ s.affected file unit
  · rw [memReport, and_iff_right here, not_or, not_not, not_not] at absent
    have later := soundReplace sound stamp file unit
    rw [sound.forgotten name absent.1, later.forgotten name absent.2]
  · have tidy : Tidy (s.exchange file unit).folded := index.folded ▸ sound.tidy
    have same := (rebuildRest stamp (s.affected file unit).zipIdx tidy
      (show name ∉ (s.affected file unit).zipIdx.map Prod.fst by rwa [List.zipIdx_map_fst])).1
    rwa [← replaceExchanged, index.logical] at same

theorem replaceReportless (sound : Sound s) (stamp : Stamp)
    (nothing : (s.replaceFile stamp file unit).2.isEmpty = true) :
    (s.replaceFile stamp file unit).1.logical = s.logical := by
  have index := exchangeIndex s file unit
  rw [reportEmpty] at nothing
  rw [replaceExchanged]
  refine (rebuildNothing stamp _ fun n mem => ?_).trans index.logical
  have touched : n.1 ∈ s.affected file unit := by
    rw [← List.zipIdx_map_fst 0 (s.affected file unit)]
    exact List.mem_map.mpr ⟨n, mem, rfl⟩
  have absent : n.1 ∉ (s.replaceFile stamp file unit).2.names := by
    rw [nothing]
    exact List.not_mem_nil
  rw [memReport, and_iff_right touched, not_or, not_not, not_not,
    replaceFragments sound] at absent
  refine ⟨absent.2, ?_⟩
  rw [index.logical]
  exact sound.forgotten n.1 absent.1

end Reports
end Store
end TypeScope
