import TypeScope.Proofs.NestedDeclarations
import TypeScope.Proofs.Stamps

/-! Stores in a session where questions are asked. Updates copy the links that lookups left, so a
stored type need not be united from what the fragments are now; but where its declarations stand
and which they are no lookup changes, and by these the types are still united from what the
ingested units declare. -/
namespace TypeScope

structure Tag where
  stamp : Stamp
  name : String
  fullName : String
  arity : Nat
  outer : Option String
  compound : Bool

namespace Declared

def tag (d : Declared) : Tag :=
  ⟨d.stamp, d.name, d.fullName, d.arity, d.body.outer, d.isCompound⟩

def outline (d : Declared) : Tag × List Tag := (d.tag, d.nested.map tag)

theorem settledTag (links : Links) (d : Declared) : (d.settled links).tag = d.tag := by
  cases d
  rfl

theorem settledTags (links : Links) (ds : List Declared) :
    (settledAll links ds).map tag = ds.map tag := by
  induction ds with
  | nil => rfl
  | cons d rest ih => rw [settledAll, List.map_cons, List.map_cons, settledTag, ih]

theorem settledOutline (links : Links) (d : Declared) : (d.settled links).outline = d.outline := by
  refine Prod.ext (settledTag links d) ?_
  cases d
  exact settledTags links _

end Declared

def Fragment.outline (f : Fragment) : FileId × Tag × List Tag := (f.file, f.type.outline)

namespace Store

structure Reflects (units : List CompilationUnit) (s : Store) : Prop where
  once : (units.map CompilationUnit.file).Nodup
  stored : s.units.entries = units.map (fun u => (u.file, u))
  fragments : ∀ name,
    (s.fragmentsOf name).map Fragment.outline = (contributed units name).map Fragment.outline
  united : ∀ name, ∃ stamp older,
    older.map Declared.outline = (contributed units name).map (fun f => f.type.outline) ∧
      s.candidates name = uniteByArity stamp older

theorem emptyReflects : Reflects [] empty where
  once := List.nodup_nil
  stored := rfl
  fragments _ := rfl
  united _ := ⟨Stamp.at 0, [], rfl, rfl⟩

section Replacing
variable {units : List CompilationUnit} {s : Store} {file : FileId} {unit : Option CompilationUnit}

theorem settledFragments (links : Links) (s : Store) (name : String) :
    ((s.settled links).fragmentsOf name).map Fragment.outline =
      (s.fragmentsOf name).map Fragment.outline := by
  rw [fragmentsSettled, List.map_map]
  refine List.map_congr_left fun f _ => ?_
  exact congrArg (Prod.mk f.file) (Declared.settledOutline links f.type)

theorem replaceOutlines (reflects : Reflects units s) (sound : Sound s)
    (own : ∀ u ∈ unit, u.file = file) (links : Links) (stamp : Stamp) (name : String) :
    (((s.settled links).replaceFile stamp file unit).1.fragmentsOf name).map Fragment.outline =
      (contributed (replaced units file unit) name).map Fragment.outline := by
  have others (fs : List Fragment) : (fs.filter (fun f => f.file ≠ file)).map Fragment.outline =
      (fs.map Fragment.outline).filter (fun o => o.1 ≠ file) := by
    rw [List.filter_map]
    rfl
  have before := (settledFragments links s name).trans (reflects.fragments name)
  rw [replaceFragments (soundSettled sound links), exchangeFragments,
    contributedReplaced (s := s.settled links) reflects.once reflects.stored own,
    List.map_append, List.map_append]
  congr 1
  split
  · rw [others, others, before]
  · exact before

theorem replaceReflects (reflects : Reflects units s) (sound : Sound s)
    (own : ∀ u ∈ unit, u.file = file) (links : Links) (stamp : Stamp) :
    Reflects (replaced units file unit) ((s.settled links).replaceFile stamp file unit).1 := by
  have settled := soundSettled sound links
  have fragments := replaceOutlines reflects sound own links stamp
  refine ⟨replacedOnce reflects.once own, ?_, fragments, fun name => ?_⟩
  · have index := exchangeIndex (s.settled links) file unit
    rw [replaceExchanged, (rebuildAll stamp _ (index.logical ▸ settled.names)
      (index.folded ▸ settled.tidy)).1]
    exact exchangeUnits reflects.stored own
  · by_cases touched : name ∈ (s.settled links).affected file unit
    · obtain ⟨n, -, united⟩ := replaceTouched settled stamp touched
      refine ⟨stamp.child n, _, ?_, united⟩
      have types := congrArg (List.map Prod.snd) (fragments name)
      rw [List.map_map, List.map_map] at types
      rw [List.map_map]
      exact types
    · rw [contributedRest (s := s.settled links) reflects.once reflects.stored own touched,
        replaceUntouched settled stamp touched]
      exact reflects.united name

end Replacing

def Written (s : Store) : Prop :=
  ∃ units : List CompilationUnit, (∀ u ∈ units, u.Placed) ∧ s.Reflects units

theorem writtenEmpty : Written empty :=
  ⟨[], fun _ mem => (List.not_mem_nil mem).elim, emptyReflects⟩

theorem Written.replaces {s : Store} (written : s.Written) (sound : Sound s) {file : FileId}
    {unit : Option CompilationUnit} (own : ∀ u ∈ unit, u.file = file)
    (placed : ∀ u ∈ unit, u.Placed) (links : Links) (stamp : Stamp) :
    ((s.settled links).replaceFile stamp file unit).1.Written := by
  obtain ⟨units, all, reflects⟩ := written
  refine ⟨replaced units file unit, fun u mem => ?_, replaceReflects reflects sound own links stamp⟩
  rcases List.mem_append.mp mem with old | new
  · exact all u (List.mem_filter.mp old).1
  · exact placed u (Option.mem_toList.mp new)

end Store

section Sessions

structure Session.Placed (s : Session) : Prop where
  written : ∀ u ∈ s.written, u.Placed
  stores : s.workspace.Stores Store.Written

namespace Session

theorem writtenPlaced (events : List Event) : ∀ u ∈ (run events).written, u.Placed := by
  induction events using List.reverseRecOn with
  | nil => exact fun _ mem => (List.not_mem_nil mem).elim
  | append_singleton events e ih =>
    rw [runAppend]
    cases e with
    | writes source =>
      intro u mem
      rcases List.mem_append.mp mem with old | new
      · exact ih u old
      · rw [List.mem_singleton.mp new]
        exact CompilationUnit.buildPlaced ..
    | ingests id unit =>
      simp only [perform]
      split <;> exact ih
    | _ => exact ih

theorem storesKept {P : Store → Prop} (empty : P Store.empty)
    (replaces : ∀ {s : Store} {file : FileId} {unit : Option CompilationUnit} (links : Links)
      (stamp : Stamp), P s → s.Sound → (∀ u ∈ unit, u.file = file) → (∀ u ∈ unit, u.Placed) →
      P ((s.settled links).replaceFile stamp file unit).1)
    (events : List Event) : (run events).workspace.Stores P := by
  induction events using List.reverseRecOn with
  | nil => exact fun _ mem => (List.not_mem_nil mem).elim
  | append_singleton events e ih =>
    have sound := (storesSound events).at Store.soundEmpty
    have updated : ∀ {id : ScopeId} {file : FileId} {unit : Option CompilationUnit},
        (∀ u ∈ unit, u.file = file) → (∀ u ∈ unit, u.Placed) →
        ((Query.replaceFile id file unit).run (run events).workspace).2.Stores P := by
      intro id file unit own placed
      rw [Query.replaceRun]
      exact Workspace.Stores.updates
        (w := { (run events).workspace with clock := (run events).workspace.clock + 1 }) ih
        (replaces _ _ (ih.at empty id) (sound id) own placed)
    rw [runAppend]
    cases e with
    | opens uri => exact ih.opens empty uri
    | writes source => exact ih
    | ingests id unit =>
      simp only [perform]
      split
      · rename_i u listed
        refine updated (fun given same => ?_) fun given same => ?_
        · cases Option.some.inj same
          rfl
        · cases Option.some.inj same
          exact writtenPlaced events _ (List.mem_of_getElem? listed)
      · exact ih
    | removes id file => exact updated (fun u none_ => by cases none_) fun u none_ => by cases none_
    | refers id references => exact ih.modify fun _ => rfl
    | asks id q => exact ih.asks id q

theorem placed (events : List Event) : (run events).Placed where
  written := writtenPlaced events
  stores := storesKept Store.writtenEmpty (fun links stamp written sound own placed =>
    written.replaces sound own placed links stamp) events

end Session
end Sessions
end TypeScope
