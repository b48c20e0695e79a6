import TypeScope.Proofs.Imports
import TypeScope.Proofs.NestedStorage
import TypeScope.Proofs.Reports

/-! What a lookup that ignores case finds. The store keeps its spellings under whole texts in lower
case, while names are compared by the lower forms of their characters; the two part ways at a sigma
that ends a word, and nowhere else. -/
namespace TypeScope

namespace Text

def steadyAfter (read : List Char) : List Char → Bool
  | [] => true
  | c :: after => (c != 'Σ' || !endsWord read after) && steadyAfter (c :: read) after

def Steady (s : String) : Prop := steadyAfter [] s.toList = true

instance (s : String) : Decidable (Steady s) :=
  inferInstanceAs (Decidable (steadyAfter [] s.toList = true))

def unfinal (c : Char) : Char := if c = 'ς' then 'σ' else c

def told (s : String) : List Char := (folded s).map unfinal

theorem lowerSigma : lowerChar 'Σ' = ['σ'] := by decide +kernel

theorem loweredAfterSteady (read cs : List Char) :
    loweredAfter read cs = cs.flatMap lowerChar ↔ steadyAfter read cs = true := by
  induction cs generalizing read with
  | nil => simp [loweredAfter, steadyAfter]
  | cons c after ih =>
    rw [loweredAfter, List.flatMap_cons, steadyAfter, Bool.and_eq_true, ← ih (c :: read)]
    by_cases sigma : c = 'Σ'
    · subst sigma
      cases endsWord read after <;> simp [lowerSigma]
    · simp [sigma]

theorem loweredAfterTold (read cs : List Char) :
    (loweredAfter read cs).map unfinal = (cs.flatMap lowerChar).map unfinal := by
  induction cs generalizing read with
  | nil => rfl
  | cons c after ih =>
    rw [loweredAfter, List.flatMap_cons, List.map_append, List.map_append, ih]
    congr 1
    by_cases sigma : c = 'Σ'
    · subst sigma
      cases endsWord read after <;> simp [lowerSigma, unfinal]
    · rw [if_neg sigma]

theorem loweredSteady {s : String} : lowered s = String.ofList (folded s) ↔ Steady s := by
  rw [lowered, String.ofList_inj, folded, loweredAfterSteady]
  rfl

theorem toldLowered {a b : String} (same : lowered a = lowered b) : told a = told b := by
  rw [lowered, lowered, String.ofList_inj] at same
  rw [told, folded, ← loweredAfterTold [], same, loweredAfterTold]
  rfl

theorem toldFolded {a b : String} (same : folded a = folded b) : told a = told b := by
  rw [told, told, same]

theorem loweredSame {a b : String} (steady : Steady a) (steady' : Steady b) :
    lowered a = lowered b ↔ Name.same .relaxed a b = true := by
  rw [loweredSteady.mpr steady, loweredSteady.mpr steady', String.ofList_inj, Name.sameRelaxed]

end Text

namespace Store
variable {units : List CompilationUnit} {s : Store} {name : String} {arity : Nat} {t : Declared}

theorem relaxedFound (sound : s.Sound) (found : s.lookup .relaxed name arity = some t) :
    t ∈ s.allTypes ∧ t.arity = arity ∧ Text.lowered t.fullName = Text.lowered name := by
  obtain ⟨stored, arity, same⟩ := sound.lookupFound found
  refine ⟨candidatesMem (findMem stored).1, arity, ?_⟩
  rcases same with rfl | ⟨-, lowered⟩
  · rfl
  · exact lowered

theorem relaxedFinds (sound : s.Sound) (reflects : Reflects units s) :
    (s.lookup .relaxed name arity).isSome = true ↔
      ∃ t ∈ s.allTypes, t.arity = arity ∧ Text.lowered t.fullName = Text.lowered name := by
  constructor
  · intro found
    obtain ⟨t, found⟩ := Option.isSome_iff_exists.mp found
    exact ⟨t, relaxedFound sound found⟩
  · rintro ⟨t, mem, rfl, same⟩
    by_contra missed
    rw [Bool.not_eq_true, Option.isSome_eq_false_iff, Option.isNone_iff_eq_none] at missed
    have absent := sound.lookupMissed missed (.inr ⟨rfl, same⟩)
    rw [reflects.findOwn sound mem] at absent
    cases absent

theorem relaxedPrefers (sound : s.Sound) (reflects : Reflects units s) (mem : t ∈ s.allTypes) :
    s.lookup .relaxed t.fullName t.arity = some t := by
  simp only [lookup, reflects.findOwn sound mem]

end Store

namespace Workspace
variable {w : Workspace} {id : ScopeId} {name : String} {arity : Nat}

def relaxedAnswer (w : Workspace) (id : ScopeId) (name : String) (arity : Nat) : Option Definition :=
  ((Query.getByArity id .shallow .relaxed name arity).run w).1

theorem relaxedLookup (w : Workspace) (id : ScopeId) (arity : Nat)
    (unmarked : Arity.mark ∉ name.toList) : w.relaxedAnswer id name arity =
      ((w.store id).lookup .relaxed name arity).map Definition.ofDeclared := by
  have asked : w.relaxedAnswer id name arity =
      (w.findType id .shallow .relaxed (Arity.strip name).1 arity).map .ofDeclared := rfl
  rw [asked, Arity.stripUnmarked unmarked, findType, consulted, List.findSome?_cons,
    List.findSome?_nil]
  cases (w.store id).lookup .relaxed name arity <;> rfl

structure FindsSame (w : Workspace) (id : ScopeId) (same : String → String → Prop) (name : String)
    (arity : Nat) : Prop where
  finds : (w.relaxedAnswer id name arity).isSome = true ↔
    ∃ t ∈ (w.store id).allTypes, t.arity = arity ∧ same t.fullName name
  answers : ∀ d, w.relaxedAnswer id name arity = some d →
    ∃ t ∈ (w.store id).allTypes, d = .ofDeclared t ∧ t.arity = arity ∧ same t.fullName name
  prefers : ∀ t ∈ (w.store id).allTypes, t.fullName = name → t.arity = arity →
    w.relaxedAnswer id name arity = some (.ofDeclared t)
  keeps : ∀ (update : Update), ∀ u ∈ (w.store id).units.values, u.file ≠ update.file →
    ∀ d ∈ Declared.preorders u.types, d.arity = arity → same d.fullName name →
      (((update.applyTo id).run w).2.relaxedAnswer id name arity).isSome = true

variable {same alike : String → String → Prop}

theorem FindsSame.congr (finds : w.FindsSame id same name arity)
    (agree : ∀ t ∈ (w.store id).allTypes, t.arity = arity →
      (same t.fullName name ↔ alike t.fullName name))
    (declared : ∀ u ∈ (w.store id).units.values, ∀ d ∈ Declared.preorders u.types,
      ∃ t ∈ (w.store id).allTypes, t.fullName = d.fullName ∧ t.arity = d.arity) :
    w.FindsSame id alike name arity where
  finds := finds.finds.trans <| exists_congr fun t => and_congr_right fun mem =>
    and_congr_right fun own => agree t mem own
  answers d found := by
    obtain ⟨t, mem, rfl, own, called⟩ := finds.answers d found
    exact ⟨t, mem, rfl, own, (agree t mem own).mp called⟩
  prefers := finds.prefers
  keeps update u listed other d mem own called := by
    obtain ⟨t, stored, full, arity⟩ := declared u listed d mem
    refine finds.keeps update u listed other d mem own ?_
    rw [← full] at called ⊢
    exact (agree t stored (arity.trans own)).mpr called

end Workspace

section Sessions
variable {id : ScopeId} {name : String} {arity : Nat}

theorem updateReflects (events : List Event)
    (opened : id < (Session.run events).workspace.scopes.length) (update : Update) :
    let w := (Session.run events).workspace
    let after := ((update.applyTo id).run w).2
    (after.store id).Sound ∧ ∃ units, units = (w.store id).units.values ∧
      Store.Reflects (Store.replaced units update.file update.unit?) (after.store id) := by
  intro w after
  obtain ⟨units, -, reflects⟩ := (Session.placed events).stores.at Store.writtenEmpty id
  have sound := (Session.storesSound events).at Store.soundEmpty id
  have own : ∀ unit ∈ update.unit?, unit.file = update.file := fun unit given =>
    Update.unitFile given
  obtain ⟨settled, -, stored, -, -⟩ := updateSeen events opened update
  have values : units = (w.store id).units.values := by
    rw [Table.values, reflects.stored, List.map_map]
    exact (List.map_id units).symm
  rw [stored]
  exact ⟨Store.soundReplace settled .., units, values,
    Store.replaceReflects reflects sound own w.links (Stamp.at w.clock)⟩

theorem findsLowered (events : List Event) (id : ScopeId) (unmarked : Arity.mark ∉ name.toList)
    (arity : Nat) : (Session.run events).workspace.FindsSame id
      (fun a b => Text.lowered a = Text.lowered b) name arity := by
  obtain ⟨units, -, reflects⟩ := (Session.placed events).stores.at Store.writtenEmpty id
  have sound := (Session.storesSound events).at Store.soundEmpty id
  have lookup := fun w => Workspace.relaxedLookup w id arity unmarked
  refine ⟨?_, fun d found => ?_, ?_, fun update u listed other d mem own same => ?_⟩
  · rw [lookup, Option.isSome_map, Store.relaxedFinds sound reflects]
  · rw [lookup] at found
    obtain ⟨t, selected, rfl⟩ := Option.map_eq_some_iff.mp found
    obtain ⟨mem, own, same⟩ := Store.relaxedFound sound selected
    exact ⟨t, mem, rfl, own, same⟩
  · rintro t mem rfl rfl
    rw [lookup, Store.relaxedPrefers sound reflects mem, Option.map_some]
  · have opened : id < (Session.run events).workspace.scopes.length := by
      by_contra beyond
      have blank := Workspace.scopeUnopened _ (Nat.le_of_not_lt beyond)
      rw [Workspace.store, blank] at listed
      cases listed
    obtain ⟨soundLater, _, rfl, later⟩ := updateReflects events opened update
    have kept : d ∈ Store.declarations (Store.replaced
        ((Session.run events).workspace.store id).units.values update.file update.unit?) :=
      List.mem_flatMap.mpr ⟨u, List.mem_append_left _ (List.mem_filter.mpr ⟨listed, by simpa⟩), mem⟩
    obtain ⟨t, found⟩ := later.finds kept
    obtain ⟨candidate, arity⟩ := Store.findMem found
    rw [lookup, Option.isSome_map, Store.relaxedFinds soundLater later]
    refine ⟨t, Store.candidatesMem candidate, arity.trans own, ?_⟩
    rw [soundLater.named _ t candidate, same]

/-- In every state of a scope, and for every name without arity marks, a lookup that ignores case
goes by the lower form of the whole text. What it finds differs from the name in case and in the
form of sigma only; and if no word of the name ends in a capital sigma, and of no type that is
stored under such a name, it goes by the lower forms of the characters, as names are compared
elsewhere. -/
theorem relaxedLookups (events : List Event) (id : ScopeId)
    (unmarked : Arity.mark ∉ name.toList) (arity : Nat) :
    let w := (Session.run events).workspace
    w.FindsSame id (fun a b => Text.lowered a = Text.lowered b) name arity ∧
    (∀ d, w.relaxedAnswer id name arity = some d → Text.told d.fullName = Text.told name) ∧
    (Text.Steady name → (∀ t ∈ (w.store id).allTypes, t.arity = arity →
        Text.told t.fullName = Text.told name → Text.Steady t.fullName) →
      w.FindsSame id (fun a b => Name.same .relaxed a b = true) name arity) := by
  intro w
  have finds := findsLowered events id unmarked arity
  refine ⟨finds, fun d found => ?_, fun steady others => ?_⟩
  · obtain ⟨t, -, rfl, -, same⟩ := finds.answers d found
    exact Text.toldLowered same
  · refine finds.congr (fun t mem own => ?_) fun u listed d mem => ?_
    · by_cases told : Text.told t.fullName = Text.told name
      · exact Text.loweredSame (others t mem own told) steady
      · exact iff_of_false (fun lowered => told (Text.toldLowered lowered))
          fun folded => told (Text.toldFolded (Name.sameRelaxed.mp folded))
    · obtain ⟨t, found, called, -⟩ := Session.declarationStored events id listed mem
      exact ⟨t, Store.candidatesMem (Store.findMem found).1, called⟩

section Examples

def spelledTwice : List Event :=
  [.opens "app", .writes (nestingSource 0 [("App.Box", [], [])]),
    .writes (nestingSource 1 [("app.box", [], [])]), .ingests 0 0]

theorem relaxedLookupsBox :
    let w := (Session.run (spelledTwice ++ [.ingests 0 1])).workspace
    let removed := (((Update.remove ⟨0⟩).applyTo 0).run w).2
    (w.relaxedAnswer 0 "APP.BOX" 0).isSome = true ∧
      (removed.relaxedAnswer 0 "APP.BOX" 0).isSome = true := by
  intro w removed
  let source := nestingSource 1 [("app.box", [], [])]
  let unit := CompilationUnit.build (Stamp.at 1) source.file "" [] source.types
  have written : (Session.run spelledTwice).written[1]? = some unit := rfl
  have listed := Session.unitIngested spelledTwice written (by decide +kernel : 0 < _)
  have unmarked : Arity.mark ∉ "APP.BOX".toList := by decide
  obtain ⟨-, -, finds⟩ := relaxedLookups (spelledTwice ++ [.ingests 0 1]) 0 unmarked 0
  have finds := finds (by decide +kernel) (by decide +kernel)
  obtain ⟨d, mem, own, same⟩ : ∃ d ∈ Declared.preorders unit.types, d.arity = 0 ∧
      Name.same .relaxed d.fullName "APP.BOX" = true := by decide +kernel
  refine ⟨finds.finds.mpr (by decide +kernel), ?_⟩
  exact finds.keeps (.remove ⟨0⟩) unit listed (by decide) d mem own same

def sigmaEnding : Workspace := (Session.run [.opens "app",
  .writes (nestingSource 0 [("ΟΔΟΣ", [], []), ("App.Outer", [], ["ΟΔΟΣ"])]), .ingests 0 0]).workspace

theorem sigmaMissed :
    (∃ t ∈ (sigmaEnding.store 0).allTypes, t.arity = 0 ∧
      Name.same .relaxed t.fullName "οδοσ" = true) ∧
    (sigmaEnding.relaxedAnswer 0 "οδοσ" 0).isSome = false ∧
    (∃ t ∈ (sigmaEnding.store 0).allTypes, t.fullName = "App.Outer" ∧
      (t.findNested .relaxed "οδοσ" 0).isSome = true) ∧
    (sigmaEnding.relaxedAnswer 0 "App.Outer.οδοσ" 0).isSome = false ∧
    (sigmaEnding.relaxedAnswer 0 "οδος" 0).isSome = true ∧
    ∀ t ∈ (sigmaEnding.store 0).allTypes, Name.same .relaxed t.fullName "οδος" = false := by
  decide +kernel

end Examples
end Sessions

end TypeScope
