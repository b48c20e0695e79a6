import TypeScope.Proofs.Currency

/-! How old the index of subtypes may be. It is the index of some earlier moment since which the
types of its own scope are the same; what happened in other scopes, or to the references, may have
changed where the bases of those types lead. -/
namespace TypeScope
open Query

def Scope.standing (s : Scope) :
    (String × Store × List ScopeId) × Option (Table String (List Declared)) :=
  (s.lasting, s.subtypes)

def Workspace.standing (w : Workspace) :
    List ((String × Store × List ScopeId) × Option (Table String (List Declared))) :=
  w.scopes.map Scope.standing

section Questions
variable {w v : Workspace} {id other : ScopeId}

theorem Workspace.standingScope (same : v.standing = w.standing) (id : ScopeId) :
    (v.scope id).subtypes = (w.scope id).subtypes ∧ v.store id = w.store id := by
  have here : (v.scope id).standing = (w.scope id).standing := by
    rw [viewAt Scope.standing, viewAt Scope.standing]
    exact congrArg (fun scopes => scopes.getD id (Scope.standing (Scope.fresh ""))) same
  exact ⟨congrArg Prod.snd here, congrArg (fun standing => standing.1.2.1) here⟩

theorem standingFrame (w : Workspace) :
    Frame (fun v => v.standing = w.standing) (fun _ _ => True) where
  aside holds same _ := by
    rw [Workspace.standing, same]
    exact holds
  found _ _ := trivial
  known _ _ := trivial
  current _ _ := trivial
  instances _ holds _ _ _ _ := ⟨trivial, (Workspace.viewModify Scope.standing _ _ rfl).trans holds⟩
  placeholders _ holds _ _ := ⟨trivial, (Workspace.viewModify Scope.standing _ _ rfl).trans holds⟩
  arrays _ _ := trivial

theorem indexKept {index : SubtypeIndex} (kept : (w.scope id).subtypes = some index) :
    (subtypeIndex id).run w = (index, w) := by
  simp only [subtypeIndex, StateT.run_bind, StateT.run_get, pure_bind, kept]
  rfl

theorem indexBuilt (none_ : (w.scope id).subtypes = none) :
    (subtypeIndex id).run w = (((buildIndex id).run w).1, ((buildIndex id).run w).2.modifyScope id
      (fun s => { s with subtypes := some ((buildIndex id).run w).1 })) := by
  simp only [subtypeIndex, StateT.run_bind, StateT.run_get, pure_bind, none_]
  rfl

theorem standingBuilt (id : ScopeId) (w : Workspace) :
    ((buildIndex id).run w).2.standing = w.standing :=
  ((standingFrame w).buildIndex id w rfl).1

theorem indexAsked (id other : ScopeId) (w : Workspace) :
    let after := ((subtypeIndex id).run w).2
    after.store other = w.store other ∧ ∀ index, (after.scope other).subtypes = some index →
      (w.scope other).subtypes = some index ∨
        index = ((buildIndex other).run w).1 := by
  intro after
  cases kept : (w.scope id).subtypes with
  | some index =>
    have same : after = w := congrArg Prod.snd (indexKept kept)
    rw [same]
    exact ⟨rfl, fun index here => .inl here⟩
  | none =>
    have same : after = ((buildIndex id).run w).2.modifyScope id
        (fun s => { s with subtypes := some ((buildIndex id).run w).1 }) :=
      congrArg Prod.snd (indexBuilt kept)
    obtain ⟨subtypes, store⟩ := Workspace.standingScope (standingBuilt id w) other
    have stored : ((((buildIndex id).run w).2.modifyScope id (fun s =>
        { s with subtypes := some ((buildIndex id).run w).1 })).scope other).store =
        (((buildIndex id).run w).2.scope other).store :=
      Workspace.viewScope Scope.store _ _ _ rfl
    rw [same]
    refine ⟨stored.trans store, fun index here => ?_⟩
    rw [Workspace.scopeModify] at here
    split at here
    · rename_i mine
      obtain ⟨rfl, -⟩ := mine
      cases here
      exact .inr rfl
    · rw [subtypes] at here
      exact .inl here

theorem standingLength (same : v.standing = w.standing) : v.scopes.length = w.scopes.length := by
  have lengths := congrArg List.length same
  rwa [Workspace.standing, Workspace.standing, List.length_map, List.length_map] at lengths

theorem indexThere (known : id < ((subtypeIndex id).run w).2.scopes.length) :
    (((subtypeIndex id).run w).2.scope id).subtypes = some ((subtypeIndex id).run w).1 := by
  cases kept : (w.scope id).subtypes with
  | some index =>
    rw [indexKept kept]
    exact kept
  | none =>
    rw [indexBuilt kept, Workspace.lengthModify] at known
    rw [indexBuilt kept, Workspace.scopeModify, if_pos ⟨rfl, known⟩]

theorem indexLeft (id : ScopeId) (w : Workspace) :
    Leaves (fun v => v.standing = ((subtypeIndex id).run w).2.standing) (subtypeIndex id) := by
  intro v holds
  refine ⟨?_, trivial⟩
  cases kept : (v.scope id).subtypes with
  | some index =>
    rw [indexKept kept]
    exact holds
  | none =>
    have beyond : v.scopes.length ≤ id := by
      rw [standingLength holds]
      refine Nat.le_of_not_lt fun known => ?_
      rw [(Workspace.standingScope holds id).1, indexThere known] at kept
      cases kept
    rw [← standingLength (standingBuilt id v)] at beyond
    rw [indexBuilt kept, Workspace.modifyScope, List.modify_eq_self beyond]
    exact (standingBuilt id v).trans holds

theorem subtypesStanding (id : ScopeId) (deep : Bool) (namespaces : Option (List String))
    (d : Definition) (w : Workspace) :
    ((Question.subtypes deep namespaces d).after id w).standing =
      ((subtypeIndex id).run w).2.standing := by
  have frame := standingFrame ((subtypeIndex id).run w).2
  have rest := leavesBind (frame.arrayOfArgument id d) fun _ =>
    frame.arraysOfObjects id (indexLeft id w) namespaces d
  exact (rest ((subtypeIndex id).run w).2 rfl).1

theorem questionIndex (q : Question) (id other : ScopeId) (w : Workspace) :
    (q.after id w).store other = w.store other ∧
      ∀ index, ((q.after id w).scope other).subtypes = some index →
        (w.scope other).subtypes = some index ∨ index = ((buildIndex other).run w).1 := by
  by_cases asks : ∃ deep namespaces d, q = .subtypes deep namespaces d
  · obtain ⟨deep, namespaces, d, rfl⟩ := asks
    obtain ⟨subtypes, store⟩ := Workspace.standingScope (subtypesStanding id deep namespaces d w) other
    obtain ⟨stored, indexed⟩ := indexAsked id other w
    refine ⟨store.trans stored, fun index here => indexed index ?_⟩
    rwa [subtypes] at here
  · have same : (q.after id w).standing = w.standing :=
      Question.leaves (standingFrame w) (Question.allowedAll (fun _ _ => trivial) id q)
        (fun _ _ v holds => (Workspace.viewModify Scope.standing v id rfl).trans holds)
        (fun deep namespaces d asked => absurd ⟨deep, namespaces, d, asked⟩ asks) rfl
    obtain ⟨subtypes, store⟩ := Workspace.standingScope same other
    exact ⟨store, fun index here => .inl (by rwa [subtypes] at here)⟩

end Questions

section Events
variable {s : Session} {e : Event} {id : ScopeId}

theorem typesReplaced {scope : Scope} (sound : scope.store.Sound) (links : Links) (stamp : Stamp)
    (file : FileId) (unit : Option CompilationUnit) {index : SubtypeIndex}
    (kept : (scope.replaceFile links stamp file unit).1.subtypes = some index) :
    scope.subtypes = some index ∧
      (scope.replaceFile links stamp file unit).1.store.allTypes = scope.store.allTypes := by
  have evicted : ∀ (names : List String) (s : Scope),
      (names.foldl Scope.evict s).subtypes = s.subtypes := by
    intro names
    induction names with
    | nil => exact fun s => rfl
    | cons name rest ih => exact fun s => ih (s.evict name)
  have nothing : ((scope.store.settled links).replaceFile stamp file unit).2.isEmpty = true := by
    by_contra some_
    simp only [Scope.replaceFile, if_neg some_] at kept
    cases kept
  rw [Scope.replaceStore]
  simp only [Scope.replaceFile, if_pos nothing] at kept
  rw [evicted] at kept
  refine ⟨kept, ?_⟩
  rw [Store.allTypes, Store.replaceReportless (Store.soundSettled sound links) stamp nothing]
  rfl

theorem eventIndex (stores : s.workspace.Stores Store.Sound) {index : SubtypeIndex}
    (kept : ((s.perform e).workspace.scope id).subtypes = some index) :
    ((s.workspace.scope id).subtypes = some index ∨
        index = ((buildIndex id).run s.workspace).1) ∧
      ((s.perform e).workspace.store id).allTypes = (s.workspace.store id).allTypes := by
  have replaced : ∀ at_ file unit,
      (((Query.replaceFile at_ file unit).run s.workspace).2.scope id).subtypes = some index →
        (s.workspace.scope id).subtypes = some index ∧
          (((Query.replaceFile at_ file unit).run s.workspace).2.store id).allTypes =
            (s.workspace.store id).allTypes := by
    intro at_ file unit here
    rw [Query.replaceRun, Workspace.scopeModify] at here
    rw [Query.replaceRun, Workspace.store, Workspace.scopeModify]
    split at here
    · rename_i mine
      obtain ⟨rfl, known⟩ := mine
      rw [if_pos ⟨rfl, known⟩]
      exact typesReplaced (stores.at Store.soundEmpty id) _ _ _ _ here
    · rename_i elsewhere
      rw [if_neg elsewhere]
      exact ⟨here, rfl⟩
  cases e with
  | opens uri =>
    have scope : ∀ {α : Type} (view : Scope → α), view (Scope.fresh uri) = view (Scope.fresh "") →
        view ((s.perform (.opens uri)).workspace.scope id) = view (s.workspace.scope id) :=
      fun view empty => Workspace.scopeOpened view s.workspace uri id empty
    rw [scope Scope.subtypes rfl] at kept
    exact ⟨.inl kept, congrArg Store.allTypes (scope Scope.store rfl)⟩
  | writes source => exact ⟨.inl kept, rfl⟩
  | ingests at_ unit =>
    simp only [Session.perform] at kept ⊢
    split at kept
    · obtain ⟨before, same⟩ := replaced at_ _ _ kept
      exact ⟨.inl before, same⟩
    · exact ⟨.inl kept, rfl⟩
  | removes at_ file =>
    obtain ⟨before, same⟩ := replaced at_ file none kept
    exact ⟨.inl before, same⟩
  | refers at_ references =>
    have scope : ∀ {α : Type} (view : Scope → α),
        (∀ scope : Scope, view { scope with references := s.known references } = view scope) →
        view ((s.perform (.refers at_ references)).workspace.scope id) =
          view (s.workspace.scope id) :=
      fun view hidden => Workspace.viewScope view s.workspace at_ id (hidden _)
    rw [scope Scope.subtypes fun _ => rfl] at kept
    exact ⟨.inl kept, congrArg Store.allTypes (scope Scope.store fun _ => rfl)⟩
  | asks at_ q =>
    obtain ⟨store, indexed⟩ := questionIndex q at_ id s.workspace
    exact ⟨indexed index kept, congrArg Store.allTypes store⟩

def BuiltAt (events : List Event) (id : ScopeId) (index : SubtypeIndex) (k : Nat) : Prop :=
  k ≤ events.length ∧
    index = ((buildIndex id).run (Session.run (events.take k)).workspace).1 ∧
    ∀ j, k ≤ j → j ≤ events.length →
      ((Session.run (events.take j)).workspace.store id).allTypes =
        ((Session.run events).workspace.store id).allTypes

theorem builtNow (events : List Event) (id : ScopeId) :
    BuiltAt events id ((buildIndex id).run (Session.run events).workspace).1 events.length := by
  refine ⟨Nat.le_refl _, by rw [List.take_length], fun j after within => ?_⟩
  rw [Nat.le_antisymm within after, List.take_length]

theorem builtBefore {events : List Event} {index : SubtypeIndex} {k : Nat}
    (built : BuiltAt events id index k)
    (same : (((Session.run events).perform e).workspace.store id).allTypes =
      ((Session.run events).workspace.store id).allTypes) :
    BuiltAt (events ++ [e]) id index k := by
  obtain ⟨within, made, since⟩ := built
  rw [← Session.runAppend] at same
  have early : ∀ j, j ≤ events.length → (events ++ [e]).take j = events.take j := fun j inside =>
    List.take_append_of_le_length inside
  refine ⟨?_, ?_, fun j after inside => ?_⟩
  · rw [List.length_append]
    exact Nat.le_add_right_of_le within
  · rw [early k within]
    exact made
  · rw [same]
    rcases Nat.lt_or_eq_of_le inside with before | last
    · have before : j ≤ events.length := by
        rw [List.length_append, List.length_singleton] at before
        omega
      rw [early j before]
      exact since j after before
    · rw [last, List.take_length]
      exact same

theorem keptBuilt (events : List Event) {index : SubtypeIndex}
    (kept : ((Session.run events).workspace.scope id).subtypes = some index) :
    ∃ k, BuiltAt events id index k := by
  induction events using List.reverseRecOn with
  | nil => cases kept
  | append_singleton events e ih =>
    rw [Session.runAppend] at kept
    obtain ⟨before | rfl, same⟩ := eventIndex (Session.storesSound events) kept
    · obtain ⟨k, built⟩ := ih before
      exact ⟨k, builtBefore built same⟩
    · exact ⟨events.length, builtBefore (builtNow events id) same⟩

/-- The index that a search for subtypes uses is the one that was built at some moment since which
the types of the scope are the same. -/
theorem indexAge (events : List Event) (id : ScopeId) :
    ∃ k, BuiltAt events id ((subtypeIndex id).run (Session.run events).workspace).1 k := by
  cases kept : ((Session.run events).workspace.scope id).subtypes with
  | some index =>
    rw [indexKept kept]
    exact keptBuilt events kept
  | none =>
    rw [indexBuilt kept]
    exact ⟨events.length, builtNow events id⟩

def plainSource (file : Nat) (name : String) (base : Option TypeRef) : Source where
  file := ⟨file⟩
  fileName := ""
  usings := []
  types := [{ Blueprint.bare name .classType with base := base }]

def otherType : Declared :=
  Blueprint.build (some ⟨0⟩) (Stamp.at 0) (Blueprint.bare "Lib.Other" .classType)

def lateBase : List Event :=
  [.opens "lib", .opens "app", .writes (plainSource 0 "Lib.Other" none), .ingests 0 0,
    .writes (plainSource 1 "App.Item" (some (TypeRef.named "Lib.Base"))), .ingests 1 1,
    .refers 1 [0], .asks 1 (.subtypes true none (.ofDeclared otherType)),
    .writes (plainSource 0 "Lib.Base" none), .ingests 0 2]

theorem indexOutdated : ∃ t,
    ((subtypeIndex 1).run (Session.run lateBase).workspace).1.of "Lib.Base" = [] ∧
    ((buildIndex 1).run (Session.run lateBase).workspace).1.of "Lib.Base" = [t] ∧
    t.fullName = "App.Item" :=
  ⟨_, rfl, rfl, rfl⟩

end Events
end TypeScope
