import TypeScope.Proofs.Parameters
import TypeScope.Proofs.Reports

/-! How long cached instances last. The cache goes by text: an instance is filed under a key that
starts with the full name of its type or owner and a bracket, and is handed out again until
something evicts that key. Updates and resets evict by such starts, and nothing else does. A start
is cut at the right place as long as the full names have no brackets themselves. -/
namespace TypeScope

def Definition.keyName : Definition → String
  | .unbound (.placeholder p) => p.owner.fullName
  | d => d.fullName

section Texts
variable {name own rest key : String}

theorem keyNamed {d : Definition} (filed : d.key? = some key) :
    ∃ rest, key = d.keyName ++ "[" ++ rest := by
  cases d with
  | bound i =>
    cases filed
    exact ⟨TypeRef.listed i.arguments ++ "]", String.append_assoc⟩
  | unbound o =>
    cases o with
    | declared t => cases filed
    | array a => cases filed
    | placeholder p =>
      cases filed
      have mark : "[!" = "[" ++ "!" := by decide
      refine ⟨"!" ++ p.parameter.name ++ "]", ?_⟩
      simp only [Placeholder.key, Placeholder.keyFor, Definition.keyName, mark, String.append_assoc]

theorem evictsIff {names : List String} :
    Scope.evicts names key = true ↔ ∃ name ∈ names, (name ++ "[").toList <+: key.toList := by
  rw [Scope.evicts, List.any_eq_true]
  simp only [List.isPrefixOf_iff_prefix]

theorem evictsOwn {names : List String} (mem : own ∈ names) :
    Scope.evicts names (own ++ "[" ++ rest) = true := by
  refine evictsIff.mpr ⟨own, mem, rest.toList, ?_⟩
  rw [← String.toList_append]

theorem startsShared (here : (name ++ "[").toList <+: (own ++ "[" ++ rest).toList) :
    name = own ∨ (name ++ "[").toList <+: own.toList ∨ (own ++ "[").toList <+: name.toList := by
  have there : (own ++ "[").toList <+: (own ++ "[" ++ rest).toList :=
    ⟨rest.toList, String.toList_append.symm⟩
  have cut (s : String) : (s ++ "[").toList = s.toList ++ ['['] := String.toList_append
  rcases List.prefix_or_prefix_of_prefix here there with shorter | longer
  · rw [cut own, List.prefix_concat_iff] at shorter
    rcases shorter with same | inside
    · rw [cut] at same
      exact .inl (String.toList_inj.mp (List.append_cancel_right same))
    · exact .inr (.inl inside)
  · rw [cut name, List.prefix_concat_iff] at longer
    rcases longer with same | inside
    · rw [cut] at same
      exact .inl (String.toList_inj.mp (List.append_cancel_right same)).symm
    · exact .inr (.inr inside)

end Texts

section Requests
open Query
variable {w : Workspace} {id : ScopeId} {key : String} {d : Definition}

inductive Serves (id : ScopeId) (key : String) (w : Workspace) : Definition → Workspace → Prop where
  | known {d : Definition} : (w.scope id).cache.get? key = some d → Serves id key w d w
  | made {d : Definition} : (w.scope id).cache.get? key = none →
      Serves id key w d (w.remembering id key d)

theorem Serves.filed {after : Workspace} (serves : Serves id key w d after)
    (opened : id < w.scopes.length) : (after.scope id).cache.get? key = some d := by
  cases serves with
  | known found => exact found
  | made new => rw [Workspace.remembering, Workspace.scopeModify, if_pos ⟨rfl, opened⟩,
      Table.getPut, if_pos rfl]

theorem Serves.again {after : Workspace} {e : Definition} (serves : Serves id key w d after)
    (filed : (w.scope id).cache.get? key = some e) : d = e := by
  cases serves with
  | known found => exact Option.some.inj (found.symm.trans filed)
  | made new => cases new.symm.trans filed

theorem instantiateServes (id : ScopeId) (w : Workspace) (o : OpenType) {arguments : List TypeRef}
    (some_ : arguments ≠ []) : Serves id (Instantiation.keyFor o.fullName arguments) w
      ((instantiate id (.unbound o) arguments).run w).1
      ((instantiate id (.unbound o) arguments).run w).2 := by
  rw [instantiateRun id w o some_]
  cases known : (w.scope id).cache.get? (Instantiation.keyFor o.fullName arguments) with
  | some d => exact .known known
  | none => exact .made known

theorem placeholderServes (id : ScopeId) (w : Workspace) (owner : Declared) (p : TypeParameter) :
    Serves id (Placeholder.keyFor owner.fullName p.name) w ((placeholder id owner p).run w).1
      ((placeholder id owner p).run w).2 := by
  rw [placeholderRun]
  cases known : (w.scope id).cache.get? (Placeholder.keyFor owner.fullName p.name) with
  | some d => exact .known known
  | none => exact .made known

inductive Demand where
  | binding (d : Definition) (arguments : List TypeRef)
  | naming (depth : Depth) (rule : CaseRule) (name : String) (arguments : List TypeRef)
  | parameter (d : Definition) (rule : CaseRule) (name : String)

namespace Demand

def question : Demand → Question
  | binding d arguments => .instanceOf d arguments
  | naming depth rule name arguments => .typeNamed depth rule name arguments
  | parameter d rule name => .parameter d rule name

def answer (id : ScopeId) (w : Workspace) : Demand → Option Definition
  | binding d arguments => some ((instantiate id d arguments).run w).1
  | naming depth rule name arguments => ((getType id depth rule name arguments).run w).1
  | parameter d rule name => ((parameterNamed id d rule name).run w).1

def key? (id : ScopeId) (w : Workspace) : Demand → Option String
  | binding (.bound _) _ => none
  | binding (.unbound o) arguments =>
      if arguments.isEmpty then none else some (Instantiation.keyFor o.fullName arguments)
  | naming depth rule name arguments =>
      if arguments.isEmpty then none
      else (w.findType id depth rule (Arity.strip name).1 arguments.length).map
        (fun t => Instantiation.keyFor t.fullName arguments)
  | parameter d rule name =>
      (d.parameter? rule name).map (fun found => Placeholder.keyFor found.1.fullName found.2.name)

theorem serves {demand : Demand} (keyed : demand.key? id w = some key) :
    ∃ d, demand.answer id w = some d ∧ Serves id key w d (demand.question.after id w) := by
  cases demand with
  | binding d arguments =>
    cases d with
    | bound i => cases keyed
    | unbound o =>
      rw [key?, Option.ite_none_left_eq_some] at keyed
      obtain ⟨some_, same⟩ := keyed
      cases same
      exact ⟨_, rfl, instantiateServes id w o fun none_ => some_ (List.isEmpty_iff.mpr none_)⟩
  | naming depth rule name arguments =>
    rw [key?, Option.ite_none_left_eq_some] at keyed
    obtain ⟨some_, selected⟩ := keyed
    obtain ⟨t, found, rfl⟩ := Option.map_eq_some_iff.mp selected
    have arity : askedArity name arguments = arguments.length := by rw [askedArity, if_neg some_]
    have run := getTypeRun (arity.symm ▸ found)
    rw [answer, question, Question.after, run]
    exact ⟨_, rfl, instantiateServes id w (.declared t) fun none_ =>
      some_ (List.isEmpty_iff.mpr none_)⟩
  | parameter d rule name =>
    obtain ⟨found, here, rfl⟩ := Option.map_eq_some_iff.mp keyed
    have run := parameterRun id rule name d w
    rw [here] at run
    rw [answer, question, Question.after, run]
    exact ⟨_, rfl, placeholderServes id w found.1 found.2⟩

theorem keeps (demand : Demand) : demand.question.forgets = false := by cases demand <;> rfl

end Demand
end Requests

section Sessions
variable {s : Session} {id : ScopeId} {key : String} {d : Definition}

namespace Session

def update? (s : Session) (id : ScopeId) : Event → Option Update
  | .ingests at_ unit => if at_ = id then s.written[unit]?.map Update.ingest else none
  | .removes at_ file => if at_ = id then some (.remove file) else none
  | _ => none

def reset? (id : ScopeId) : Event → Option Definition
  | .asks at_ (.forget d) => if at_ = id then some d else none
  | _ => none

def affected (s : Session) (id : ScopeId) (e : Event) : List String :=
  ((s.update? id e).elim [] fun u => ((u.applyTo id).run s.workspace).1.names) ++
    ((reset? id e).map Definition.fullName).toList

def Spares (id : ScopeId) (key : String) : Session → List Event → Prop
  | _, [] => True
  | s, e :: rest => Scope.evicts (s.affected id e) key = false ∧ Spares id key (s.perform e) rest

end Session

theorem cutCached (w : Workspace) (at_ id : ScopeId) {f : Scope → Scope} {names : List String}
    (cuts : ∀ key, (f (w.scope at_)).cache.get? key =
      if Scope.evicts names key then none else (w.scope at_).cache.get? key) (key : String) :
    ((w.modifyScope at_ f).scope id).cache.get? key =
      if Scope.evicts (if at_ = id then names else []) key then none
      else (w.scope id).cache.get? key := by
  rw [Workspace.scopeModify]
  by_cases here : at_ = id
  · subst here
    rw [if_pos rfl]
    by_cases opened : at_ < w.scopes.length
    · rw [if_pos ⟨rfl, opened⟩]
      exact cuts key
    · rw [if_neg fun both => opened both.2, w.scopeUnopened (Nat.le_of_not_lt opened)]
      split <;> rfl
  · rw [if_neg fun both => here both.1.symm, if_neg here]
    rfl

theorem updateCached (w : Workspace) (at_ id : ScopeId) (u : Update) (key : String) :
    (((u.applyTo at_).run w).2.scope id).cache.get? key =
      if Scope.evicts (if at_ = id then ((u.applyTo at_).run w).1.names else []) key then none
      else (w.scope id).cache.get? key := by
  have applied : ((u.applyTo at_).run w).2 = Pending.apply w ⟨at_, u⟩ := rfl
  have reported : ((u.applyTo at_).run w).1 = (((w.scope at_).store.settled w.links).replaceFile
      (Stamp.at w.clock) u.file u.unit?).2 := by cases u <;> rfl
  have cuts := Scope.cacheReplaced (w.scope at_) w.links (Stamp.at w.clock) u.file u.unit?
  rw [applied, w.applyUpdate, reported]
  exact cutCached { w with clock := w.clock + 1 } at_ id (f := fun _ =>
    ((w.scope at_).replaceFile w.links (Stamp.at w.clock) u.file u.unit?).1) cuts key

theorem resetCached (w : Workspace) (at_ id : ScopeId) (forgotten : Definition) (key : String) :
    (((Query.resetInstances at_ forgotten).run w).2.scope id).cache.get? key =
      if Scope.evicts (if at_ = id then [forgotten.fullName] else []) key then none
      else (w.scope id).cache.get? key :=
  cutCached w at_ id (f := fun s => [forgotten.fullName].foldl Scope.evict s)
    (fun key => Scope.cacheEvicted (w.scope at_) _ key) key

theorem eventCached (filed : Filed s.workspace) (id : ScopeId) (e : Event) :
    (∀ key, ((s.perform e).workspace.scope id).cache.get? key =
      if Scope.evicts (s.affected id e) key then none
      else (s.workspace.scope id).cache.get? key) ∨
    s.affected id e = [] ∧ ∀ key d, (s.workspace.scope id).cache.get? key = some d →
      ((s.perform e).workspace.scope id).cache.get? key = some d := by
  cases e with
  | opens uri =>
    have same := Workspace.scopeOpened Scope.cache s.workspace uri id rfl
    exact .inl fun key => congrArg (Table.get? · key) same
  | writes source => exact .inl fun key => rfl
  | refers at_ references =>
    have same := Workspace.viewScope Scope.cache s.workspace at_ id
      (f := fun scope => { scope with references := s.known references }) rfl
    exact .inl fun key => congrArg (Table.get? · key) same
  | ingests at_ unit =>
    refine .inl fun key => ?_
    cases given : s.written[unit]? with
    | none =>
      have nothing : s.affected id (.ingests at_ unit) = [] := by
        simp [Session.affected, Session.update?, Session.reset?, given]
      have same : s.perform (.ingests at_ unit) = s := by simp [Session.perform, given]
      rw [nothing, same]
      rfl
    | some u =>
      have names : s.affected id (.ingests at_ unit) = if at_ = id then
          (((Update.ingest u).applyTo at_).run s.workspace).1.names else [] := by
        by_cases here : at_ = id <;>
          simp [Session.affected, Session.update?, Session.reset?, given, here]
      have done : (s.perform (.ingests at_ unit)).workspace =
          (((Update.ingest u).applyTo at_).run s.workspace).2 := by
        rw [Session.perform, given]
        rfl
      rw [names, done]
      exact updateCached s.workspace at_ id (.ingest u) key
  | removes at_ file =>
    have names : s.affected id (.removes at_ file) = if at_ = id then
        (((Update.remove file).applyTo at_).run s.workspace).1.names else [] := by
      by_cases here : at_ = id <;> simp [Session.affected, Session.update?, Session.reset?, here]
    rw [names]
    exact .inl (updateCached s.workspace at_ id (.remove file))
  | asks at_ q =>
    cases q with
    | forget forgotten =>
      have names : s.affected id (.asks at_ (.forget forgotten)) =
          if at_ = id then [forgotten.fullName] else [] := by
        by_cases here : at_ = id <;> simp [Session.affected, Session.update?, Session.reset?, here]
      rw [names]
      exact .inl (resetCached s.workspace at_ id forgotten)
    | _ => exact .inr ⟨rfl, ((Grown.refl filed).asks rfl at_).kept id⟩

theorem eventKept (filed : Filed s.workspace) (e : Event)
    (found : (s.workspace.scope id).cache.get? key = some d) :
    ((s.perform e).workspace.scope id).cache.get? key =
      if Scope.evicts (s.affected id e) key then none else some d := by
  rcases eventCached filed id e with told | ⟨nothing, kept⟩
  · rw [told, found]
  · rw [nothing, kept key d found]
    rfl

theorem eventSpared (filed : Filed s.workspace) (e : Event)
    (left : ((s.perform e).workspace.scope id).cache.get? key = some d) :
    Scope.evicts (s.affected id e) key = false := by
  rcases eventCached filed id e with told | ⟨nothing, -⟩
  · rw [told] at left
    split at left
    · cases left
    · rename_i spared
      exact Bool.eq_false_iff.mpr spared
  · rw [nothing]
    rfl

theorem sparedCached (filed : Filed s.workspace) {events : List Event}
    (spares : Session.Spares id key s events)
    (found : (s.workspace.scope id).cache.get? key = some d) :
    ((events.foldl Session.perform s).workspace.scope id).cache.get? key = some d := by
  induction events generalizing s with
  | nil => exact found
  | cons e rest ih =>
    obtain ⟨kept, later⟩ := spares
    have still := eventKept filed e found
    rw [kept] at still
    exact ih (Session.filedPerform filed e) later still

theorem affectedFrom {e : Event} {name : String} (mem : name ∈ s.affected id e) :
    (∃ u, s.update? id e = some u ∧ name ∈ ((u.applyTo id).run s.workspace).1.names) ∨
      ∃ d, e = .asks id (.forget d) ∧ d.fullName = name := by
  rcases List.mem_append.mp mem with reported | reset
  · cases update : s.update? id e with
    | none =>
      rw [update] at reported
      cases reported
    | some u =>
      rw [update] at reported
      exact .inl ⟨u, rfl, reported⟩
  · refine .inr ?_
    rw [Option.mem_toList, Option.map_eq_some_iff] at reset
    obtain ⟨d, given, named⟩ := reset
    unfold Session.reset? at given
    split at given
    · split at given
      · rename_i at_ forgotten here
        cases given
        exact ⟨_, here ▸ rfl, named⟩
      · cases given
    · cases given

theorem updatePerformed {e : Event} {u : Update} (update : s.update? id e = some u) :
    ((∃ unit, e = .ingests id unit) ∨ ∃ file, e = .removes id file) ∧
      (s.perform e).workspace = ((u.applyTo id).run s.workspace).2 := by
  unfold Session.update? at update
  split at update
  · rename_i at_ unit
    split at update
    · rename_i here
      subst here
      obtain ⟨given, written, rfl⟩ := Option.map_eq_some_iff.mp update
      refine ⟨.inl ⟨unit, rfl⟩, ?_⟩
      rw [Session.perform, written]
      rfl
    · cases update
  · rename_i at_ file
    split at update
    · rename_i here
      subst here
      cases update
      exact ⟨.inr ⟨file, rfl⟩, rfl⟩
    · cases update
  · cases update

def Store.Unbracketed (s : Store) : Prop := ∀ t ∈ s.allTypes, '[' ∉ t.fullName.toList

instance (s : Store) : Decidable s.Unbracketed :=
  inferInstanceAs (Decidable (∀ t ∈ s.allTypes, '[' ∉ t.fullName.toList))

theorem reportUnbracketed (events : List Event)
    (opened : id < (Session.run events).workspace.scopes.length) {u : Update} {name : String}
    (listed : name ∈ ((u.applyTo id).run (Session.run events).workspace).1.names)
    (before : ((Session.run events).workspace.store id).Unbracketed)
    (after : (((u.applyTo id).run (Session.run events).workspace).2.store id).Unbracketed) :
    '[' ∉ name.toList := by
  rcases reportKnown events opened u listed with ⟨t, stored, rfl⟩ | ⟨t, stored, rfl⟩
  · exact before t stored
  · exact after t stored

/-- The lifetime of cached instances, in any session. Two requests that go by one key answer the
same object unless some event between them evicts the key. Only an update of the scope or a reset of
a type evicts; it evicts exactly the keys that start with an affected full name and a bracket, so
that no instance is left whose type or owner bears an affected name. In a scope where no declared
full name has a bracket an instance stays if the full name of its type or owner is not affected and
does not start with an affected one and a bracket, unless, with a bracket behind it, it itself starts
the full name of a type that is reset. -/
theorem instancesLast (events : List Event) {id : ScopeId}
    (opened : id < (Session.run events).workspace.scopes.length) :
    let s := Session.run events
    (∀ (first second : Demand) (between : List Event) (key : String),
      let asked := s.perform (.asks id first.question)
      let later := between.foldl Session.perform asked
      first.key? id s.workspace = some key → second.key? id later.workspace = some key →
      Session.Spares id key asked between →
      ∃ d, first.answer id s.workspace = some d ∧ second.answer id later.workspace = some d) ∧
    (∀ e, s.affected id e ≠ [] → (∃ unit, e = .ingests id unit) ∨ (∃ file, e = .removes id file) ∨
      ∃ d, e = .asks id (.forget d)) ∧
    ∀ e, let cache := (s.workspace.scope id).cache
      let left := ((s.perform e).workspace.scope id).cache
      (∀ key d, cache.get? key = some d →
        left.get? key = if Scope.evicts (s.affected id e) key then none else some d) ∧
      (∀ key d, left.get? key = some d → d.keyName ∉ s.affected id e) ∧
      ((s.workspace.store id).Unbracketed → ((s.perform e).workspace.store id).Unbracketed →
        ∀ key d, cache.get? key = some d →
          (∀ name ∈ s.affected id e,
            d.keyName ≠ name ∧ ¬ (name ++ "[").toList <+: d.keyName.toList) →
          (∀ ty, e = .asks id (.forget ty) → ¬ (d.keyName ++ "[").toList <+: ty.fullName.toList) →
          left.get? key = some d) := by
  intro s
  have filed : Filed s.workspace := Session.filed events
  refine ⟨?_, fun e some_ => ?_, fun e => ⟨fun key d found => eventKept filed e found, ?_, ?_⟩⟩
  · intro first second between key asked later keyed again spares
    obtain ⟨d, answered, served⟩ := Demand.serves keyed
    obtain ⟨e, answer, served'⟩ := Demand.serves again
    have kept := sparedCached (Session.filedPerform filed _) spares (served.filed opened)
    exact ⟨d, answered, by rw [answer, served'.again kept]⟩
  · obtain ⟨name, mem⟩ := List.exists_mem_of_ne_nil _ some_
    rcases affectedFrom mem with ⟨u, update, -⟩ | ⟨d, reset, -⟩
    · rcases (updatePerformed update).1 with ingests | removes
      · exact .inl ingests
      · exact .inr (.inl removes)
    · exact .inr (.inr ⟨d, reset⟩)
  · intro key d found affects
    obtain ⟨rest, rfl⟩ := keyNamed ((Session.filedPerform filed e).entries id key d found).1
    have spared := eventSpared filed e found
    rw [evictsOwn affects] at spared
    cases spared
  · intro before after key d found apart reset
    obtain ⟨rest, rfl⟩ := keyNamed (filed.entries id key d found).1
    have kept := eventKept filed e found
    rw [if_neg] at kept
    · exact kept
    · intro evicted
      obtain ⟨name, mem, starts⟩ := evictsIff.mp evicted
      obtain ⟨other, foreign⟩ := apart name mem
      rcases startsShared starts with same | longer | shorter
      · exact other same.symm
      · exact foreign longer
      · -- the name then has a bracket, so that it is not one that an update reports
        rcases affectedFrom mem with ⟨u, update, listed⟩ | ⟨ty, forgets, rfl⟩
        · rw [(updatePerformed update).2] at after
          exact reportUnbracketed events opened listed before after (shorter.subset (by simp))
        · exact reset ty forgets shorter

section Boxes

def similarBoxes : List Event :=
  let generic (name : String) : Blueprint :=
    { Blueprint.bare name .classType with typeParameters := [⟨"T", []⟩] }
  [.opens "app", .writes ⟨⟨0⟩, "Box.cs", [], [generic "App.Box"]⟩,
    .writes ⟨⟨1⟩, "BoxSet.cs", [], [generic "App.BoxSet"]⟩, .ingests 0 0, .ingests 0 1]

def boxDemand (argument : String) : Demand :=
  .naming .deep .exact "App.Box" [TypeRef.named argument]

def boxAsked (argument : String) : List Event :=
  similarBoxes ++ [.asks 0 (boxDemand argument).question]

theorem instancesLastBoxes : ∃ d,
    0 < (Session.run similarBoxes).workspace.scopes.length ∧
    (boxDemand "System.String").answer 0 (Session.run similarBoxes).workspace = some d ∧
    (boxDemand "System.String").answer 0
      ([.ingests 0 1, .removes 0 ⟨1⟩].foldl Session.perform
        (Session.run (boxAsked "System.String"))).workspace = some d ∧
    (((Session.run (boxAsked "System.String")).perform (.removes 0 ⟨1⟩)).workspace.scope
      0).cache.get? "App.Box[System.String]" = some d ∧
    (((Session.run (boxAsked "System.String")).perform (.removes 0 ⟨0⟩)).workspace.scope
      0).cache.get? "App.Box[System.String]" = none := by
  have opened : 0 < (Session.run similarBoxes).workspace.scopes.length := by decide +kernel
  have keyed : (boxDemand "System.String").key? 0 (Session.run similarBoxes).workspace =
      some "App.Box[System.String]" := by decide +kernel
  have asked : Session.run (boxAsked "System.String") =
      (Session.run similarBoxes).perform (.asks 0 (boxDemand "System.String").question) :=
    Session.runAppend ..
  obtain ⟨same, -⟩ := instancesLast similarBoxes opened
  obtain ⟨d, first, second⟩ := same (boxDemand "System.String") (boxDemand "System.String")
    [.ingests 0 1, .removes 0 ⟨1⟩] "App.Box[System.String]" keyed (by decide +kernel)
    ⟨by decide +kernel, by decide +kernel, trivial⟩
  obtain ⟨e, answer, served⟩ := Demand.serves keyed
  cases first.symm.trans answer
  have cached : ((Session.run (boxAsked "System.String")).workspace.scope 0).cache.get?
      "App.Box[System.String]" = some d := by
    rw [asked]
    exact served.filed opened
  have kept : 0 < (Session.run (boxAsked "System.String")).workspace.scopes.length := by
    decide +kernel
  obtain ⟨-, -, each⟩ := instancesLast (boxAsked "System.String") kept
  rw [← asked] at second
  refine ⟨d, opened, first, second, ?_, ?_⟩
  · obtain ⟨-, -, stays⟩ := each (.removes 0 ⟨1⟩)
    have named : ((boxDemand "System.String").answer 0 (Session.run similarBoxes).workspace).map
        Definition.keyName = some "App.Box" := by decide +kernel
    rw [first] at named
    refine stays (by decide +kernel) (by decide +kernel) _ d cached ?_ fun ty never =>
      nomatch never
    rw [Option.some.inj named]
    decide +kernel
  · have evicted := (each (.removes 0 ⟨0⟩)).1 _ d cached
    rwa [if_pos (by decide +kernel)] at evicted

def boxArray : Definition := .unbound (.array ⟨Stamp.at 9, TypeRef.named "App.Box", none⟩)

theorem instancesOvertaken : ∃ d,
    let s := Session.run (boxAsked "][x.Y")
    let e := Event.asks 0 (.forget boxArray)
    (s.workspace.store 0).Unbracketed ∧ ((s.perform e).workspace.store 0).Unbracketed ∧
    (s.workspace.scope 0).cache.get? "App.Box[][x.Y]" = some d ∧ s.affected 0 e = ["App.Box[]"] ∧
    (∀ name ∈ s.affected 0 e,
      d.keyName ≠ name ∧ ¬ (name ++ "[").toList <+: d.keyName.toList) ∧
    ((s.perform e).workspace.scope 0).cache.get? "App.Box[][x.Y]" = none := by
  have some_ : (((Session.run (boxAsked "][x.Y")).workspace.scope 0).cache.get?
      "App.Box[][x.Y]").map Definition.keyName = some "App.Box" := by decide +kernel
  obtain ⟨d, cached, named⟩ := Option.map_eq_some_iff.mp some_
  refine ⟨d, by decide +kernel, by decide +kernel, cached, by decide +kernel, ?_, ?_⟩
  · rw [named]
    decide +kernel
  · rw [← Option.isNone_iff_eq_none]
    decide +kernel

end Boxes
end Sessions
end TypeScope
