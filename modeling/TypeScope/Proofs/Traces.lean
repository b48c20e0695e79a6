import TypeScope.Proofs.Converse
import TypeScope.Proofs.Erasure
import TypeScope.Proofs.InterchangedLookups

/-! What lookups leave behind does not show in what is stored, nor in what is found by name: whatever
was asked before, and whatever happens afterwards, the scopes hold the same types, and a name leads
to the same type or to an instance of the same key. Which type such an instance was made of may
depend on what was asked. -/
namespace TypeScope

section Workspaces

def Scope.bare (s : Scope) : Scope := ⟨s.uri, s.store.bare, s.references, Table.empty, none, 0⟩

def Workspace.bare (w : Workspace) : Workspace :=
  ⟨w.scopes.map Scope.bare, 0, Table.empty, Table.empty, Table.empty⟩

def Session.bare (s : Session) : Session :=
  ⟨s.workspace.bare, s.written.map CompilationUnit.bare⟩

namespace Workspace
variable {v w : Workspace}

theorem scopeBare (w : Workspace) (id : ScopeId) : w.bare.scope id = (w.scope id).bare := by
  rw [viewAt Scope.bare]
  rfl

theorem bareLasting (same : v.lasting = w.lasting) : v.bare = w.bare := by
  have told : ∀ w : Workspace, w.scopes.map Scope.bare =
      w.lasting.map (fun l => ⟨l.1, l.2.1.bare, l.2.2, Table.empty, none, 0⟩) := fun w => by
    rw [lasting, List.map_map]
    rfl
  rw [bare, bare, told, told, same]

theorem scopesAlike (same : v.bare = w.bare) (id : ScopeId) :
    (v.scope id).bare = (w.scope id).bare := by
  rw [← scopeBare, same, scopeBare]

theorem visitBare (w : Workspace) (steps : Nat) (visited : List String) (queue : List ScopeId) :
    w.bare.visit steps visited queue = w.visit steps visited queue := by
  have uris : ∀ id, w.bare.uri id = w.uri id := fun id => by
    rw [uri, scopeBare]
    rfl
  have refers : ∀ id, (w.bare.scope id).references = (w.scope id).references := fun id => by
    rw [scopeBare]
    rfl
  induction steps generalizing visited queue with
  | zero => rfl
  | succ steps ih =>
    unfold visit
    simp only [uris, refers, ih]

theorem findBare (w : Workspace) (id : ScopeId) (depth : Depth) (rule : CaseRule) (name : String)
    (arity : Nat) :
    w.bare.findType id depth rule name arity =
      (w.findType id depth rule name arity).map Declared.bare := by
  have consulted : w.bare.consulted id depth = w.consulted id depth := by
    cases depth with
    | shallow => rfl
    | deep =>
      have reached : w.bare.reach id = w.reach id := by
        have counted : w.bare.scopes.length = w.scopes.length := List.length_map _
        rw [reach, reach, visitBare, counted, uri, scopeBare]
        rfl
      rw [Workspace.consulted, Workspace.consulted, reached]
  have stores : ∀ at_, w.bare.store at_ = (w.store at_).bare := fun at_ =>
    congrArg Scope.store (w.scopeBare at_)
  rw [findType, findType, consulted]
  simp only [stores, Store.lookupBare]
  induction w.consulted id depth with
  | nil => rfl
  | cons at_ rest ih =>
    rw [List.findSome?_cons, List.findSome?_cons]
    cases (w.store at_).lookup rule name arity with
    | some d => rfl
    | none => exact ih

theorem rememberingBare (w : Workspace) (id : ScopeId) (key : String) (d : Definition) :
    (w.remembering id key d).bare = w.bare :=
  bareLasting (viewModify Scope.lasting { w with clock := w.clock + 1 } id rfl)

theorem modifyBare (same : v.bare = w.bare) (id : ScopeId) {f g : Scope → Scope}
    (changed : (f (v.scope id)).bare = (g (w.scope id)).bare) :
    (v.modifyScope id f).bare = (w.modifyScope id g).bare := by
  have scopes : v.scopes.map Scope.bare = w.scopes.map Scope.bare :=
    congrArg Workspace.scopes same
  have modified : (v.scopes.modify id f).map Scope.bare = (w.scopes.modify id g).map Scope.bare := by
    refine List.ext_getElem? fun i => ?_
    have here := congrArg (fun l => l[i]?) scopes
    simp only [List.getElem?_map] at here
    simp only [List.getElem?_map, List.getElem?_modify]
    rcases Query.bothOrNeither here with ⟨left, right⟩ | ⟨s, t, left, right, alike⟩
    · rw [left, right]
      rfl
    · rw [left, right]
      by_cases there : id = i
      · subst there
        have own : v.scope id = s := by simp [scope, left]
        have other : w.scope id = t := by simp [scope, right]
        rw [own, other] at changed
        simpa using changed
      · simpa [there] using alike
  rw [bare, bare, modifyScope, modifyScope]
  dsimp only
  rw [modified]

end Workspace

theorem Scope.replaceBare {s t : Scope} (same : s.bare = t.bare) (links links' : Links)
    (stamp stamp' : Stamp) (file : FileId) {unit unit' : Option CompilationUnit}
    (units : unit.map CompilationUnit.bare = unit'.map CompilationUnit.bare) :
    (s.replaceFile links stamp file unit).1.bare = (t.replaceFile links' stamp' file unit').1.bare ∧
      (s.replaceFile links stamp file unit).2 = (t.replaceFile links' stamp' file unit').2 := by
  have stores : (s.store.settled links).bare = (t.store.settled links').bare := by
    rw [Store.settledBare, Store.settledBare]
    exact congrArg Scope.store same
  obtain ⟨left, leftReport⟩ := Store.replaceBare (s.store.settled links) stamp stamp file unit
  obtain ⟨right, rightReport⟩ := Store.replaceBare (t.store.settled links') stamp stamp' file unit'
  have report : (s.replaceFile links stamp file unit).2 =
      (t.replaceFile links' stamp' file unit').2 := by
    refine leftReport.symm.trans (Eq.trans ?_ rightReport)
    rw [stores, units]
  have store : (s.replaceFile links stamp file unit).1.store.bare =
      (t.replaceFile links' stamp' file unit').1.store.bare := by
    rw [replaceStore, replaceStore, ← left, ← right, stores, units]
  refine ⟨?_, report⟩
  have outlined := outlineReplaceFile s links stamp file unit
  have outlined' := outlineReplaceFile t links' stamp' file unit'
  have uris : s.uri = t.uri := (congrArg Scope.uri same : s.bare.uri = t.bare.uri)
  have references : s.references = t.references :=
    (congrArg Scope.references same : s.bare.references = t.bare.references)
  obtain ⟨uri, _, refers⟩ : _ ∧ _ ∧ _ := by simpa [outline] using outlined
  obtain ⟨uri', _, refers'⟩ : _ ∧ _ ∧ _ := by simpa [outline] using outlined'
  rw [bare, bare, store, uri, uri', refers, refers', uris, references]

end Workspaces

section Sessions
variable {s t : Session}

theorem lastingFrame (v : Workspace) :
    Query.Frame (fun w => w.lasting = v.lasting) (fun _ _ => True) where
  aside holds same _ := by
    rw [Workspace.lasting, same]
    exact holds
  found _ _ := trivial
  known _ _ := trivial
  current _ _ := trivial
  instances _ holds _ _ _ _ := ⟨trivial, (Workspace.viewModify Scope.lasting _ _ rfl).trans holds⟩
  placeholders _ holds _ _ := ⟨trivial, (Workspace.viewModify Scope.lasting _ _ rfl).trans holds⟩
  arrays _ _ := trivial

theorem Question.lasting (q : Question) (id : ScopeId) (w : Workspace) :
    (q.after id w).lasting = w.lasting :=
  Question.leaves (lastingFrame w) (Question.allowedAll (fun _ _ => trivial) id q)
    (fun _ _ _ holds => (Workspace.viewModify Scope.lasting _ _ rfl).trans holds)
    (fun _ _ _ _ _ _ holds => (Workspace.viewModify Scope.lasting _ _ rfl).trans holds) rfl

namespace Session

theorem asksBare (s : Session) (id : ScopeId) (q : Question) :
    (s.perform (.asks id q)).bare = s.bare := by
  rw [bare, perform, bare, Workspace.bareLasting (q.lasting id s.workspace)]

theorem replacesBare (same : s.bare = t.bare) (id : ScopeId) (file : FileId)
    (unit unit' : Option CompilationUnit)
    (units : unit.map CompilationUnit.bare = unit'.map CompilationUnit.bare) :
    ((Query.replaceFile id file unit).run s.workspace).2.bare =
        ((Query.replaceFile id file unit').run t.workspace).2.bare ∧
      ((Query.replaceFile id file unit).run s.workspace).1 =
        ((Query.replaceFile id file unit').run t.workspace).1 := by
  have workspaces : s.workspace.bare = t.workspace.bare := congrArg Session.workspace same
  obtain ⟨scope, report⟩ := Scope.replaceBare (Workspace.scopesAlike workspaces id)
    s.workspace.links t.workspace.links (Stamp.at s.workspace.clock) (Stamp.at t.workspace.clock) file units
  refine ⟨?_, report⟩
  rw [Query.replaceRun, Query.replaceRun]
  exact Workspace.modifyBare (v := { s.workspace with clock := s.workspace.clock + 1 })
    (w := { t.workspace with clock := t.workspace.clock + 1 }) workspaces id scope

theorem opensBare (same : s.bare = t.bare) (uri : String) :
    (s.perform (.opens uri)).bare = (t.perform (.opens uri)).bare := by
  have scopes : s.workspace.scopes.map Scope.bare = t.workspace.scopes.map Scope.bare :=
    congrArg (fun s => s.workspace.scopes) same
  have opened : (s.workspace.scopes ++ [Scope.fresh uri]).map Scope.bare =
      (t.workspace.scopes ++ [Scope.fresh uri]).map Scope.bare := by
    rw [List.map_append, List.map_append, scopes]
  exact congrArg₂ Session.mk (congrArg (fun scopes =>
    (⟨scopes, 0, Table.empty, Table.empty, Table.empty⟩ : Workspace)) opened)
    (congrArg Session.written same)

theorem writesBare (same : s.bare = t.bare) (source : Source) :
    (s.perform (.writes source)).bare = (t.perform (.writes source)).bare := by
  have unit := CompilationUnit.buildBare (Stamp.at s.workspace.clock) (Stamp.at t.workspace.clock)
    source.file source.fileName source.usings source.types
  have written : s.written.map CompilationUnit.bare = t.written.map CompilationUnit.bare :=
    congrArg Session.written same
  have more : (s.written ++ [CompilationUnit.build (Stamp.at s.workspace.clock) source.file
        source.fileName source.usings source.types]).map CompilationUnit.bare =
      (t.written ++ [CompilationUnit.build (Stamp.at t.workspace.clock) source.file
        source.fileName source.usings source.types]).map CompilationUnit.bare := by
    rw [List.map_append, List.map_append, written, List.map_singleton, unit, List.map_singleton]
  exact congrArg₂ Session.mk (congrArg Session.workspace same) more

theorem ingestsBare (same : s.bare = t.bare) (id : ScopeId) (unit : Nat) :
    (s.perform (.ingests id unit)).bare = (t.perform (.ingests id unit)).bare := by
  have written : s.written.map CompilationUnit.bare = t.written.map CompilationUnit.bare :=
    congrArg Session.written same
  have units : (s.written[unit]?).map CompilationUnit.bare =
      (t.written[unit]?).map CompilationUnit.bare := by
    rw [← List.getElem?_map, ← List.getElem?_map, written]
  simp only [perform]
  rcases Query.bothOrNeither units with ⟨left, right⟩ | ⟨u, u', left, right, alike⟩
  · rw [left, right]
    exact same
  · rw [left, right]
    have file : u.file = u'.file :=
      (congrArg CompilationUnit.file alike : u.bare.file = u'.bare.file)
    have replaced := (replacesBare same id u.file (some u) (some u') (congrArg some alike)).1
    have ingested : Query.ingest id u' = Query.replaceFile id u.file (some u') := by
      rw [file]
      rfl
    dsimp only
    rw [ingested]
    exact congrArg₂ Session.mk replaced written

theorem refersBare (same : s.bare = t.bare) (id : ScopeId) (references : List ScopeId) :
    (s.perform (.refers id references)).bare = (t.perform (.refers id references)).bare := by
  have workspaces : s.workspace.bare = t.workspace.bare := congrArg Session.workspace same
  have counted : s.workspace.scopes.length = t.workspace.scopes.length := by
    have lengths := congrArg (fun w => w.scopes.length) workspaces
    simpa [Workspace.bare] using lengths
  have known : s.known references = t.known references := by rw [Session.known, counted, known]
  have changed := Workspace.modifyBare workspaces id
    (f := fun scope => { scope with references := s.known references })
    (g := fun scope => { scope with references := t.known references }) (by
      rw [known]
      exact congrArg (fun scope => { scope with references := t.known references })
        (Workspace.scopesAlike workspaces id))
  exact congrArg₂ Session.mk changed (congrArg Session.written same)

theorem performBare (same : s.bare = t.bare) (e : Event) :
    (s.perform e).bare = (t.perform e).bare := by
  cases e with
  | opens uri => exact opensBare same uri
  | writes source => exact writesBare same source
  | ingests id unit => exact ingestsBare same id unit
  | removes id file =>
    exact congrArg₂ Session.mk (replacesBare same id file none none rfl).1
      (congrArg Session.written same)
  | refers id references => exact refersBare same id references
  | asks id q => rw [asksBare, asksBare, same]

theorem performAllBare (same : s.bare = t.bare) (events : List Event) :
    (events.foldl perform s).bare = (events.foldl perform t).bare := by
  induction events generalizing s t with
  | nil => exact same
  | cons e rest ih => exact ih (performBare same e)

end Session
end Sessions

inductive Label where
  | declared (type : Declared)
  | filed (key : String)
  | arrayOf (element : String)

def Definition.label : Definition → Label
  | .unbound (.declared t) => .declared t.bare
  | .unbound (.array a) => .arrayOf a.element.canonical
  | .unbound (.placeholder p) => .filed p.key
  | .bound i => .filed i.key

def Label.binding (t : Declared) (arguments : List TypeRef) : Label :=
  if arguments.isEmpty then .declared t
  else .filed (Instantiation.keyFor t.fullName arguments)

namespace Workspace

def typeLabel (w : Workspace) (id : ScopeId) (depth : Depth) (rule : CaseRule) (name : String)
    (arguments : List TypeRef) : Option Label :=
  (w.findType id depth rule (Arity.strip name).1 (askedArity name arguments)).map
    fun t => Label.binding t arguments

def referenceLabel (w : Workspace) (id : ScopeId) (r : TypeRef) : Option Label :=
  match r.element? with
  | some element => some (.arrayOf element.canonical)
  | none =>
      (w.findType id .deep .exact (Arity.strip r.decoratedName).1
        (askedArity r.decoratedName r.arguments)).map fun t => Label.binding t r.bindingArguments

def requestLabel (w : Workspace) (id : ScopeId) (q : Request) : Option Label :=
  let leads := w.typeLabel id q.depth q.rule
  if q.name = "" then none
  else
    [leads q.name q.arguments,
      (q.unit.bind fun u => UsingDirective.findAlias q.rule q.name u.usings).bind
        fun target => leads target.fullName target.arguments,
      (q.unit.elim [] fun u => u.usings.flatMap (UsingDirective.candidates q.rule q.name)).findSome?
        fun name => leads name q.arguments].findSome? fun label => label

end Workspace

section Answers
open Query
variable {u w : Workspace} {id : ScopeId}

structure Holding (u w : Workspace) : Prop where
  bare : w.bare = u.bare
  filed : Filed w

theorem holdingFrame (u : Workspace) : Frame (Holding u) (fun _ _ => True) where
  aside {w after} holds same clock := by
    refine ⟨?_, filedFrame.aside holds.filed same clock⟩
    have lasting : after.lasting = w.lasting := by rw [Workspace.lasting, same, Workspace.lasting]
    rw [Workspace.bareLasting lasting, holds.bare]
  found _ _ := trivial
  known _ _ := trivial
  current _ _ := trivial
  instances i holds _ stamp _ _ :=
    ⟨trivial, (Workspace.rememberingBare ..).trans holds.bare, holds.filed.remembering rfl stamp⟩
  placeholders p holds stamp _ :=
    ⟨trivial, (Workspace.rememberingBare ..).trans holds.bare, holds.filed.remembering rfl stamp⟩
  arrays _ _ := trivial

theorem Definition.labelFiled {d : Definition} {key : String} (own : d.key? = some key) :
    d.label = .filed key := by
  cases d with
  | bound i => exact congrArg Label.filed (Option.some.inj own)
  | unbound o =>
    cases o with
    | declared t => cases own
    | array a => cases own
    | placeholder p => exact congrArg Label.filed (Option.some.inj own)

theorem Definition.filedSpecial {d : Definition} {key : String} (label : d.label = .filed key) :
    (d.isBound || d.placeholder?.isSome) = true := by
  cases d with
  | bound i => rfl
  | unbound o =>
    cases o with
    | declared t => cases label
    | array a => cases label
    | placeholder p => rfl

theorem instantiateLabel (id : ScopeId) (filed : Filed w) (t : Declared) (arguments : List TypeRef) :
    ((instantiate id (.ofDeclared t) arguments).run w).1.label = Label.binding t.bare arguments := by
  by_cases empty : arguments = []
  · rw [empty]
    rfl
  · have some_ : ¬ arguments.isEmpty = true := fun none_ => empty (List.isEmpty_iff.mp none_)
    have named : (OpenType.declared t).fullName = t.fullName := rfl
    rw [Label.binding, if_neg some_, Declared.bareName, Definition.ofDeclared,
      instantiateRun id w _ empty, named]
    cases known : (w.scope id).cache.get? (Instantiation.keyFor t.fullName arguments) with
    | some d => exact Definition.labelFiled (filed.entries id _ d known).1
    | none => rfl

theorem getTypeLabel (filed : Filed w) (depth : Depth) (rule : CaseRule) (name : String)
    (arguments : List TypeRef) :
    ((getType id depth rule name arguments).run w).1.map Definition.label =
      w.bare.typeLabel id depth rule name arguments := by
  rw [Workspace.typeLabel, Workspace.findBare]
  cases selected : w.findType id depth rule (Arity.strip name).1 (askedArity name arguments) with
  | none =>
    rw [getTypeStripped]
    simp only [StateT.run_bind, StateT.run_get, pure_bind, selected]
    rfl
  | some t =>
    rw [getTypeRun selected]
    exact congrArg some (instantiateLabel id filed t arguments)

theorem lookupLabel (filed : Filed w) {r : TypeRef} (unlinked : r.link = none) :
    ((lookup id r).run w).1.1.map Definition.label = w.bare.referenceLabel id r := by
  rw [Workspace.referenceLabel, lookup]
  cases ranked : r.element? with
  | some element => rfl
  | none =>
    dsimp only
    rw [lookupCoreAnswer unlinked, Workspace.findBare]
    dsimp only
    cases selected : w.findType id .deep .exact (Arity.strip r.decoratedName).1
      (askedArity r.decoratedName r.arguments) with
    | none =>
      rw [getTypeStripped]
      simp only [StateT.run_bind, StateT.run_get, pure_bind, selected]
      rfl
    | some t =>
      rw [getTypeRun selected]
      dsimp only [Option.map_some]
      refine congrArg some ?_
      by_cases bare : r.arguments = []
      · have generic := r.genericAll
        have itself : (instantiate id (.ofDeclared t) r.arguments).run w = (.ofDeclared t, w) := by
          rw [bare]
          rfl
        have all : r.bindingArguments = r.allArguments := by
          rw [TypeRef.bindingArguments, if_pos (List.isEmpty_iff.mpr bare)]
        have unspecial : ((Definition.ofDeclared t).isBound ||
            (Definition.ofDeclared t).placeholder?.isSome || !r.isGeneric) =
              r.allArguments.isEmpty := by
          rw [generic, Bool.not_not]
          rfl
        rw [itself, all]
        dsimp only
        rw [unspecial]
        cases none_ : r.allArguments.isEmpty with
        | true =>
          rw [if_pos rfl, Label.binding, if_pos none_]
          rfl
        | false =>
          rw [if_neg Bool.false_ne_true]
          exact instantiateLabel id filed t r.allArguments
      · have own : r.bindingArguments = r.arguments := by
          rw [TypeRef.bindingArguments, if_neg fun empty => bare (List.isEmpty_iff.mp empty)]
        have label := instantiateLabel id filed t r.arguments
        have some_ : ¬ r.arguments.isEmpty = true := fun none_ => bare (List.isEmpty_iff.mp none_)
        rw [Label.binding, if_neg some_] at label
        rw [Definition.filedSpecial label, own, Bool.true_or, if_pos rfl, label, Label.binding,
          if_neg some_]

section Requests
variable {I : Workspace → Prop}

theorem keepsFirstLabel {queries : List (Query (Option Definition))} {labels : List (Option Label)}
    (each : List.Forall₂ (fun q label => Keeps I q fun a => a.map Definition.label = label)
      queries labels) :
    Keeps I (firstOf queries) fun a =>
      a.map Definition.label = labels.findSome? fun label => label := by
  induction each with
  | nil => exact keepsPure rfl
  | cons first _ ih =>
    refine keepsBind first fun answer label => ?_
    rw [List.findSome?_cons, ← label]
    cases answer with
    | none => exact ih
    | some d => exact keepsPure rfl

theorem keepsFindLabel {β : Type} {f : β → Query (Option Definition)} {label : β → Option Label}
    {items : List β} (each : ∀ b ∈ items, Keeps I (f b) fun a => a.map Definition.label = label b) :
    Keeps I (findFirst f items) fun a => a.map Definition.label = items.findSome? label := by
  induction items with
  | nil => exact keepsPure rfl
  | cons b rest ih =>
    refine keepsBind (each b List.mem_cons_self) fun answer same => ?_
    rw [List.findSome?_cons, ← same]
    cases answer with
    | none => exact ih fun other mem => each other (List.mem_cons_of_mem _ mem)
    | some d => exact keepsPure rfl

theorem resolveLabel (holds : Holding u w) {q : Request} (outside : q.calling = none) :
    ((resolve id q).run w).1.map Definition.label = u.bare.requestLabel id q := by
  have typed : ∀ name arguments, Keeps (Holding u) (lookupFor id q name arguments)
      fun a => a.map Definition.label = u.bare.typeLabel id q.depth q.rule name arguments := by
    intro name arguments w holds
    refine ⟨((holdingFrame u).getType id q.depth q.rule name arguments w holds).1, ?_⟩
    exact (getTypeLabel holds.filed q.depth q.rule name arguments).trans
      (by rw [holds.bare])
  have alias_ : Keeps (Holding u) (fromAlias id q) fun a => a.map Definition.label =
      (q.unit.bind fun u => UsingDirective.findAlias q.rule q.name u.usings).bind
        fun target => u.bare.typeLabel id q.depth q.rule target.fullName target.arguments := by
    unfold fromAlias
    cases q.unit.bind fun u => UsingDirective.findAlias q.rule q.name u.usings with
    | none => exact keepsPure rfl
    | some target => exact typed target.fullName target.arguments
  have usings : Keeps (Holding u) (fromUsings id q) fun a => a.map Definition.label =
      (q.unit.elim [] fun u =>
        u.usings.flatMap (UsingDirective.candidates q.rule q.name)).findSome?
          fun name => u.bare.typeLabel id q.depth q.rule name q.arguments :=
    keepsFindLabel fun name _ => typed name q.arguments
  have nothing : Keeps (Holding u) (pure none) fun a : Option Definition =>
      a.map Definition.label = none := keepsPure rfl
  have parameters : fromParameters id q none = pure none := rfl
  have nested : fromNested id q none = pure none := rfl
  have enclosing : fromEnclosing id q none = pure none := rfl
  by_cases empty : q.name = ""
  · rw [resolve, resolveWith, if_pos empty, Workspace.requestLabel, if_pos empty]
    rfl
  · rw [resolve, resolveWith, if_neg empty, outside]
    dsimp only
    rw [pure_bind, parameters, nested, enclosing]
    have answered := (keepsFirstLabel (.cons nothing (.cons (typed q.name q.arguments)
      (.cons nothing (.cons alias_ (.cons nothing (.cons usings .nil)))))) w holds).2
    refine answered.trans ?_
    rw [Workspace.requestLabel, if_neg empty]
    rfl

end Requests
end Answers

section Traces
open Query

structure Session.Alike (s t : Session) : Prop where
  bare : s.bare = t.bare
  updates : ∀ id file unit, ((replaceFile id file unit).run s.workspace).1 =
    ((replaceFile id file unit).run t.workspace).1
  found : ∀ id depth rule name arity,
    (s.workspace.findType id depth rule name arity).map Declared.bare =
      (t.workspace.findType id depth rule name arity).map Declared.bare
  named : ∀ id depth rule name arguments,
    ((getType id depth rule name arguments).run s.workspace).1.map Definition.label =
      ((getType id depth rule name arguments).run t.workspace).1.map Definition.label
  referred : ∀ id r, r.link = none →
    ((lookup id r).run s.workspace).1.1.map Definition.label =
      ((lookup id r).run t.workspace).1.1.map Definition.label
  requested : ∀ id q, q.calling = none →
    ((resolve id q).run s.workspace).1.map Definition.label =
      ((resolve id q).run t.workspace).1.map Definition.label

theorem Session.alikeOfBare {s t : Session} (same : s.bare = t.bare) (filed : Filed s.workspace)
    (filed' : Filed t.workspace) : s.Alike t := by
  have workspaces : s.workspace.bare = t.workspace.bare := congrArg Session.workspace same
  refine ⟨same, fun id file unit => (replacesBare same id file unit unit rfl).2,
    fun id depth rule name arity => ?_, fun id depth rule name arguments => ?_,
    fun id r unlinked => ?_, fun id q outside => ?_⟩
  · rw [← Workspace.findBare, workspaces, Workspace.findBare]
  · rw [getTypeLabel filed, workspaces, getTypeLabel filed']
  · rw [lookupLabel filed unlinked, workspaces, lookupLabel filed' unlinked]
  · rw [resolveLabel ⟨rfl, filed⟩ outside, workspaces, resolveLabel ⟨rfl, filed'⟩ outside]

/-- Whatever is asked, and whatever happens before and afterwards: in what is stored, and in what is
found by name, the question leaves no trace. -/
theorem lookupsTraceless (before later : List Event) (id : ScopeId) (q : Question) :
    (Session.run (before ++ .asks id q :: later)).Alike (Session.run (before ++ later)) := by
  refine Session.alikeOfBare ?_ (Session.filed _) (Session.filed _)
  rw [Session.run, Session.run, List.foldl_append, List.foldl_append, List.foldl_cons]
  exact Session.performAllBare (Session.asksBare _ id q) later

def boxOfX : TypeRef := TypeRef.generic "Lib.Box" [TypeRef.named "Lib.X"]

def boxLibrary : List Event :=
  [.opens "lib", .opens "app", .writes (boxSource none), .ingests 0 0, .refers 1 [0]]

def boxReplaced : List Event :=
  [.writes (boxSource (some (TypeRef.named "Lib.Root"))), .ingests 0 1]

def baseFound (id : ScopeId) (r : TypeRef) (s : Session) : Option (Option String) :=
  ((Query.lookup id r).run s.workspace).1.1.map fun d => d.body.base.map TypeRef.canonical

theorem lookupsTraced :
    baseFound 1 boxOfX (Session.run (boxLibrary ++ .asks 1 (.reference boxOfX) :: boxReplaced)) =
        some none ∧
      baseFound 1 boxOfX (Session.run (boxLibrary ++ boxReplaced)) = some (some "Lib.Root") := by
  decide +kernel

theorem walksTraceless (events : List Event) (loading : ∀ e ∈ events, e.loads = true)
    {w : Workspace} (loaded : w = (Session.run events).workspace) {id : ScopeId}
    (opened : id < w.scopes.length) (alone : (w.scope id).references = []) {xid : Char → Bool}
    (regular : w.Regular xid id) {before : List Question} (follow : ∀ q ∈ before, q.Follows w id)
    {s t : Declared} (here : s ∈ (w.store id).allTypes) (there : t ∈ (w.store id).allTypes) :
    (t.decoratedName ∈ ((ancestry id (.ofDeclared s)).run (w.asked id before)).1.map
        Definition.decoratedName ↔
      t.decoratedName ∈ ((ancestry id (.ofDeclared s)).run w).1.map Definition.decoratedName) ∧
    (.ofDeclared s ∈ ((subtypes id true none (.ofDeclared t)).run (w.asked id before)).1 ↔
      .ofDeclared s ∈ ((subtypes id true none (.ofDeclared t)).run w).1) := by
  have plain : w.Plain xid id := regular.plain loading loaded opened alone
  have coherent := askedCoherent plain follow
  obtain ⟨-, -, met⟩ := ancestryTold plain coherent here
  obtain ⟨-, -, met'⟩ := ancestryTold plain plain.coherent here
  obtain ⟨-, -, found⟩ := subtypesTold plain coherent there true none
  obtain ⟨-, -, found'⟩ := subtypesTold plain plain.coherent there true none
  exact ⟨(met t there).trans (met' t there).symm,
    (found rfl rfl s here).trans (found' rfl rfl s here).symm⟩

end Traces
end TypeScope
