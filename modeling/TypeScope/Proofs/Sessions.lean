import TypeScope.Proofs.Frames
import TypeScope.Proofs.Loading
import TypeScope.Proofs.Updates

/-! Sessions: scopes are opened, files written, ingested and removed, references set, and questions
asked in between, in any order. Whatever happens, the stores stay sound; and until the first
question is asked, nothing of a lookup is left behind. -/
namespace TypeScope

structure Source where
  file : FileId
  fileName : String
  usings : List UsingDirective
  types : List Blueprint

inductive Question where
  | typeNamed (depth : Depth) (rule : CaseRule) (name : String) (arguments : List TypeRef)
  | reference (r : TypeRef)
  | referenceAt (site : Site) (r : TypeRef)
  | current (d : Definition)
  | instanceOf (d : Definition) (arguments : List TypeRef)
  | parameter (d : Definition) (rule : CaseRule) (name : String)
  | parameterOf (owner : Declared) (p : TypeParameter)
  | mention (d : Definition)
  | link (site : Site) (d : Definition)
  | mainPart (d : Declared) (file : Option FileId) (location : Location)
  | array (element : TypeRef)
  | resolution (request : Request)
  | ancestry (d : Definition)
  | ancestryTo (count : Nat) (d : Definition)
  | subtypes (deep : Bool) (namespaces : Option (List String)) (d : Definition)
  | members (d : Definition) (calling : Option Definition)
  | extensions (receiver : Definition) (candidates : List Definition)
  | forget (d : Definition)

inductive Event where
  | opens (uri : String)
  | writes (source : Source)
  | ingests (id : ScopeId) (unit : Nat)
  | removes (id : ScopeId) (file : FileId)
  | refers (id : ScopeId) (references : List ScopeId)
  | asks (id : ScopeId) (question : Question)

structure Session where
  workspace : Workspace
  written : List CompilationUnit

namespace Question

def after (id : ScopeId) (w : Workspace) : Question → Workspace
  | typeNamed depth rule name arguments => ((Query.getType id depth rule name arguments).run w).2
  | reference r => ((Query.lookup id r).run w).2
  | referenceAt site r => ((Query.lookupAt id site r).run w).2
  | current d => ((Query.refetch id d).run w).2
  | instanceOf d arguments => ((Query.instantiate id d arguments).run w).2
  | parameter d rule name => ((Query.parameterNamed id d rule name).run w).2
  | parameterOf owner p => ((Query.placeholder id owner p).run w).2
  | mention d => ((Query.keepTarget d).run w).2
  | link site d => ((Query.linkAt site d).run w).2
  | mainPart d file location => (w.chooseMain d file location).getD w
  | array element => ((Query.arrayOf id element).run w).2
  | resolution request => ((Query.resolve id request).run w).2
  | ancestry d => ((Query.ancestry id d).run w).2
  | ancestryTo count d => ((Query.ancestryTo count id d).run w).2
  | subtypes deep namespaces d => ((Query.subtypes id deep namespaces d).run w).2
  | members d calling => ((Query.visibleMembers id d calling).run w).2
  | extensions receiver candidates => ((Query.extensionMethods id receiver candidates).run w).2
  | forget d => ((Query.resetInstances id d).run w).2

end Question

namespace Session

def start : Session := ⟨Workspace.empty, []⟩

def known (s : Session) (references : List ScopeId) : List ScopeId :=
  references.filter (fun id => id < s.workspace.scopes.length)

def perform (s : Session) : Event → Session
  | .opens uri => { s with workspace := ((Query.openScope uri).run s.workspace).2 }
  | .writes source =>
      let (stamp, workspace) := Query.freshStamp.run s.workspace
      ⟨workspace, s.written ++
        [CompilationUnit.build stamp source.file source.fileName source.usings source.types]⟩
  | .ingests id unit =>
      match s.written[unit]? with
      | some unit => { s with workspace := ((Query.ingest id unit).run s.workspace).2 }
      | none => s
  | .removes id file => { s with workspace := ((Query.removeFile id file).run s.workspace).2 }
  | .refers id references =>
      { s with workspace := ((Query.setReferences id (s.known references)).run s.workspace).2 }
  | .asks id question => { s with workspace := question.after id s.workspace }

def run (events : List Event) : Session := events.foldl perform start

theorem runAppend (events : List Event) (e : Event) : run (events ++ [e]) = (run events).perform e := by
  rw [run, List.foldl_append]
  rfl

end Session

section Steps

theorem Query.replaceRun (id : ScopeId) (file : FileId) (unit : Option CompilationUnit)
    (w : Workspace) :
    ((Query.replaceFile id file unit).run w).2 = { w with clock := w.clock + 1 }.modifyScope id
      (fun _ => ((w.scope id).replaceFile w.links (Stamp.at w.clock) file unit).1) := rfl

structure Session.Stands (I : Workspace → Prop) : Prop where
  aside : ∀ {w after : Workspace}, I w → after.scopes = w.scopes → w.clock ≤ after.clock → I after
  opens : ∀ (w : Workspace) uri, I w → I { w with scopes := w.scopes ++ [Scope.fresh uri] }
  refers : ∀ (w : Workspace) id references, I w →
    I (w.modifyScope id (fun s => { s with references := references }))
  updates : ∀ (w : Workspace) id stamp file unit, I w →
    I (w.modifyScope id (fun _ => ((w.scope id).replaceFile w.links stamp file unit).1))

theorem Session.Stands.replaces {I : Workspace → Prop} (stands : Session.Stands I) {w : Workspace}
    (holds : I w) (id : ScopeId) (file : FileId) (unit : Option CompilationUnit) :
    I ((Query.replaceFile id file unit).run w).2 :=
  stands.updates { w with clock := w.clock + 1 } id (Stamp.at w.clock) file unit
    (stands.aside holds rfl (Nat.le_succ _))

theorem Session.Stands.performs {I : Workspace → Prop} (stands : Session.Stands I) {s : Session}
    {e : Event} (holds : I s.workspace)
    (asks : ∀ id q, e = .asks id q → I (q.after id s.workspace)) : I (s.perform e).workspace := by
  cases e with
  | opens uri => exact stands.opens s.workspace uri holds
  | writes source => exact stands.aside holds rfl (Nat.le_succ _)
  | ingests id unit =>
    simp only [Session.perform]
    split
    · exact stands.replaces holds id _ _
    · exact holds
  | removes id file => exact stands.replaces holds id file none
  | refers id references => exact stands.refers s.workspace id _ holds
  | asks id q => exact asks id q rfl

end Steps

section Questions
open Query
variable {I : Workspace → Prop} {fits : ScopeId → Definition → Prop}

def Question.Allowed (fits : ScopeId → Definition → Prop) (id : ScopeId) : Question → Prop
  | instanceOf d _ => fits id d
  | resolution request => request.calling = none ∨ ∀ d, fits id d
  | _ => True

theorem Question.allowedAll (all : ∀ id d, fits id d) (id : ScopeId) (q : Question) :
    q.Allowed fits id := by
  cases q with
  | instanceOf d arguments => exact all id d
  | resolution request => exact .inr (all id)
  | _ => trivial

theorem Question.leaves (frame : Frame I fits) {id : ScopeId} {q : Question}
    (allowed : q.Allowed fits id)
    (forgets : ∀ d, q = .forget d → ∀ w : Workspace, I w →
      I (w.modifyScope id (fun s => s.evict d.fullName)))
    (indexes : ∀ deep namespaces d, q = .subtypes deep namespaces d → ∀ (w : Workspace) index, I w →
      I (w.modifyScope id (fun s => { s with subtypes := some index }))) {w : Workspace}
    (holds : I w) : I (q.after id w) := by
  cases q with
  | typeNamed depth rule name arguments =>
    exact (frame.getType id depth rule name arguments w holds).1
  | reference r => exact (frame.lookup id r w holds).1
  | referenceAt site r => exact (frame.lookupAt id site r w holds).1
  | current d => exact (frame.refetch id d w holds).1
  | instanceOf d arguments => exact (frame.instantiate id allowed arguments w holds).1
  | parameter d rule name => exact (frame.parameterNamed id d rule name w holds).1
  | parameterOf owner p => exact (frame.placeholder id owner p w holds).1
  | mention d => exact (frame.keepTarget d w holds).1
  | link site d => exact (frame.linkAt site d w holds).1
  | mainPart d file location =>
    obtain ⟨scopes, clock⟩ := Frame.scopesChooseMain w d file location
    exact frame.aside holds scopes (Nat.le_of_eq clock.symm)
  | array element => exact (frame.arrayOf id element w holds).1
  | resolution request => exact (frame.resolve id request allowed w holds).1
  | ancestry d => exact (frame.ancestry id d w holds).1
  | ancestryTo count d => exact (frame.ancestryTo count id d w holds).1
  | subtypes deep namespaces d =>
    have indexed := frame.subtypeIndex id (indexes deep namespaces d rfl)
    exact (frame.subtypes id indexed deep namespaces d w holds).1
  | members d calling => exact (frame.visibleAmong id d calling _ w holds).1
  | extensions receiver candidates =>
    exact (frame.extensionMethods id receiver candidates w holds).1
  | forget d => exact forgets d rfl w holds

end Questions

section Stores
variable {w : Workspace} {id : ScopeId}

def Workspace.Stores (P : Store → Prop) (w : Workspace) : Prop := ∀ s ∈ w.scopes, P s.store

theorem Workspace.Stores.at {P : Store → Prop} (stores : w.Stores P) (empty : P Store.empty)
    (id : ScopeId) : P (w.store id) := by
  rw [store, scope, List.getD_eq_getElem?_getD]
  cases found : w.scopes[id]? with
  | none => exact empty
  | some s => exact stores s (List.mem_of_getElem? found)

theorem Workspace.Stores.modify {P : Store → Prop} (stores : w.Stores P) {f : Scope → Scope}
    (same : ∀ s, (f s).store = s.store) : (w.modifyScope id f).Stores P := by
  intro s mem
  rcases memModify mem with old | ⟨before, inside, rfl⟩
  · exact stores s old
  · rw [same]
    exact stores before inside

theorem Workspace.Stores.frame (P : Store → Prop) :
    Query.Frame (Workspace.Stores P) (fun _ _ => True) where
  aside holds same _ s mem := holds s (same ▸ mem)
  found _ _ := trivial
  known _ _ := trivial
  current _ _ := trivial
  instances _ holds _ _ _ _ := ⟨trivial, Workspace.Stores.modify holds fun _ => rfl⟩
  placeholders _ holds _ _ := ⟨trivial, Workspace.Stores.modify holds fun _ => rfl⟩
  arrays _ _ := trivial

theorem Workspace.Stores.opens {P : Store → Prop} (stores : w.Stores P) (empty : P Store.empty)
    (uri : String) : Workspace.Stores P { w with scopes := w.scopes ++ [Scope.fresh uri] } := by
  intro s mem
  rcases List.mem_append.mp mem with old | new
  · exact stores s old
  · rw [List.mem_singleton.mp new]
    exact empty

theorem Workspace.Stores.updates {P : Store → Prop} (stores : w.Stores P) {stamp : Stamp}
    {file : FileId} {unit : Option CompilationUnit}
    (replaced : P (((w.store id).settled w.links).replaceFile stamp file unit).1) :
    (w.modifyScope id fun _ =>
      ((w.scope id).replaceFile w.links stamp file unit).1).Stores P := by
  intro s mem
  rcases memModify mem with old | ⟨before, -, rfl⟩
  · exact stores s old
  · rw [Scope.replaceStore]
    exact replaced

theorem Workspace.Stores.asks {P : Store → Prop} (stores : w.Stores P) (id : ScopeId)
    (q : Question) : (q.after id w).Stores P := by
  refine Question.leaves (Workspace.Stores.frame P) (Question.allowedAll (fun _ _ => trivial) id q)
    (fun _ _ w holds => ?_) (fun _ _ _ _ w index holds => ?_) stores
  · exact Workspace.Stores.modify holds fun _ => rfl
  · exact Workspace.Stores.modify holds fun _ => rfl

theorem Workspace.Stores.standSound : Session.Stands (Workspace.Stores Store.Sound) where
  aside holds same _ s mem := holds s (same ▸ mem)
  opens _ uri holds := Workspace.Stores.opens holds Store.soundEmpty uri
  refers _ _ _ holds := Workspace.Stores.modify holds fun _ => rfl
  updates w id _ _ _ holds := Workspace.Stores.updates holds
    (Store.soundReplace (Store.soundSettled (holds.at Store.soundEmpty id) w.links) ..)

theorem Session.storesSound (events : List Event) :
    (run events).workspace.Stores Store.Sound := by
  induction events using List.reverseRecOn with
  | nil => exact fun s mem => nomatch mem
  | append_singleton events e ih =>
    rw [runAppend]
    exact Workspace.Stores.standSound.performs ih fun id q _ => ih.asks id q

end Stores

section Loading
variable {w : Workspace}

def Event.loads : Event → Bool
  | .asks _ _ => false
  | _ => true

structure Scope.Blank (n : Nat) (s : Scope) : Prop where
  cache : s.cache = Table.empty
  subtypes : s.subtypes = none
  references : ∀ id ∈ s.references, id < n

structure Workspace.Untouched (w : Workspace) : Prop where
  links : w.links = Table.empty
  targets : w.targets = Table.empty
  mainParts : w.mainParts = Table.empty
  scopes : ∀ s ∈ w.scopes, s.Blank w.scopes.length

theorem Scope.blankFresh (n : Nat) (uri : String) : (Scope.fresh uri).Blank n :=
  ⟨rfl, rfl, fun id mem => by cases mem⟩

theorem Workspace.Untouched.scopeOf (untouched : w.Untouched) (id : ScopeId) :
    (w.scope id).Blank w.scopes.length := by
  rw [scope, List.getD_eq_getElem?_getD]
  cases found : w.scopes[id]? with
  | none => exact Scope.blankFresh _ ""
  | some s => exact untouched.scopes s (List.mem_of_getElem? found)

theorem Workspace.Untouched.modify (untouched : w.Untouched) {id : ScopeId} {f : Scope → Scope}
    (still : ∀ s : Scope, s.Blank w.scopes.length → (f s).Blank w.scopes.length) :
    (w.modifyScope id f).Untouched where
  links := untouched.links
  targets := untouched.targets
  mainParts := untouched.mainParts
  scopes s mem := by
    rw [lengthModify]
    rcases memModify mem with old | ⟨before, inside, rfl⟩
    · exact untouched.scopes s old
    · exact still before (untouched.scopes before inside)

theorem Scope.blankReplace {n : Nat} {s : Scope} (blank : s.Blank n) (links : Links) (stamp : Stamp)
    (file : FileId) (unit : Option CompilationUnit) :
    (s.replaceFile links stamp file unit).1.Blank n := by
  have evicted : ∀ (names : List String) (s : Scope), s.Blank n →
      (names.foldl Scope.evict s).Blank n := by
    intro names
    induction names with
    | nil => exact fun s blank => blank
    | cons name rest ih =>
      refine fun s blank => ih (s.evict name) ⟨?_, blank.subtypes, blank.references⟩
      rw [Scope.evict, blank.cache]
      rfl
  let replaced := (s.store.settled links).replaceFile stamp file unit
  have kept := evicted replaced.2.names { s with store := replaced.1 }
    ⟨blank.cache, blank.subtypes, blank.references⟩
  simp only [Scope.replaceFile]
  split
  · exact kept
  · exact ⟨kept.cache, rfl, kept.references⟩

theorem Workspace.Untouched.replaces (untouched : w.Untouched) (id : ScopeId) (file : FileId)
    (unit : Option CompilationUnit) : ((Query.replaceFile id file unit).run w).2.Untouched := by
  have ticked : ({ w with clock := w.clock + 1 } : Workspace).Untouched :=
    ⟨untouched.links, untouched.targets, untouched.mainParts, untouched.scopes⟩
  rw [Query.replaceRun]
  exact ticked.modify fun _ _ => Scope.blankReplace (untouched.scopeOf id) ..

theorem Workspace.Untouched.loads {s : Session} {e : Event} (untouched : s.workspace.Untouched)
    (loading : e.loads = true) : (s.perform e).workspace.Untouched := by
  cases e with
  | opens uri =>
    refine ⟨untouched.links, untouched.targets, untouched.mainParts, fun scope mem => ?_⟩
    have more : (s.perform (.opens uri)).workspace.scopes.length =
        s.workspace.scopes.length + 1 := List.length_append
    rw [more]
    rcases List.mem_append.mp mem with old | new
    · obtain ⟨cache, subtypes, references⟩ := untouched.scopes scope old
      exact ⟨cache, subtypes, fun id listed => Nat.lt_succ_of_lt (references id listed)⟩
    · rw [List.mem_singleton.mp new]
      exact Scope.blankFresh _ uri
  | writes source =>
    exact ⟨untouched.links, untouched.targets, untouched.mainParts, untouched.scopes⟩
  | ingests id unit =>
    simp only [Session.perform]
    split
    · exact untouched.replaces id _ _
    · exact untouched
  | removes id file => exact untouched.replaces id file none
  | refers id references =>
    refine untouched.modify fun scope blank => ⟨blank.cache, blank.subtypes, fun other mem => ?_⟩
    simpa using (List.mem_filter.mp mem).2
  | asks id q => cases loading

theorem Session.untouched {events : List Event} (loading : ∀ e ∈ events, e.loads = true) :
    (run events).workspace.Untouched := by
  induction events using List.reverseRecOn with
  | nil => exact ⟨rfl, rfl, rfl, fun s mem => by cases mem⟩
  | append_singleton events e ih =>
    rw [runAppend]
    exact (ih fun other mem => loading other (List.mem_append_left _ mem)).loads
      (loading e (List.mem_append_right _ List.mem_cons_self))

end Loading
end TypeScope
