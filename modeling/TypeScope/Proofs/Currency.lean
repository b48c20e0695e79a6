import TypeScope.Proofs.ReferenceCounts
import TypeScope.Proofs.Sessions
import TypeScope.Proofs.Sight

/-! Whether a lookup answers what is stored now. A type itself always is: it is either found at that
moment or believed only after it was found again. An instantiation comes out of a cache that drops
entries when its own scope is updated, so a scope without references keeps it in step with its
types, as long as nobody binds an outdated definition. -/
namespace TypeScope

section Found
variable {w : Workspace} {id : ScopeId} {t : Declared}

theorem Store.lookupExact (s : Store) (name : String) (arity : Nat) :
    s.lookup .exact name arity = s.find name arity := by
  unfold lookup
  cases s.find name arity <;> rfl

theorem Store.Sound.lookupFound {s : Store} (sound : s.Sound) {rule : CaseRule} {name : String}
    {arity : Nat} (found : s.lookup rule name arity = some t) :
    s.find t.fullName t.arity = some t ∧ t.arity = arity ∧
      (t.fullName = name ∨ rule = .relaxed ∧ Text.lowered t.fullName = Text.lowered name) := by
  have own : ∀ {n}, s.find n arity = some t → s.find t.fullName t.arity = some t ∧
      t.arity = arity ∧ t.fullName = n := by
    intro n here
    obtain ⟨mem, rfl⟩ := Store.findMem here
    obtain rfl := sound.named n t mem
    exact ⟨here, rfl, rfl⟩
  unfold lookup at found
  split at found
  · rename_i d first
    cases found
    obtain ⟨stored, arity, named⟩ := own first
    exact ⟨stored, arity, .inl named⟩
  · split at found
    · cases found
    · obtain ⟨spelling, listed, here⟩ := List.exists_of_findSome?_eq_some found
      obtain ⟨stored, arity, rfl⟩ := own here
      exact ⟨stored, arity, .inr ⟨rfl, sound.tidy.lowered _ _ listed⟩⟩

theorem Store.Sound.lookupMissed {s : Store} (sound : s.Sound) {rule : CaseRule}
    {name spelling : String} {arity : Nat} (missed : s.lookup rule name arity = none)
    (same : spelling = name ∨ rule = .relaxed ∧ Text.lowered spelling = Text.lowered name) :
    s.find spelling arity = none := by
  unfold lookup at missed
  split at missed
  · cases missed
  · rename_i exactly
    rcases same with rfl | ⟨rfl, lowered⟩
    · exact exactly
    · cases here : s.find spelling arity with
      | none => rfl
      | some d =>
        have declared : s.fragmentsOf spelling ≠ [] := by
          intro empty
          rw [find, candidates, sound.forgotten spelling empty] at here
          cases here
        have spelled := (sound.spelled spelling).mpr declared
        rw [spellingsOf, lowered] at spelled
        rw [List.findSome?_eq_none_iff] at missed
        exact here.symm.trans (missed spelling spelled)

theorem Workspace.foundAgain (stores : w.Stores Store.Sound) {depth : Depth} {rule : CaseRule}
    {name : String} {arity : Nat} (found : w.findType id depth rule name arity = some t) :
    w.findType id .deep .exact t.fullName t.arity = some t := by
  have sound : ∀ at_, (w.store at_).Sound := stores.at Store.soundEmpty
  obtain ⟨before, at_, after, list, here, missed⟩ := List.findSome?_eq_some_iff.mp found
  obtain ⟨stored, rfl, same⟩ := (sound at_).lookupFound here
  have first : (before ++ at_ :: after).findSome?
      (fun at_ => (w.store at_).lookup .exact t.fullName t.arity) = some t := by
    refine List.findSome?_eq_some_iff.mpr ⟨before, at_, after, rfl, ?_, fun other mem => ?_⟩
    · rw [Store.lookupExact, stored]
    · rw [Store.lookupExact]
      exact (sound other).lookupMissed (missed other mem) same
  rw [findType]
  cases depth with
  | deep => rwa [← list] at first
  | shallow =>
    have alone : before ++ at_ :: after = [id] := list.symm
    rw [alone] at first
    rw [consulted, List.findSome?_cons]
    rw [List.findSome?_cons, List.findSome?_nil] at first
    cases own : (w.store id).lookup .exact t.fullName t.arity with
    | none =>
      rw [own] at first
      cases first
    | some d =>
      rw [own] at first
      exact first

theorem Workspace.foundStored (stores : w.Stores Store.Sound) {depth : Depth} {rule : CaseRule}
    {name : String} {arity : Nat} (found : w.findType id depth rule name arity = some t) :
    w.isStored id t = true := by
  rw [isStored, foundAgain stores found]
  exact beq_self_eq_true t.stamp

theorem Workspace.storedLasting {after : Workspace} (same : after.lasting = w.lasting)
    (id : ScopeId) (t : Declared) : after.isStored id t = w.isStored id t := by
  rw [isStored, findTypeLasting same, isStored]

end Found

section Remembered

def Workspace.Remembers (P : ScopeId → String → Definition → Prop) (w : Workspace) : Prop :=
  ∀ id key d, (w.scope id).cache.get? key = some d → P id key d

variable {P : ScopeId → String → Definition → Prop} {w : Workspace}

theorem Workspace.Remembers.put (remembers : w.Remembers P) {id : ScopeId} {key : String}
    {d : Definition} (holds : P id key d) :
    (w.modifyScope id (fun s => { s with cache := s.cache.put key d })).Remembers P := by
  intro other k e found
  rw [scopeModify] at found
  split at found
  · rename_i here
    obtain ⟨rfl, -⟩ := here
    rcases Table.putSome found with ⟨rfl, rfl⟩ | old
    · exact holds
    · exact remembers other k e old
  · exact remembers other k e found

theorem Workspace.Remembers.lessens (remembers : w.Remembers P) {id : ScopeId} {f : Scope → Scope}
    (less : ∀ key d, (f (w.scope id)).cache.get? key = some d →
      (w.scope id).cache.get? key = some d) : (w.modifyScope id f).Remembers P := by
  intro other key d found
  rw [scopeModify] at found
  split at found
  · rename_i here
    obtain ⟨rfl, -⟩ := here
    exact remembers other key d (less key d found)
  · exact remembers other key d found

def Scope.evicts (names : List String) (key : String) : Bool :=
  names.any (fun name => (name ++ "[").toList.isPrefixOf key.toList)

theorem Scope.cacheEvicted (s : Scope) (names : List String) (key : String) :
    (names.foldl Scope.evict s).cache.get? key =
      if Scope.evicts names key then none else s.cache.get? key := by
  induction names generalizing s with
  | nil => rfl
  | cons name rest ih =>
    rw [List.foldl_cons, ih, evict, Table.getKeep, evicts, evicts, List.any_cons]
    cases (name ++ "[").toList.isPrefixOf key.toList <;> simp

theorem Scope.cacheReplaced (s : Scope) (links : Links) (stamp : Stamp) (file : FileId)
    (unit : Option CompilationUnit) (key : String) :
    (s.replaceFile links stamp file unit).1.cache.get? key =
      if Scope.evicts ((s.store.settled links).replaceFile stamp file unit).2.names key then none
      else s.cache.get? key := by
  let replaced := (s.store.settled links).replaceFile stamp file unit
  have kept := cacheEvicted { s with store := replaced.1 } replaced.2.names key
  simp only [replaceFile]
  split <;> exact kept

theorem Scope.evictCached {s : Scope} (names : List String) {key : String} {d : Definition}
    (found : (names.foldl Scope.evict s).cache.get? key = some d) :
    s.cache.get? key = some d ∧
      ∀ name ∈ names, (name ++ "[").toList.isPrefixOf key.toList = false := by
  rw [cacheEvicted] at found
  split at found
  · cases found
  · rename_i stays
    exact ⟨found, fun name mem => Bool.eq_false_iff.mpr fun starts =>
      stays (List.any_eq_true.mpr ⟨name, mem, starts⟩)⟩

theorem Scope.replaceCached {s : Scope} {links : Links} {stamp : Stamp} {file : FileId}
    {unit : Option CompilationUnit} {key : String} {d : Definition}
    (found : (s.replaceFile links stamp file unit).1.cache.get? key = some d) :
    s.cache.get? key = some d ∧
      ∀ name ∈ ((s.store.settled links).replaceFile stamp file unit).2.names,
        (name ++ "[").toList.isPrefixOf key.toList = false := by
  rw [cacheReplaced, ← cacheEvicted] at found
  exact evictCached _ found

theorem Workspace.Remembers.frame (P : ScopeId → String → Definition → Prop)
    (instances : ∀ id key (i : Instantiation), i.Made → P id key (.bound i))
    (placeholders : ∀ id key p, P id key (.unbound (.placeholder p))) :
    Query.Frame (Workspace.Remembers P) (fun _ _ => True) where
  aside holds same _ id key d found := by
    rw [scope, same] at found
    exact holds id key d found
  found _ _ := trivial
  known _ _ := trivial
  current _ _ := trivial
  instances {w id} i holds made _ _ _ := ⟨trivial,
    @Remembers.put P { w with clock := w.clock + 1 } holds _ _ _ (instances id _ i made)⟩
  placeholders {w id} p holds _ _ :=
    ⟨trivial, @Remembers.put P { w with clock := w.clock + 1 } holds _ _ _ (placeholders id _ p)⟩
  arrays _ _ := trivial

theorem Workspace.Remembers.stands (P : ScopeId → String → Definition → Prop) :
    Session.Stands (Workspace.Remembers P) where
  aside holds same _ id key d found := by
    rw [scope, same] at found
    exact holds id key d found
  opens w uri holds id key d found := by
    rw [scopeOpened Scope.cache w uri id rfl] at found
    exact holds id key d found
  refers w id references holds := holds.lessens fun key d found => found
  updates w id stamp file unit holds := holds.lessens fun key d found =>
    (Scope.replaceCached found).1

end Remembered

section Instances
open Query

def Shows (bound : Bool) (d : Definition) (t : Declared) : Prop :=
  d.openType = .declared t ∧ (d.isBound = true → bound = true)

def Unmixed (_ : ScopeId) (_ : String) (d : Definition) : Prop := ∀ t, d ≠ .ofDeclared t

def Kept (w : Workspace) (id : ScopeId) (key : String) (d : Definition) : Prop :=
  ∀ t, d.openType = .declared t →
    w.isStored id t = true ∧ (t.fullName ++ "[").toList.isPrefixOf key.toList = true

theorem keyStarts (fullName : String) (arguments : List TypeRef) :
    (fullName ++ "[").toList.isPrefixOf (Instantiation.keyFor fullName arguments).toList =
      true := by
  rw [List.isPrefixOf_iff_prefix]
  refine ⟨(TypeRef.listed arguments ++ "]").toList, ?_⟩
  rw [← String.toList_append, ← String.append_assoc]
  rfl

def Since (bound : Bool) (v w : Workspace) : Prop :=
  w.lasting = v.lasting ∧ w.Remembers Unmixed ∧ (bound = true → w.Remembers (Kept v))

def ShowsStored (bound : Bool) (v : Workspace) (id : ScopeId) (d : Definition) : Prop :=
  ∀ t, Shows bound d t → v.isStored id t = true

theorem currentFrame (bound : Bool) (v : Workspace) (stores : v.Stores Store.Sound) :
    Frame (Since bound v) (ShowsStored bound v) where
  aside {w after} holds same _ := by
    have scopes : ∀ id, after.scope id = w.scope id := fun id => by
      rw [Workspace.scope, same, Workspace.scope]
    refine ⟨?_, fun id key d found => ?_, fun asked id key d found => ?_⟩
    · rw [Workspace.lasting, same]
      exact holds.1
    · exact holds.2.1 id key d (by rwa [scopes] at found)
    · exact holds.2.2 asked id key d (by rwa [scopes] at found)
  found holds found t shown := by
    cases shown.1
    rw [Workspace.findTypeLasting holds.1] at found
    exact Workspace.foundStored stores found
  known {w id key d} holds found t shown := by
    cases d with
    | unbound o =>
      have open_ : o = .declared t := shown.1
      exact absurd (congrArg Definition.unbound open_) (holds.2.1 id key _ found t)
    | bound i => exact (holds.2.2 (shown.2 rfl) id key _ found t shown.1).1
  current {w id d} holds current t shown := by
    rw [← Workspace.storedLasting holds.1]
    have openType := shown.1
    cases d with
    | unbound o =>
      cases openType
      exact current
    | bound i =>
      have open_ : i.openType = .declared t := openType
      have both : w.isCurrentOpen id i.openType = true ∧ w.isCached id i.key (.bound i) = true :=
        Bool.and_eq_true_iff.mp current
      rw [open_] at both
      exact both.1
  instances {w id} i holds _ _ _ fit := by
    have stored : ∀ t, i.openType = .declared t → v.isStored id t = true := fun t open_ =>
      fit t ⟨open_, fun never => by cases never⟩
    have kept : Kept v id i.key (.bound i) := by
      intro t open_
      have named : i.openType.fullName = t.fullName := congrArg OpenType.fullName open_
      refine ⟨stored t open_, ?_⟩
      rw [Instantiation.key, named]
      exact keyStarts t.fullName i.arguments
    refine ⟨fun t shown => stored t shown.1, ?_, holds.2.1.put fun t => ?_, fun asked =>
      (holds.2.2 asked).put kept⟩
    · exact (Workspace.viewModify Scope.lasting w id rfl).trans holds.1
    · intro same
      cases same
  placeholders {w id} p holds _ _ := by
    refine ⟨fun t shown => ?_, ?_, holds.2.1.put fun t => ?_, fun asked =>
      (holds.2.2 asked).put fun t open_ => ?_⟩
    · cases shown.1
    · exact (Workspace.viewModify Scope.lasting w id rfl).trans holds.1
    · intro same
      cases same
    · cases open_
  arrays id a t shown := nomatch shown.1

theorem refetchStored (bound : Bool) {v : Workspace} (stores : v.Stores Store.Sound) {id : ScopeId}
    {old : Definition} {t : Declared}
    (stored : v.findType id .deep .exact old.fullName old.arity = some t) :
    Keeps (Since bound v) (refetch id old) (ShowsStored bound v id) := by
  have frame := currentFrame bound v stores
  unfold refetch
  split
  · rename_i special
    refine keepsPure fun t shown => ?_
    -- placeholders and arrays show no type
    obtain ⟨open_, -⟩ := shown
    cases old with
    | bound i =>
      have bare : i.openType.element? = none := congrArg OpenType.element? open_
      simp [Definition.placeholder?, Definition.element?, Definition.openType, bare] at special
    | unbound o =>
      cases open_
      cases special
  · refine keepsGet fun w holds => ?_
    rw [Workspace.findTypeLasting holds.1, stored]
    have fit : ShowsStored bound v id (.ofDeclared t) := by
      intro u shown
      cases shown.1
      exact Workspace.foundStored stores stored
    refine keepsBind (frame.instantiate id fit _) fun fresh fit => ?_
    split
    · refine keepsBind (P := fun _ => True) (keepsModify fun v holds => ?_) fun _ _ =>
        keepsPure fit
      obtain ⟨scopes, clock⟩ := Frame.scopesChooseMain v _ _ _
      exact frame.aside holds scopes (Nat.le_of_eq clock.symm)
    · exact keepsPure fit

end Instances

section Runs
open Query
variable {w : Workspace}

theorem Session.remembers {P : ScopeId → String → Definition → Prop}
    (instances : ∀ id key (i : Instantiation), i.Made → P id key (.bound i))
    (placeholders : ∀ id key p, P id key (.unbound (.placeholder p))) (events : List Event) :
    (run events).workspace.Remembers P := by
  induction events using List.reverseRecOn with
  | nil => exact fun id key d found => nomatch found
  | append_singleton events e ih =>
    rw [runAppend]
    refine (Workspace.Remembers.stands P).performs ih fun id q _ => ?_
    refine Question.leaves (Workspace.Remembers.frame P instances placeholders)
      (Question.allowedAll (fun _ _ => trivial) id q) (fun d _ w holds => ?_)
      (fun _ _ _ _ w index holds => ?_) ih
    · exact holds.lessens fun key d found => (Scope.evictCached [_] found).1
    · exact holds.lessens fun key d found => found

theorem Session.unmixed (events : List Event) : (run events).workspace.Remembers Unmixed :=
  remembers (fun _ _ _ _ _ same => nomatch same) (fun _ _ _ _ same => nomatch same) events

theorem Session.instancesMade (events : List Event) :
    (run events).workspace.Remembers (fun _ _ d => ∀ i, d = .bound i → i.Made) :=
  remembers (fun _ _ _ made _ same => by cases same; exact made) (fun _ _ _ _ same => nomatch same)
    events

def Session.Careful (s : Session) : Event → Prop
  | .refers _ references => references = []
  | .asks id (.instanceOf d _) => ∀ t, d = .ofDeclared t → s.workspace.isStored id t = true
  | .asks _ (.resolution request) => request.calling = none
  | _ => True

def Session.CarefulFrom : Session → List Event → Prop
  | _, [] => True
  | s, e :: rest => s.Careful e ∧ CarefulFrom (s.perform e) rest

theorem Session.carefulAppend {events : List Event} {e : Event} {s : Session}
    (careful : s.CarefulFrom (events ++ [e])) :
    s.CarefulFrom events ∧ (events.foldl perform s).Careful e := by
  induction events generalizing s with
  | nil => exact ⟨trivial, careful.1⟩
  | cons first rest ih =>
    obtain ⟨now, later⟩ := careful
    obtain ⟨before, last⟩ := ih later
    exact ⟨⟨now, before⟩, last⟩

structure InStep (w : Workspace) : Prop where
  alone : ∀ id, (w.scope id).references = []
  remembers : w.Remembers (Kept w)

theorem findAlone {id : ScopeId} (alone : (w.scope id).references = []) (name : String)
    (arity : Nat) : w.findType id .deep .exact name arity = (w.store id).find name arity := by
  have visited : ∀ steps names, w.visit steps names [] = [] := fun steps names => by
    cases steps <;> rfl
  have reached : w.reach id = [] := by rw [Workspace.reach, alone, visited]
  rw [Workspace.findType, Workspace.consulted, reached, List.findSome?_cons, List.findSome?_nil,
    Store.lookupExact]
  cases (w.store id).find name arity <;> rfl

theorem storedAlone {id : ScopeId} (alone : (w.scope id).references = []) (t : Declared) :
    w.isStored id t = ((w.store id).find t.fullName t.arity).elim false (fun d => d.is t) := by
  rw [Workspace.isStored, findAlone alone]
  cases (w.store id).find t.fullName t.arity <;> rfl

theorem InStep.changes {after : Workspace} (step : InStep w)
    (alone : ∀ id, (after.scope id).references = [])
    (cached : ∀ id key d, (after.scope id).cache.get? key = some d →
      (w.scope id).cache.get? key = some d ∧ ∀ name,
        (name ++ "[").toList.isPrefixOf key.toList = true →
          (after.store id).logical.get? name = (w.store id).logical.get? name) :
    InStep after := by
  refine ⟨alone, fun id key d found t open_ => ?_⟩
  obtain ⟨known, same⟩ := cached id key d found
  obtain ⟨stored, starts⟩ := step.remembers id key d known t open_
  rw [storedAlone (step.alone id)] at stored
  refine ⟨?_, starts⟩
  rw [storedAlone (alone id), Store.find, Store.candidates, same t.fullName starts]
  exact stored

theorem InStep.aside {after : Workspace} (step : InStep w) (same : after.scopes = w.scopes) :
    InStep after := by
  have scopes : ∀ id, after.scope id = w.scope id := fun id => by
    rw [Workspace.scope, same, Workspace.scope]
  refine step.changes (fun id => ?_) fun id key d found => ⟨?_, fun name _ => ?_⟩
  · rw [scopes]
    exact step.alone id
  · rwa [scopes] at found
  · rw [Workspace.store, scopes, Workspace.store]

theorem InStep.opens (step : InStep w) (uri : String) :
    InStep { w with scopes := w.scopes ++ [Scope.fresh uri] } := by
  refine step.changes (fun id => ?_) fun id key d found => ⟨?_, fun name _ => ?_⟩
  · exact (Workspace.scopeOpened Scope.references w uri id rfl).trans (step.alone id)
  · rwa [Workspace.scopeOpened Scope.cache w uri id rfl] at found
  · exact congrArg (fun s => s.logical.get? name) (Workspace.scopeOpened Scope.store w uri id rfl)

theorem InStep.modifies {id : ScopeId} {f : Scope → Scope} (step : InStep w)
    (alone : ∀ s : Scope, s.references = [] → (f s).references = [])
    (cached : ∀ key d, (f (w.scope id)).cache.get? key = some d →
      (w.scope id).cache.get? key = some d ∧ ∀ name,
        (name ++ "[").toList.isPrefixOf key.toList = true →
          (f (w.scope id)).store.logical.get? name = (w.scope id).store.logical.get? name) :
    InStep (w.modifyScope id f) := by
  refine step.changes (fun other => ?_) fun other key d found => ?_
  · rw [Workspace.scopeModify]
    split
    · exact alone _ (step.alone id)
    · exact step.alone other
  · rw [Workspace.store, Workspace.scopeModify]
    rw [Workspace.scopeModify] at found
    split at found
    · rename_i here
      obtain ⟨rfl, known⟩ := here
      rw [if_pos ⟨rfl, known⟩]
      exact cached key d found
    · rename_i elsewhere
      rw [if_neg elsewhere]
      exact ⟨found, fun _ _ => rfl⟩

theorem InStep.updates (step : InStep w) (stores : w.Stores Store.Sound) (id : ScopeId)
    (file : FileId) (unit : Option CompilationUnit) :
    InStep ((Query.replaceFile id file unit).run w).2 := by
  have sound : (w.scope id).store.Sound := stores.at Store.soundEmpty id
  rw [Query.replaceRun]
  have ticked : InStep { w with clock := w.clock + 1 } := step.aside rfl
  refine ticked.modifies (fun s empty => ?_)
    fun key d found => ?_
  · have outline := outlineReplaceFile (w.scope id) w.links (Stamp.at w.clock) file unit
    exact (congrArg (fun o => o.2.2) outline).trans (step.alone id)
  · obtain ⟨known, evicted⟩ := Scope.replaceCached found
    refine ⟨known, fun name starts => ?_⟩
    rw [Scope.replaceStore]
    refine Store.replaceUnreported (Store.soundSettled sound w.links) _ fun reported => ?_
    rw [evicted name reported] at starts
    cases starts

theorem InStep.asks (step : InStep w) (stores : w.Stores Store.Sound)
    (unmixed : w.Remembers Unmixed) (id : ScopeId) (q : Question)
    (allowed : q.Allowed (ShowsStored true w) id) : InStep (q.after id w) := by
  have asked := Question.leaves (currentFrame true w stores) allowed (fun forgotten _ v holds => ?_)
    (fun _ _ _ _ v index holds => ?_) ⟨rfl, unmixed, fun _ => step.remembers⟩
  · obtain ⟨lasting, -, kept⟩ := asked
    refine ⟨fun other => ?_, fun other key d found t open_ => ?_⟩
    · have same := congrArg (fun l => l.2.2) (Workspace.lastingScope lasting other)
      exact same.trans (step.alone other)
    · rw [Workspace.storedLasting lasting]
      exact kept rfl other key d found t open_
  · refine ⟨(Workspace.viewModify Scope.lasting v id rfl).trans holds.1, ?_, fun asked => ?_⟩
    · exact holds.2.1.lessens fun key d found => (Scope.evictCached [_] found).1
    · exact (holds.2.2 asked).lessens fun key d found =>
        (Scope.evictCached [_] found).1
  · refine ⟨(Workspace.viewModify Scope.lasting v id rfl).trans holds.1, ?_, fun asked => ?_⟩
    · exact holds.2.1.lessens fun key d found => found
    · exact (holds.2.2 asked).lessens fun key d found => found

theorem carefulAllowed {s : Session} {id : ScopeId} {q : Question}
    (careful : s.Careful (.asks id q)) : (∃ i arguments, q = .instanceOf (.bound i) arguments) ∨
      q.Allowed (ShowsStored true s.workspace) id := by
  cases q with
  | instanceOf d arguments =>
    cases d with
    | bound i => exact .inl ⟨i, arguments, rfl⟩
    | unbound o =>
      refine .inr fun t shown => careful t ?_
      exact congrArg Definition.unbound shown.1
  | resolution request => exact .inr (.inl careful)
  | _ => exact .inr trivial

theorem InStep.performs {s : Session} {e : Event} (step : InStep s.workspace)
    (stores : s.workspace.Stores Store.Sound) (unmixed : s.workspace.Remembers Unmixed)
    (careful : s.Careful e) : InStep (s.perform e).workspace := by
  cases e with
  | opens uri => exact step.opens uri
  | writes source => exact step.aside rfl
  | ingests id unit =>
    simp only [Session.perform]
    split
    · exact step.updates stores id _ _
    · exact step
  | removes id file => exact step.updates stores id file none
  | refers id references =>
    cases careful
    exact step.modifies (fun s _ => rfl) fun key d found => ⟨found, fun _ _ => rfl⟩
  | asks id q =>
    rcases carefulAllowed careful with ⟨i, arguments, rfl⟩ | allowed
    · exact step
    · exact step.asks stores unmixed id q allowed

theorem Session.inStep {events : List Event} (careful : start.CarefulFrom events) :
    InStep (run events).workspace := by
  induction events using List.reverseRecOn with
  | nil => exact ⟨fun id => rfl, fun id key d found => nomatch found⟩
  | append_singleton events e ih =>
    obtain ⟨before, last⟩ := carefulAppend careful
    rw [runAppend]
    exact (ih before).performs (storesSound events) (unmixed events) last

inductive Finds (id : ScopeId) (w : Workspace) : Definition → Workspace → Prop where
  | named {depth rule name arguments d after}
      (found : (getType id depth rule name arguments).run w = (some d, after)) : Finds id w d after
  | referred {r d linked after} (found : (lookup id r).run w = ((some d, linked), after)) :
      Finds id w d after
  | again {old d after t} (stored : w.findType id .deep .exact old.fullName old.arity = some t)
      (found : (refetch id old).run w = (d, after)) : Finds id w d after

/-- Whatever a lookup finds in a session is stored at that moment: always if it is a type itself,
and also the type that it instantiates if the session was careful. -/
theorem lookupsCurrent (events : List Event) (id : ScopeId) {d : Definition} {after : Workspace}
    (finds : Finds id (Session.run events).workspace d after) {t : Declared}
    (shown : d.openType = .declared t)
    (plain : d.isBound = true → Session.start.CarefulFrom events) :
    after.isStored id t = true := by
  have stores := Session.storesSound events
  have frame := currentFrame d.isBound (Session.run events).workspace stores
  have holds : Since d.isBound (Session.run events).workspace (Session.run events).workspace :=
    ⟨rfl, Session.unmixed events, fun bound => (Session.inStep (plain bound)).remembers⟩
  have answered : Since d.isBound (Session.run events).workspace after ∧
      ShowsStored d.isBound (Session.run events).workspace id d := by
    cases finds with
    | @named depth rule name arguments _ _ found =>
      have kept := frame.getType id depth rule name arguments _ holds
      rw [found] at kept
      exact ⟨kept.1, kept.2 d rfl⟩
    | @referred r _ linked _ found =>
      have kept := frame.lookup id r _ holds
      rw [found] at kept
      exact ⟨kept.1, kept.2 d rfl⟩
    | again stored found =>
      have kept := refetchStored d.isBound stores stored _ holds
      rwa [found] at kept
  rw [Workspace.storedLasting answered.1.1]
  exact answered.2 t ⟨shown, fun bound => bound⟩

def boxSource (base : Option TypeRef) : Source where
  file := ⟨0⟩
  fileName := ""
  usings := []
  types := [{ Blueprint.bare "Lib.Box" .classType with
    typeParameters := [⟨"T", []⟩]
    base := base }]

def loadedBox : List Event := [.opens "app", .writes (boxSource none), .ingests 0 0]

theorem lookupsCurrentBox : ∃ i t after,
    (getType 0 .deep .exact "Lib.Box" [TypeRef.named "Lib.X"]).run
      (Session.run loadedBox).workspace = (some (.bound i), after) ∧
    i.openType = .declared t ∧ after.isStored 0 t = true := by
  refine ⟨_, _, _, rfl, rfl, ?_⟩
  have careful : Session.start.CarefulFrom loadedBox := ⟨trivial, trivial, trivial, trivial⟩
  exact lookupsCurrent loadedBox 0
    (@Finds.named _ _ .deep .exact "Lib.Box" [TypeRef.named "Lib.X"] _ _ rfl) rfl fun _ => careful

def replacedBox : List Event :=
  [.opens "lib", .opens "app", .writes (boxSource none), .ingests 0 0, .refers 1 [0],
    .asks 1 (.typeNamed .deep .exact "Lib.Box" [TypeRef.named "Lib.X"]),
    .writes (boxSource (some (TypeRef.named "Lib.Root"))), .ingests 0 1]

theorem instanceOutdated : ∃ i t after,
    (getType 1 .deep .exact "Lib.Box" [TypeRef.named "Lib.X"]).run
      (Session.run replacedBox).workspace = (some (.bound i), after) ∧
    i.openType = .declared t ∧ after.isStored 1 t = false :=
  ⟨_, _, _, rfl, rfl, rfl⟩

end Runs
end TypeScope
