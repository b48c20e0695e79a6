import TypeScope.Proofs.Agreement
import TypeScope.Proofs.Currency
import TypeScope.Proofs.Keys

/-! When two lookups answer the same object. A scope files every instance under its key and never
files one object twice, so two bindings are one object exactly if their keys are one text. The key
tells the full name and the canonical arguments; it does not tell types of one name apart. -/
namespace TypeScope

def Definition.key? : Definition → Option String
  | .bound i => some i.key
  | .unbound (.placeholder p) => some p.key
  | .unbound _ => none

structure Filed (w : Workspace) : Prop where
  entries : w.Remembers (fun _ key d => d.key? = some key ∧ d.stamp.tick < w.clock)
  apart : ∀ id key other d e, (w.scope id).cache.get? key = some d →
    (w.scope id).cache.get? other = some e → d.stamp = e.stamp → key = other

section Filed
variable {v w after : Workspace} {id : ScopeId} {key : String} {d : Definition}

theorem Filed.within (filed : Filed w) (clock : w.clock ≤ after.clock)
    (less : ∀ id key d, (after.scope id).cache.get? key = some d →
      (w.scope id).cache.get? key = some d) : Filed after where
  entries id key d found := by
    obtain ⟨own, before⟩ := filed.entries id key d (less id key d found)
    exact ⟨own, Nat.lt_of_lt_of_le before clock⟩
  apart id key other d e found found' :=
    filed.apart id key other d e (less id key d found) (less id other e found')

theorem cachedModify {f : Scope → Scope}
    (less : ∀ key d, (f (w.scope id)).cache.get? key = some d →
      (w.scope id).cache.get? key = some d) (other : ScopeId) (key : String) (d : Definition)
    (found : ((w.modifyScope id f).scope other).cache.get? key = some d) :
    (w.scope other).cache.get? key = some d :=
  @Workspace.Remembers.lessens (fun other key d => (w.scope other).cache.get? key = some d) w
    (fun _ _ _ found => found) id f less other key d found

theorem cachedRemembering (w : Workspace) (id : ScopeId) (key : String) (d : Definition)
    {other : ScopeId} {k : String} {e : Definition}
    (found : ((w.remembering id key d).scope other).cache.get? k = some e) :
    (id = other ∧ key = k ∧ d = e) ∨ (w.scope other).cache.get? k = some e := by
  rw [Workspace.remembering, Workspace.scopeModify] at found
  split at found
  · rename_i here
    rcases Table.putSome found with ⟨named, same⟩ | old
    · exact .inl ⟨here.1.symm, named, same⟩
    · exact .inr (here.1 ▸ old)
  · exact .inr found

theorem Filed.remembering (filed : Filed w) (own : d.key? = some key)
    (stamp : d.stamp = Stamp.at w.clock) : Filed (w.remembering id key d) := by
  have new : ∀ other k e, (w.scope other).cache.get? k = some e → e.stamp ≠ d.stamp := by
    intro other k e found same
    have before := (filed.entries other k e found).2
    rw [same, stamp] at before
    exact Nat.lt_irrefl _ before
  refine ⟨fun other k e found => ?_, fun other k l e f found found' same => ?_⟩
  · rcases cachedRemembering w id key d found with ⟨-, rfl, rfl⟩ | old
    · refine ⟨own, ?_⟩
      rw [stamp]
      exact Nat.lt_succ_self _
    · obtain ⟨named, before⟩ := filed.entries other k e old
      exact ⟨named, Nat.lt_succ_of_lt before⟩
  · rcases cachedRemembering w id key d found with ⟨-, rfl, rfl⟩ | old <;>
      rcases cachedRemembering w id key d found' with ⟨-, named, rfl⟩ | old'
    · exact named
    · exact absurd same.symm (new other l f old')
    · exact absurd same (new other k e old)
    · exact filed.apart other k l e f old old' same

structure Grown (v w : Workspace) : Prop where
  lasting : w.lasting = v.lasting
  filed : Filed w
  kept : ∀ id key d, (v.scope id).cache.get? key = some d → (w.scope id).cache.get? key = some d

theorem Grown.refl (filed : Filed w) : Grown w w := ⟨rfl, filed, fun _ _ _ found => found⟩

theorem Grown.trans (first : Grown v w) (second : Grown w after) : Grown v after :=
  ⟨second.lasting.trans first.lasting, second.filed, fun id key d found =>
    second.kept id key d (first.kept id key d found)⟩

theorem Grown.length (grown : Grown v w) : w.scopes.length = v.scopes.length := by
  have lengths := congrArg List.length grown.lasting
  rwa [Workspace.lasting, Workspace.lasting, List.length_map, List.length_map] at lengths

theorem Grown.remembering (grown : Grown v w) (own : d.key? = some key)
    (stamp : d.stamp = Stamp.at w.clock) (new : (w.scope id).cache.get? key = none) :
    Grown v (w.remembering id key d) := by
  refine ⟨?_, grown.filed.remembering own stamp, fun other k e found => ?_⟩
  · exact (Workspace.viewModify Scope.lasting { w with clock := w.clock + 1 } id rfl).trans
      grown.lasting
  · have old := grown.kept other k e found
    rw [Workspace.remembering, Workspace.scopeModify]
    split
    · rename_i here
      obtain ⟨rfl, -⟩ := here
      have elsewhere : key ≠ k := by
        rintro rfl
        rw [new] at old
        cases old
      rw [Table.getPut, if_neg elsewhere]
      exact old
    · exact old

theorem grownFrame (v : Workspace) : Query.Frame (Grown v) (fun _ _ => True) where
  aside {w after} grown same clock := by
    have scopes : ∀ id, after.scope id = w.scope id := fun id => by
      rw [Workspace.scope, same, Workspace.scope]
    refine ⟨?_, grown.filed.within clock fun id key d found => ?_, fun id key d found => ?_⟩
    · rw [Workspace.lasting, same]
      exact grown.lasting
    · rwa [scopes] at found
    · rw [scopes]
      exact grown.kept id key d found
  found _ _ := trivial
  known _ _ := trivial
  current _ _ := trivial
  instances i grown _ stamp new _ := ⟨trivial, grown.remembering rfl stamp new⟩
  placeholders p grown stamp new := ⟨trivial, grown.remembering rfl stamp new⟩
  arrays _ _ := trivial

theorem filedFrame : Query.Frame Filed (fun _ _ => True) where
  aside {w after} filed same clock := by
    refine filed.within clock fun id key d found => ?_
    rwa [Workspace.scope, same] at found
  found _ _ := trivial
  known _ _ := trivial
  current _ _ := trivial
  instances i filed _ stamp _ _ := ⟨trivial, filed.remembering rfl stamp⟩
  placeholders p filed stamp _ := ⟨trivial, filed.remembering rfl stamp⟩
  arrays _ _ := trivial

theorem filedStands : Session.Stands Filed where
  aside filed same clock := filedFrame.aside filed same clock
  opens w uri filed := by
    refine filed.within (Nat.le_refl _) fun id key d found => ?_
    rwa [Workspace.scopeOpened Scope.cache w uri id rfl] at found
  refers w id references filed :=
    filed.within (Nat.le_refl _) (cachedModify fun key d found => found)
  updates w id stamp file unit filed :=
    filed.within (Nat.le_refl _) (cachedModify fun key d found => (Scope.replaceCached found).1)

theorem Session.filedPerform {s : Session} (filed : Filed s.workspace) (e : Event) :
    Filed (s.perform e).workspace := by
  refine filedStands.performs filed fun id q _ => ?_
  refine Question.leaves filedFrame (Question.allowedAll (fun _ _ => trivial) id q)
    (fun forgotten _ w filed => ?_) (fun _ _ _ _ w index filed => ?_) filed
  · exact filed.within (Nat.le_refl _)
      (cachedModify fun key d found => (Scope.evictCached [_] found).1)
  · exact filed.within (Nat.le_refl _) (cachedModify fun key d found => found)

theorem Session.filed (events : List Event) : Filed (run events).workspace := by
  induction events using List.reverseRecOn with
  | nil => exact ⟨fun id key d found => (nomatch found), fun id key _ d _ found => nomatch found⟩
  | append_singleton events e ih =>
    rw [runAppend]
    exact filedPerform ih e

def Question.forgets : Question → Bool
  | .forget _ => true
  | _ => false

def asked (w : Workspace) (questions : List (ScopeId × Question)) : Workspace :=
  questions.foldl (fun w q => q.2.after q.1 w) w

theorem Grown.asks (grown : Grown v w) {q : Question} (keeps : q.forgets = false) (id : ScopeId) :
    Grown v (q.after id w) := by
  refine Question.leaves (grownFrame v) (Question.allowedAll (fun _ _ => trivial) id q)
    (fun d forget => ?_) (fun _ _ _ _ w index grown => ?_) grown
  · rw [forget] at keeps
    cases keeps
  · refine ⟨(Workspace.viewModify Scope.lasting w id rfl).trans grown.lasting,
      grown.filed.within (Nat.le_refl _) (cachedModify fun key d found => found),
      fun other key d found => ?_⟩
    have same : (((w.modifyScope id (fun s => { s with subtypes := some index })).scope
        other).cache) = (w.scope other).cache := Workspace.viewScope Scope.cache w id other rfl
    rw [same]
    exact grown.kept other key d found

theorem Grown.asked {questions : List (ScopeId × Question)} (grown : Grown v w)
    (keeps : ∀ q ∈ questions, q.2.forgets = false) : Grown v (asked w questions) := by
  induction questions generalizing w with
  | nil => exact grown
  | cons q rest ih =>
    exact ih (grown.asks (keeps q List.mem_cons_self) q.1) fun other mem =>
      keeps other (List.mem_cons_of_mem _ mem)

end Filed

section Binding
open Query
variable {w : Workspace} {id : ScopeId} {t : Declared} {arguments : List TypeRef}

theorem openedOfFound {name : String} {arity : Nat}
    (found : w.findType id .deep .exact name arity = some t) : id < w.scopes.length := by
  by_contra beyond
  have blank := w.scopeUnopened (Nat.le_of_not_lt beyond)
  rw [findAlone (by rw [blank]; rfl), Workspace.store, blank] at found
  cases found

def Workspace.Holds (w : Workspace) (id : ScopeId) (t : Declared) : Prop :=
  w.findType id .deep .exact t.fullName t.arity = some t

structure Bound (id : ScopeId) (w : Workspace) (t : Declared) (arguments : List TypeRef)
    (d : Definition) (after : Workspace) : Prop where
  grown : Grown w after
  filed : (after.scope id).cache.get? (Instantiation.keyFor t.fullName arguments) = some d
  origin : (w.scope id).cache.get? (Instantiation.keyFor t.fullName arguments) = some d ∨
    ∃ i, d = .bound i ∧ i.openType = .declared t ∧ i.arguments = arguments

theorem instantiateBound (filed : Filed w) (opened : id < w.scopes.length) (t : Declared)
    (some_ : arguments ≠ []) :
    Bound id w t arguments ((instantiate id (.ofDeclared t) arguments).run w).1
      ((instantiate id (.ofDeclared t) arguments).run w).2 := by
  have grown := ((grownFrame w).instantiate id (d := .ofDeclared t) trivial arguments w
    (.refl filed)).1
  have named : (OpenType.declared t).fullName = t.fullName := rfl
  refine ⟨grown, ?_, ?_⟩ <;> rw [Definition.ofDeclared, instantiateRun id w _ some_, named]
  · cases known : (w.scope id).cache.get? (Instantiation.keyFor t.fullName arguments) with
    | some d => exact known
    | none =>
      have own : (Instantiation.of (Stamp.at w.clock) (.declared t)
          (w.bodyOf (.unbound (.declared t))) arguments).key =
          Instantiation.keyFor t.fullName arguments := rfl
      dsimp only
      rw [own, Workspace.remembering, Workspace.scopeModify, if_pos ⟨rfl, opened⟩, Table.getPut,
        if_pos rfl]
  · cases known : (w.scope id).cache.get? (Instantiation.keyFor t.fullName arguments) with
    | some d => exact .inl rfl
    | none => exact .inr ⟨_, rfl, rfl, rfl⟩

theorem TypeRef.genericAll (r : TypeRef) : r.isGeneric = !r.allArguments.isEmpty := by
  rw [isGeneric, allArguments]
  induction r.parts with
  | nil => rfl
  | cons p rest ih =>
    rw [List.any_cons, ih, List.flatMap_cons]
    cases p.arguments <;> rfl

def TypeRef.bindingArguments (r : TypeRef) : List TypeRef :=
  if r.arguments.isEmpty then r.allArguments else r.arguments

inductive Binds (id : ScopeId) (w : Workspace) :
    Declared → List TypeRef → Definition → Workspace → Prop where
  | direct {t arguments d after} (stored : w.Holds id t)
      (run : (instantiate id (.ofDeclared t) arguments).run w = (d, after)) :
      Binds id w t arguments d after
  | named {depth rule name t arguments d after}
      (selected : w.findType id depth rule (Arity.strip name).1 arguments.length = some t)
      (run : (getType id depth rule name arguments).run w = (some d, after)) :
      Binds id w t arguments d after
  | referred {r t d linked after} (unlinked : r.link = none) (rankless : r.marks.ranks = [])
      (selected : w.findType id .deep .exact (Arity.strip r.decoratedName).1
        (askedArity r.decoratedName r.arguments) = some t)
      (run : (lookup id r).run w = ((some d, linked), after)) :
      Binds id w t r.bindingArguments d after

theorem Grown.aside {v after : Workspace} (grown : Grown v w) (same : after.scopes = w.scopes)
    (clock : w.clock ≤ after.clock) : Grown v after := (grownFrame v).aside grown same clock

theorem Bound.linkTo {d : Definition} {middle : Workspace} (bound : Bound id w t arguments d middle)
    (r : TypeRef) : Bound id w t arguments d ((linkTo r d).run middle).2 :=
  ⟨bound.grown.aside rfl (Nat.le_refl _), bound.filed, bound.origin⟩

theorem Filed.special (filed : Filed w) {key : String} {d : Definition}
    (found : (w.scope id).cache.get? key = some d) :
    (d.isBound || d.placeholder?.isSome) = true := by
  have own := (filed.entries id key d found).1
  cases d with
  | bound i => rfl
  | unbound o =>
    cases o with
    | declared t => cases own
    | array a => cases own
    | placeholder p => rfl

theorem lookupBound (filed : Filed w) (opened : id < w.scopes.length) {r : TypeRef}
    (unbelieved : (w.linked r).filter (w.isCurrent id) = none) (rankless : r.marks.ranks = [])
    (selected : w.findType id .deep .exact (Arity.strip r.decoratedName).1
      (askedArity r.decoratedName r.arguments) = some t) (some_ : r.bindingArguments ≠ []) :
    ∃ d linked after, (lookup id r).run w = ((some d, linked), after) ∧
      Bound id w t r.bindingArguments d after := by
  have direct : lookup id r = lookupCore id r := by
    rw [Query.lookup, TypeRef.elementNone.mpr rankless]
  have typed := getTypeRun selected
  rw [direct, lookupCore, StateT.run_bind, StateT.run_get, pure_bind, unbelieved]
  dsimp only
  by_cases bare : r.arguments = []
  · have all : r.bindingArguments = r.allArguments := by
      rw [TypeRef.bindingArguments, if_pos (List.isEmpty_iff.mpr bare)]
    have generic : r.isGeneric = true := by
      rw [all] at some_
      rw [r.genericAll, Bool.not_eq_true', List.isEmpty_eq_false_iff]
      exact some_
    have itself : (instantiate id (.ofDeclared t) r.arguments).run w = (.ofDeclared t, w) := by
      rw [bare]
      rfl
    have bound := (instantiateBound filed opened t (all ▸ some_)).linkTo r
    have unspecial : ((Definition.ofDeclared t).isBound ||
        (Definition.ofDeclared t).placeholder?.isSome || !r.isGeneric) = false := by
      rw [generic]
      rfl
    rw [itself] at typed
    rw [all, runThrough typed]
    dsimp only
    rw [unspecial]
    exact ⟨_, _, _, rfl, bound⟩
  · have own : r.bindingArguments = r.arguments := by
      rw [TypeRef.bindingArguments, if_neg fun empty => bare (List.isEmpty_iff.mp empty)]
    have bound := instantiateBound filed opened t bare
    have special := bound.grown.filed.special bound.filed
    rw [own, runThrough typed]
    dsimp only
    rw [special, Bool.true_or]
    exact ⟨_, _, _, rfl, bound.linkTo r⟩

theorem Binds.selects {d : Definition} {after : Workspace} (binds : Binds id w t arguments d after)
    (stores : w.Stores Store.Sound) : w.Holds id t := by
  cases binds with
  | direct stored run => exact stored
  | named selected run => exact Workspace.foundAgain stores selected
  | referred unlinked rankless selected run => exact Workspace.foundAgain stores selected

theorem Binds.bound {d : Definition} {after : Workspace} (binds : Binds id w t arguments d after)
    (stores : w.Stores Store.Sound) (filed : Filed w) (some_ : arguments ≠ []) :
    Bound id w t arguments d after := by
  have opened := openedOfFound (binds.selects stores)
  cases binds with
  | direct stored run =>
    have bound := instantiateBound filed opened t some_
    rwa [run] at bound
  | @named depth rule name _ _ _ _ selected run =>
    have bound := instantiateBound filed opened t some_
    have arity : askedArity name arguments = arguments.length := by
      rw [askedArity, if_neg fun empty => some_ (List.isEmpty_iff.mp empty)]
    rw [getTypeRun (arity.symm ▸ selected)] at run
    obtain ⟨answer, rfl⟩ := Prod.mk.inj run
    rwa [Option.some.inj answer] at bound
  | @referred r _ _ _ _ unlinked rankless selected run =>
    have unbelieved : (w.linked r).filter (w.isCurrent id) = none := by
      rw [Workspace.linked, unlinked]
      rfl
    obtain ⟨e, linked', final, again, bound⟩ :=
      lookupBound filed opened unbelieved rankless selected some_
    rw [again] at run
    obtain ⟨answer, rfl⟩ := Prod.mk.inj run
    rwa [Option.some.inj (Prod.mk.inj answer).1] at bound

theorem Bound.same {v final : Workspace} {u : Declared} {others : List TypeRef} {d e : Definition}
    {after : Workspace} (first : Bound id w t arguments d after) (between : Grown after v)
    (second : Bound id v u others e final) : d.is e = true ↔
      Instantiation.keyFor t.fullName arguments = Instantiation.keyFor u.fullName others := by
  have still := second.grown.kept id _ d (between.kept id _ d first.filed)
  constructor
  · intro same
    exact second.grown.filed.apart id _ _ d e still second.filed (beq_iff_eq.mp same)
  · intro same
    rw [same, second.filed] at still
    rw [Option.some.inj still]
    exact beq_self_eq_true d.stamp

end Binding

section Identity
open Query
variable {xid : Char → Bool}

def Workspace.InstancesHeld (w : Workspace) (id : ScopeId) : Prop :=
  ∀ key i, (w.scope id).cache.get? key = some (.bound i) →
    ∃ o, i.openType = .declared o ∧ w.isStored id o = true

theorem Workspace.soundLasting {v w : Workspace} (same : w.lasting = v.lasting)
    (stores : v.Stores Store.Sound) : w.Stores Store.Sound := by
  intro scope mem
  obtain ⟨n, at_⟩ := List.getElem?_of_mem mem
  have here : w.scope n = scope := by rw [Workspace.scope, List.getD_eq_getElem?_getD, at_]; rfl
  have store : scope.store = v.store n := here ▸ storeLasting same n
  rw [store]
  exact stores.at Store.soundEmpty n

theorem Workspace.storedAs {w : Workspace} {id : ScopeId} (stores : w.Stores Store.Sound)
    {o : Declared} (stored : w.isStored id o = true) :
    ∃ s, w.Holds id s ∧ s.is o = true ∧ s.fullName = o.fullName ∧ s.arity = o.arity := by
  unfold isStored at stored
  split at stored
  · rename_i s found
    obtain ⟨before, at_, later, -, here, -⟩ := List.findSome?_eq_some_iff.mp found
    rw [Store.lookupExact] at here
    obtain ⟨mem, arity⟩ := Store.findMem here
    have named := (stores.at Store.soundEmpty at_).named _ s mem
    exact ⟨s, Workspace.foundAgain stores found, stored, named, arity⟩
  · cases stored

theorem Bound.shows {w after : Workspace} {id : ScopeId} {t : Declared} {arguments : List TypeRef}
    {d : Definition} (bound : Bound id w t arguments d after) (stores : w.Stores Store.Sound)
    (filed : Filed w) (separate : ∀ c ∈ Text.marks, xid c = false) (bang : xid '!' = false)
    (names : ∀ s, w.Holds id s → Segmented xid s.fullName)
    (formed : ∀ a ∈ arguments, a.WellFormed xid) (holds : w.Holds id t)
    (held : w.InstancesHeld id) (alone : ∀ s, w.Holds id s → s.fullName = t.fullName →
      s.arity = t.arity) : ∃ o, d.openType = .declared o ∧ t.is o = true := by
  rcases bound.origin with cached | made
  · have own := (filed.entries id _ d cached).1
    cases d with
    | bound i =>
      obtain ⟨o, open_, stored⟩ := held _ i cached
      obtain ⟨s, found, same, named, arity⟩ := Workspace.storedAs stores stored
      have plain : ∀ s, w.Holds id s → '[' ∉ s.fullName.toList := fun s here =>
        (segmentedUnmarked separate (names s here)).2
      have key : Instantiation.keyFor o.fullName i.arguments =
          Instantiation.keyFor t.fullName arguments := by
        have keyed : i.key = Instantiation.keyFor t.fullName arguments := Option.some.inj own
        rwa [Instantiation.key, open_] at keyed
      obtain ⟨name, -⟩ := keyCut (named ▸ plain s found) (plain t holds) key
      have full : s.fullName = t.fullName := named.trans name
      have one : s = t := by
        have again : w.findType id .deep .exact s.fullName s.arity = some s := found
        rw [full, alone s found full] at again
        exact Option.some.inj (again.symm.trans holds)
      exact ⟨o, open_, one ▸ same⟩
    | unbound o =>
      cases o with
      | declared s => cases own
      | array a => cases own
      | placeholder p =>
        -- the key of a placeholder has a mark that no key of an instantiation has
        have foreign : Foreign xid '!' := ⟨by simp [continues, bang], by decide, by decide⟩
        refine absurd ?_ (foreign.key (names t holds) formed)
        have keyed : p.key = Instantiation.keyFor t.fullName arguments := Option.some.inj own
        rw [← keyed]
        simp [Placeholder.key, Placeholder.keyFor]
  · obtain ⟨i, rfl, open_, -⟩ := made
    exact ⟨t, open_, beq_self_eq_true t.stamp⟩

/-- In every state that events bring about, and with any questions between the two bindings, two
bindings of stored types to well-formed arguments are one object exactly if the types have one full
name and the arguments are pairwise equal. Unless types of that name differ in arity that is to
say: exactly if the type is one and the arguments are pairwise equal. And if the name has one arity
only, and what is cached are instantiations of types that the scope holds, then the answer is an
instantiation of the very type that was selected. -/
theorem bindingsIdentified (separate : ∀ c ∈ Text.marks, xid c = false) (bang : xid '!' = false)
    (events : List Event) {id : ScopeId} {questions : List (ScopeId × Question)}
    (keeps : ∀ q ∈ questions, q.2.forgets = false)
    (names : ∀ s, (Session.run events).workspace.Holds id s → Segmented xid s.fullName)
    {t u : Declared} {arguments others : List TypeRef} {d e : Definition} {after final : Workspace}
    (first : Binds id (Session.run events).workspace t arguments d after)
    (second : Binds id (asked after questions) u others e final) (some_ : arguments ≠ [])
    (some' : others ≠ []) (formed : ∀ a ∈ arguments, a.WellFormed xid)
    (formed' : ∀ a ∈ others, a.WellFormed xid) :
    (d.is e = true ↔ t.fullName = u.fullName ∧
      arguments.map TypeRef.canonical = others.map TypeRef.canonical) ∧
    ((t.fullName = u.fullName → t.arity = u.arity) → (d.is e = true ↔ t = u ∧
      arguments.map TypeRef.canonical = others.map TypeRef.canonical)) ∧
    ((Session.run events).workspace.InstancesHeld id →
      (∀ s, (Session.run events).workspace.Holds id s → s.fullName = t.fullName →
        s.arity = t.arity) → ∃ o, d.openType = .declared o ∧ t.is o = true) := by
  have stores := Session.storesSound events
  have filed := Session.filed events
  have bound := first.bound stores filed some_
  have between : Grown after (asked after questions) := (Grown.refl bound.grown.filed).asked keeps
  have whole := bound.grown.trans between
  have stores' := Workspace.soundLasting whole.lasting stores
  have bound' := second.bound stores' between.filed some'
  have holds := first.selects stores
  have holds' : (Session.run events).workspace.Holds id u := by
    have found : (asked after questions).findType id .deep .exact u.fullName u.arity = some u :=
      second.selects stores'
    rwa [Workspace.findTypeLasting whole.lasting] at found
  have plain : ∀ s, (Session.run events).workspace.Holds id s → '[' ∉ s.fullName.toList :=
    fun s here => (segmentedUnmarked separate (names s here)).2
  have told : d.is e = true ↔ t.fullName = u.fullName ∧
      arguments.map TypeRef.canonical = others.map TypeRef.canonical := by
    rw [bound.same between bound']
    constructor
    · exact keyUnique separate (plain t holds) (plain u holds') some_ some' formed formed'
    · rintro ⟨name, canonical⟩
      rw [Instantiation.keyFor, Instantiation.keyFor, TypeRef.listed, TypeRef.listed, name,
        canonical]
  refine ⟨told, fun arity => told.trans (and_congr_left fun _ => ⟨fun name => ?_, ?_⟩), ?_⟩
  · have here : (Session.run events).workspace.findType id .deep .exact t.fullName t.arity =
        some t := holds
    rw [name, arity name] at here
    exact Option.some.inj (here.symm.trans holds')
  · exact congrArg Declared.fullName
  · exact bound.shows stores filed separate bang names formed holds

def boxed : Workspace := (Session.run loadedBox).workspace

theorem boxOnly (t : Declared) (holds : boxed.Holds 0 t) :
    Segmented tabled t.fullName ∧ t.arity = 1 := by
  have all : ∀ s ∈ (boxed.store 0).allTypes, Segmented tabled s.fullName ∧ s.arity = 1 := by
    decide +kernel
  rw [Workspace.Holds, findAlone rfl] at holds
  exact all t (Store.candidatesMem (Store.findMem holds).1)

def boxMention (argument : String) : TypeRef :=
  TypeRef.generic "Lib.Box" [TypeRef.named argument]

theorem bindingsIdentifiedBox : ∃ t d after e linked final,
    boxed.findType 0 .deep .exact "Lib.Box" 1 = some t ∧
    (getType 0 .deep .exact "Lib.Box" [TypeRef.named "Lib.X"]).run boxed = (some d, after) ∧
    (lookup 0 (boxMention "Lib.X")).run (asked after [(0, .reference (boxMention "Lib.Y"))]) =
      ((some e, linked), final) ∧
    d.is e = true ∧ ∃ o, d.openType = .declared o ∧ t.is o = true := by
  have argument : ∀ a ∈ [TypeRef.named "Lib.X"], TypeRef.WellFormed tabled a := by
    intro a mem
    rw [List.mem_singleton.mp mem]
    refine .intro (.inr (by decide +kernel)) (fun p inside => ?_) fun p inside a given => ?_
    · rw [List.mem_singleton.mp inside]
      exact tabledIdentifier (by decide) (by decide)
    · rw [List.mem_singleton.mp inside] at given
      cases given
  obtain ⟨t, d, after, e, linked, final, found, named, again, referred⟩ :
      ∃ t d after e linked final,
        boxed.findType 0 .deep .exact "Lib.Box" 1 = some t ∧
        (getType 0 .deep .exact "Lib.Box" [TypeRef.named "Lib.X"]).run boxed = (some d, after) ∧
        (asked after [(0, .reference (boxMention "Lib.Y"))]).findType 0 .deep .exact
          (Arity.strip (boxMention "Lib.X").decoratedName).1
          (askedArity (boxMention "Lib.X").decoratedName (boxMention "Lib.X").arguments) = some t ∧
        (lookup 0 (boxMention "Lib.X")).run (asked after [(0, .reference (boxMention "Lib.Y"))]) =
          ((some e, linked), final) := ⟨_, _, _, _, _, _, rfl, rfl, rfl, rfl⟩
  obtain ⟨same, -, shows⟩ := bindingsIdentified tabledMarks rfl loadedBox
    (fun q mem => by rw [List.mem_singleton.mp mem]; rfl) (fun s holds => (boxOnly s holds).1)
    (@Binds.named 0 _ .deep .exact "Lib.Box" t [TypeRef.named "Lib.X"] d after found named)
    (.referred rfl rfl again referred) (List.cons_ne_nil _ _) (List.cons_ne_nil _ _) argument
    argument
  refine ⟨t, d, after, e, linked, final, found, named, referred, same.mpr ⟨rfl, rfl⟩,
    shows (fun key i cached => by cases cached) fun s holds name => ?_⟩
  have selected : boxed.Holds 0 t :=
    Workspace.foundAgain (Session.storesSound loadedBox) found
  rw [(boxOnly s holds).2, (boxOnly t selected).2]

def nestedSource : Source where
  file := ⟨0⟩
  fileName := ""
  usings := []
  types := [{ Blueprint.bare "Lib.Outer" .classType with
    typeParameters := [⟨"T", []⟩]
    nested := [Blueprint.bare "Lib.Outer.Inner" .classType,
      { Blueprint.bare "Lib.Outer.Inner" .classType with typeParameters := [⟨"U", []⟩] }] }]

def loadedNested : List Event := [.opens "lib", .writes nestedSource, .ingests 0 0]

def innerOf (outer inner : List TypeRef) : TypeRef :=
  ⟨"Lib", [⟨"Outer", outer⟩], ⟨"Inner", inner⟩, Marks.none, none⟩

def nested : Workspace := (Session.run loadedNested).workspace

def outerBound : (Option Definition × TypeRef) × Workspace :=
  (lookup 0 (innerOf [TypeRef.named "Lib.X"] [])).run nested

def innerBound : (Option Definition × TypeRef) × Workspace :=
  (lookup 0 (innerOf [] [TypeRef.named "Lib.X"])).run outerBound.2

theorem bindingsConfused : ∃ t u d after e final,
    Binds 0 nested t [TypeRef.named "Lib.X"] d after ∧
    Binds 0 after u [TypeRef.named "Lib.X"] e final ∧
    t.is u = false ∧ d.is e = true ∧ u.arity = 1 ∧ e.openType.arity = 0 := by
  obtain ⟨t, outer⟩ := Option.isSome_iff_exists.mp (show
    (nested.findType 0 .deep .exact "Lib.Outer.Inner" 0).isSome = true by decide +kernel)
  obtain ⟨u, inner⟩ := Option.isSome_iff_exists.mp (show
    (outerBound.2.findType 0 .deep .exact "Lib.Outer.Inner" 1).isSome = true by decide +kernel)
  obtain ⟨d, first⟩ := Option.isSome_iff_exists.mp (show
    outerBound.1.1.isSome = true by decide +kernel)
  obtain ⟨e, second⟩ := Option.isSome_iff_exists.mp (show
    innerBound.1.1.isSome = true by decide +kernel)
  have types : (nested.findType 0 .deep .exact "Lib.Outer.Inner" 0).map Declared.stamp ≠
      (outerBound.2.findType 0 .deep .exact "Lib.Outer.Inner" 1).map Declared.stamp ∧
      (outerBound.2.findType 0 .deep .exact "Lib.Outer.Inner" 1).map Declared.arity = some 1 := by
    decide +kernel
  have answers : outerBound.1.1.map Definition.stamp = innerBound.1.1.map Definition.stamp ∧
      innerBound.1.1.map (fun e => e.openType.arity) = some 0 := by decide +kernel
  rw [outer, inner] at types
  rw [first, second] at answers
  have outerNamed : Arity.strip (innerOf [TypeRef.named "Lib.X"] []).decoratedName =
      ("Lib.Outer.Inner", none) := by decide +kernel
  have innerNamed : Arity.strip (innerOf [] [TypeRef.named "Lib.X"]).decoratedName =
      ("Lib.Outer.Inner", some 1) := by decide +kernel
  have whole : ∀ {answer : (Option Definition × TypeRef) × Workspace} {d : Definition},
      answer.1.1 = some d → answer = ((some d, answer.1.2), answer.2) := by
    rintro ⟨⟨_, _⟩, _⟩ d rfl
    rfl
  refine ⟨t, u, d, outerBound.2, e, innerBound.2, ?_, ?_, ?_, ?_, Option.some.inj types.2,
    Option.some.inj answers.2⟩
  · refine @Binds.referred 0 nested (innerOf [TypeRef.named "Lib.X"] []) t d outerBound.1.2
      outerBound.2 rfl rfl ?_ ?_
    · rw [outerNamed]
      exact outer
    · rw [← outerBound]
      exact whole first
  · refine @Binds.referred 0 outerBound.2 (innerOf [] [TypeRef.named "Lib.X"]) u e innerBound.1.2
      innerBound.2 rfl rfl ?_ ?_
    · rw [innerNamed]
      exact inner
    · rw [← innerBound]
      exact whole second
  · rw [Declared.is, beq_eq_false_iff_ne]
    exact fun same => types.1 (congrArg some same)
  · exact beq_iff_eq.mpr (Option.some.inj answers.1)

end Identity
end TypeScope
