import TypeScope.Extension
import TypeScope.Resolution
import TypeScope.Subtypes
import TypeScope.Visibility
import TypeScope.Proofs.Queries

/-! What questions leave alone. Apart from the index of subtypes a question writes links, remembered
instances and the clock; a property of the scopes that remembering cannot break outlives it. -/
namespace TypeScope

def Workspace.remembering (w : Workspace) (id : ScopeId) (key : String) (d : Definition) :
    Workspace :=
  { w with clock := w.clock + 1 }.modifyScope id (fun s => { s with cache := s.cache.put key d })

structure Instantiation.Made (i : Instantiation) : Prop where
  filled : i.arguments ≠ []
  body : ∃ links, i.body = (i.openType.body.settled links i.openType.stamp).substitute
    (Instantiation.bindings i.openType i.arguments)

namespace Query

section Runs
variable (id : ScopeId) (w : Workspace)

theorem instantiateRun (o : OpenType) {arguments : List TypeRef} (some_ : arguments ≠ []) :
    (instantiate id (.unbound o) arguments).run w =
      match (w.scope id).cache.get? (Instantiation.keyFor o.fullName arguments) with
      | some known => (known, w)
      | none =>
          let made := Instantiation.of (Stamp.at w.clock) o (w.bodyOf (.unbound o)) arguments
          (.bound made, w.remembering id made.key (.bound made)) := by
  have full : ¬ arguments.isEmpty = true := fun empty => some_ (List.isEmpty_iff.mp empty)
  simp only [instantiate, if_neg full, cached?, StateT.run_bind, StateT.run_get, pure_bind,
    StateT.run_pure]
  cases (w.scope id).cache.get? (Instantiation.keyFor o.fullName arguments) <;> rfl

theorem placeholderRun (owner : Declared) (parameter : TypeParameter) :
    (placeholder id owner parameter).run w =
      match (w.scope id).cache.get? (Placeholder.keyFor owner.fullName parameter.name) with
      | some known => (known, w)
      | none =>
          let made : Placeholder := ⟨Stamp.at w.clock, owner, parameter,
            w.fileOf (.ofDeclared owner), w.locationOf (.ofDeclared owner)⟩
          (.unbound (.placeholder made),
            w.remembering id made.key (.unbound (.placeholder made))) := by
  simp only [placeholder, cached?, StateT.run_bind, StateT.run_get, pure_bind, StateT.run_pure]
  cases (w.scope id).cache.get? (Placeholder.keyFor owner.fullName parameter.name) <;> rfl

end Runs

structure Frame (I : Workspace → Prop) (fits : ScopeId → Definition → Prop) : Prop where
  aside : ∀ {w after : Workspace}, I w → after.scopes = w.scopes → w.clock ≤ after.clock → I after
  found : ∀ {w : Workspace} {id : ScopeId} {depth rule name arity t}, I w →
    w.findType id depth rule name arity = some t → fits id (.ofDeclared t)
  known : ∀ {w : Workspace} {id : ScopeId} {key d}, I w → (w.scope id).cache.get? key = some d →
    fits id d
  current : ∀ {w : Workspace} {id : ScopeId} {d}, I w → w.isCurrent id d = true → fits id d
  instances : ∀ {w : Workspace} {id : ScopeId} (i : Instantiation), I w → i.Made →
    i.stamp = Stamp.at w.clock → (w.scope id).cache.get? i.key = none →
    fits id (.unbound i.openType) →
    fits id (.bound i) ∧ I (w.remembering id i.key (.bound i))
  placeholders : ∀ {w : Workspace} {id : ScopeId} (p : Placeholder), I w →
    p.stamp = Stamp.at w.clock → (w.scope id).cache.get? p.key = none →
    fits id (.unbound (.placeholder p)) ∧
      I (w.remembering id p.key (.unbound (.placeholder p)))
  arrays : ∀ id a, fits id (.unbound (.array a))

def Leaves {α : Type} (I : Workspace → Prop) (q : Query α) : Prop := Keeps I q (fun _ => True)

section Leaves
variable {α β : Type} {I : Workspace → Prop} {P : α → Prop}

theorem leavesPure (a : α) : Leaves I (pure a) := keepsPure trivial

theorem leavesBind {q : Query α} {next : α → Query β} (first : Leaves I q)
    (later : ∀ a, Leaves I (next a)) : Leaves I (q >>= next) :=
  keepsBind first fun a _ => later a

theorem leavesOf {q : Query α} (h : Keeps I q P) : Leaves I q := keepsWiden h fun _ _ => trivial

theorem leavesGet {next : Workspace → Query β} (later : ∀ w, Leaves I (next w)) :
    Leaves I (get >>= next) := keepsGet fun w _ => later w

theorem leavesFirstOf {queries : List (Query (Option α))} (each : ∀ q ∈ queries, Leaves I q) :
    Leaves I (firstOf queries) :=
  leavesOf (keepsFirstOf (P := fun _ => True) fun q mem =>
    keepsWiden (each q mem) fun _ _ _ _ => trivial)

theorem leavesFindFirst {f : β → Query (Option α)} {items : List β} (each : ∀ b, Leaves I (f b)) :
    Leaves I (findFirst f items) :=
  leavesOf (keepsFindFirst (P := fun _ => True) fun b _ =>
    keepsWiden (each b) fun _ _ _ _ => trivial)

end Leaves

namespace Frame
variable {I : Workspace → Prop} {fits : ScopeId → Definition → Prop}

section Steps

theorem freshStamp (frame : Frame I fits) : Leaves I freshStamp :=
  fun _ holds => ⟨frame.aside holds rfl (Nat.le_succ _), trivial⟩

theorem keepTarget (frame : Frame I fits) (d : Definition) : Leaves I (keepTarget d) :=
  keepsModify fun _ holds => frame.aside holds rfl (Nat.le_refl _)

theorem writeLink (frame : Frame I fits) (site : Site) (link : Option Stamp) :
    Leaves I (writeLink site link) :=
  keepsModify fun _ holds => frame.aside holds rfl (Nat.le_refl _)

theorem linkAt (frame : Frame I fits) (site : Site) (d : Definition) : Leaves I (linkAt site d) :=
  leavesBind (frame.keepTarget d) fun _ => frame.writeLink site _

theorem linkTo (frame : Frame I fits) (r : TypeRef) (d : Definition) : Leaves I (linkTo r d) :=
  leavesBind (frame.keepTarget d) fun _ => leavesPure _

end Steps

section Instances

theorem instantiate (frame : Frame I fits) (id : ScopeId) {d : Definition} (fit : fits id d)
    (arguments : List TypeRef) : Keeps I (instantiate id d arguments) (fits id) := by
  cases d with
  | bound i => exact keepsPure fit
  | unbound o =>
    by_cases bare : arguments = []
    · rw [bare]
      exact keepsPure fit
    · intro w holds
      rw [instantiateRun id w o bare]
      cases known : (w.scope id).cache.get? (Instantiation.keyFor o.fullName arguments) with
      | some d => exact ⟨holds, frame.known holds known⟩
      | none =>
        obtain ⟨fits, after⟩ := frame.instances (Instantiation.of (Stamp.at w.clock) o
          (w.bodyOf (.unbound o)) arguments) holds ⟨bare, w.links, rfl⟩ rfl known fit
        exact ⟨after, fits⟩

theorem placeholder (frame : Frame I fits) (id : ScopeId) (owner : Declared)
    (parameter : TypeParameter) : Keeps I (placeholder id owner parameter) (fits id) := by
  intro w holds
  rw [placeholderRun]
  cases known : (w.scope id).cache.get? (Placeholder.keyFor owner.fullName parameter.name) with
  | some d => exact ⟨holds, frame.known holds known⟩
  | none =>
    obtain ⟨fits, after⟩ := @Frame.placeholders I fits frame w id ⟨Stamp.at w.clock, owner,
      parameter, w.fileOf (.ofDeclared owner), w.locationOf (.ofDeclared owner)⟩ holds rfl known
    exact ⟨after, fits⟩

theorem parameterNamed (frame : Frame I fits) (id : ScopeId) (d : Definition) (rule : CaseRule)
    (name : String) : Leaves I (parameterNamed id d rule name) := by
  unfold Query.parameterNamed
  split
  · split
    · exact leavesBind (leavesOf (frame.placeholder id _ _)) fun _ => leavesPure _
    · exact leavesPure _
  · exact leavesPure _

end Instances

section References

theorem getType (frame : Frame I fits) (id : ScopeId) (depth : Depth) (rule : CaseRule)
    (name : String) (arguments : List TypeRef) :
    Keeps I (getType id depth rule name arguments) (Answers (fits id)) := by
  refine keepsGet fun w holds => ?_
  split
  · rename_i t found
    exact keepsBind (frame.instantiate id (frame.found holds found) arguments) fun d here =>
      keepsPure (answersSome here)
  · exact keepsPure answersNone

theorem lookupCore (frame : Frame I fits) (id : ScopeId) (r : TypeRef) :
    Keeps I (lookupCore id r) (fun answer => Answers (fits id) answer.1) := by
  refine keepsGet fun w holds => ?_
  split
  · rename_i d believed
    obtain ⟨-, current⟩ := Option.filter_eq_some_iff.mp believed
    exact keepsPure (answersSome (frame.current holds current))
  · refine keepsBind (frame.getType id _ _ _ _) fun answer found => ?_
    cases answer with
    | none => exact keepsPure answersNone
    | some d =>
      have keptAt : ∀ made, fits id made → Keeps I
          (Query.linkTo r made >>= fun linked => pure (some made, linked))
          (fun answer => Answers (fits id) answer.1) := fun made fit =>
        keepsBind (frame.linkTo r made) fun _ _ => keepsPure (answersSome fit)
      dsimp only
      split
      · exact keptAt d (found d rfl)
      · exact keepsBind (frame.instantiate id (found d rfl) _) keptAt

theorem arrayOf (frame : Frame I fits) (id : ScopeId) (element : TypeRef) :
    Keeps I (arrayOf id element) (fun answer => fits id answer.1) :=
  keepsBind (frame.lookupCore id _) fun _ _ => keepsGet fun _ _ =>
    keepsBind frame.freshStamp fun _ _ => keepsPure (frame.arrays id _)

theorem lookup (frame : Frame I fits) (id : ScopeId) (r : TypeRef) :
    Keeps I (lookup id r) (fun answer => Answers (fits id) answer.1) := by
  unfold Query.lookup
  split
  · exact keepsBind (frame.arrayOf id _) fun _ fit => keepsPure (answersSome fit)
  · exact frame.lookupCore id r

theorem lookupAt (frame : Frame I fits) (id : ScopeId) (site : Site) (r : TypeRef) :
    Leaves I (lookupAt id site r) := by
  refine leavesGet fun w => leavesBind (leavesOf (frame.lookup id _)) fun answer => ?_
  obtain ⟨found, after⟩ := answer
  dsimp only
  split
  · exact leavesBind (frame.writeLink site _) fun _ => leavesPure _
  · exact leavesPure _

theorem scopesChooseMain (w : Workspace) (d : Declared) (file : Option FileId)
    (location : Location) : ((w.chooseMain d file location).getD w).scopes = w.scopes ∧
      ((w.chooseMain d file location).getD w).clock = w.clock := by
  rw [Workspace.chooseMain]
  cases d.parts.findIdx? (fun p => p.body.file == file && p.body.location == location) <;>
    exact ⟨rfl, rfl⟩

theorem refetch (frame : Frame I fits) (id : ScopeId) (d : Definition) :
    Keeps I (refetch id d) (fun fresh => fresh = d ∨ fits id fresh) := by
  unfold Query.refetch
  split
  · exact keepsPure (.inl rfl)
  · refine keepsGet fun w holds => ?_
    split
    · exact keepsPure (.inl rfl)
    · rename_i t found
      refine keepsBind (frame.instantiate id (frame.found holds found) _) fun fresh fit => ?_
      split
      · refine keepsBind (P := fun _ => True) (keepsModify fun v holds => ?_) fun _ _ =>
          keepsPure (.inr fit)
        obtain ⟨scopes, clock⟩ := scopesChooseMain v _ _ _
        exact frame.aside holds scopes (Nat.le_of_eq clock.symm)
      · exact keepsPure (.inr fit)

end References

section Requests

theorem lookupFor (frame : Frame I fits) (id : ScopeId) (q : Request) (name : String)
    (arguments : List TypeRef) : Leaves I (lookupFor id q name arguments) :=
  leavesOf (frame.getType id _ _ name arguments)

theorem fromParameters (frame : Frame I fits) (id : ScopeId) (q : Request)
    (calling : Option Definition) : Leaves I (fromParameters id q calling) := by
  unfold Query.fromParameters
  split
  · split
    · exact leavesGet fun w => leavesFindFirst fun d => frame.parameterNamed id d _ _
    · exact leavesPure _
  · exact leavesPure _

theorem fromAlias (frame : Frame I fits) (id : ScopeId) (q : Request) :
    Leaves I (fromAlias id q) := by
  unfold Query.fromAlias
  split
  · exact frame.lookupFor id q _ _
  · exact leavesPure _

theorem resolveWith (frame : Frame I fits)
    {nested : Request → Option Definition → Query (Option Definition)} (id : ScopeId) (q : Request)
    (inner : ∀ calling, (q.calling = none → calling = none) → Leaves I (nested q calling)) :
    Leaves I (resolveWith nested id q) := by
  have sources : ∀ calling, (q.calling = none → calling = none) → Leaves I (firstOf
      [Query.fromParameters id q calling, Query.fromKnown id q, nested q calling,
        Query.fromAlias id q, Query.fromEnclosing id q calling, Query.fromUsings id q]) := by
    intro calling without
    refine leavesFirstOf fun source mem => ?_
    simp only [List.mem_cons, List.not_mem_nil, or_false] at mem
    rcases mem with rfl | rfl | rfl | rfl | rfl | rfl
    · exact frame.fromParameters id q calling
    · exact frame.lookupFor id q _ _
    · exact inner calling without
    · exact frame.fromAlias id q
    · exact leavesFindFirst fun _ => frame.lookupFor id q _ _
    · exact leavesFindFirst fun _ => frame.lookupFor id q _ _
  unfold Query.resolveWith
  split
  · exact leavesPure _
  · cases calling : q.calling with
    | some c =>
      refine leavesBind (keepsMap (leavesOf (frame.refetch id c)) fun _ _ => trivial) fun again => ?_
      exact sources again fun none_ => by
        rw [calling] at none_
        cases none_
    | none => exact sources none fun _ => rfl

theorem resolveFlat (frame : Frame I fits) (id : ScopeId) (q : Request) :
    Leaves I (resolveFlat id q) :=
  frame.resolveWith id q fun _ _ => leavesPure _

end Requests

section Walks

theorem resolveBase (frame : Frame I fits) (id : ScopeId) (owner : Definition) (i : Nat)
    (base : TypeRef) : Leaves I (resolveBase id owner i base) := by
  refine leavesBind (frame.lookupAt id _ base) fun answer => ?_
  cases answer with
  | some d => exact leavesPure _
  | none =>
    refine leavesGet fun w => leavesBind (frame.resolveFlat id _) fun answer => ?_
    cases answer with
    | none => exact leavesPure _
    | some d => exact leavesBind (frame.linkAt _ d) fun _ => leavesPure _

theorem resolveBases (frame : Frame I fits) (id : ScopeId) (owner : Definition) (i : Nat)
    (bases : List TypeRef) : Leaves I (resolveBases id owner i bases) := by
  induction bases generalizing i with
  | nil => exact leavesPure _
  | cons base rest ih =>
    exact leavesBind (frame.resolveBase id owner i base) fun _ =>
      leavesBind (ih (i + 1)) fun _ => leavesPure _

theorem advance (frame : Frame I fits) (id : ScopeId) (walk : Walk) :
    Leaves I (advance id walk) := by
  unfold Query.advance
  split
  · exact leavesPure _
  · refine leavesBind (frame.resolveBases id _ 0 _) fun bases => leavesBind ?_ fun _ => leavesPure _
    unfold rootOf
    split
    · exact leavesGet fun _ => leavesPure _
    · exact leavesPure _

theorem walkOn (frame : Frame I fits) (id : ScopeId) (steps : Nat) (walk : Walk) :
    Leaves I (walkOn id steps walk) := by
  induction steps generalizing walk with
  | zero => exact leavesPure _
  | succ steps ih =>
    refine leavesBind (frame.advance id walk) fun next => ?_
    cases next with
    | none => exact leavesPure _
    | some met => exact leavesBind (ih met.2) fun _ => leavesPure _

theorem searchOn (frame : Frame I fits) {α : Type} (id : ScopeId)
    {f : Definition → Query (Option α)} (each : ∀ d, Leaves I (f d)) (steps : Nat) (walk : Walk) :
    Leaves I (searchOn id f steps walk) := by
  induction steps generalizing walk with
  | zero => exact leavesPure _
  | succ steps ih =>
    refine leavesBind (frame.advance id walk) fun next => ?_
    cases next with
    | none => exact leavesPure _
    | some met =>
      refine leavesBind (each met.1) fun answer => ?_
      cases answer with
      | none => exact ih met.2
      | some a => exact leavesPure _

theorem ancestryTo (frame : Frame I fits) (count : Nat) (id : ScopeId) (d : Definition) :
    Leaves I (ancestryTo count id d) :=
  leavesBind (leavesOf (frame.refetch id d)) fun _ => leavesGet fun _ => frame.walkOn id _ _

theorem ancestry (frame : Frame I fits) (id : ScopeId) (d : Definition) :
    Leaves I (ancestry id d) :=
  leavesBind (leavesOf (frame.refetch id d)) fun _ => leavesGet fun _ => frame.walkOn id _ _

theorem searchAncestry (frame : Frame I fits) {α : Type} (id : ScopeId)
    {f : Definition → Query (Option α)} (each : ∀ d, Leaves I (f d)) (d : Definition) :
    Leaves I (searchAncestry id f d) :=
  leavesBind (leavesOf (frame.refetch id d)) fun _ => leavesGet fun _ => frame.searchOn id each _ _

end Walks

section Subtypes

theorem baseNames (frame : Frame I fits) (id : ScopeId) (d : Declared) :
    Leaves I (baseNames id d) :=
  leavesBind (frame.resolveBases id _ 0 _) fun _ => leavesPure _

theorem indexTypes (frame : Frame I fits) (id : ScopeId) (types : List Declared)
    (index : SubtypeIndex) : Leaves I (indexTypes id types index) := by
  induction types generalizing index with
  | nil => exact leavesPure _
  | cons d rest ih => exact leavesBind (frame.baseNames id d) fun _ => ih _

theorem buildIndex (frame : Frame I fits) (id : ScopeId) : Leaves I (buildIndex id) :=
  leavesGet fun _ => frame.indexTypes id _ _

theorem arrayOfArgument (frame : Frame I fits) (id : ScopeId) (d : Definition) :
    Leaves I (arrayOfArgument id d) := by
  cases d with
  | unbound o => exact leavesPure _
  | bound i =>
    simp only [Query.arrayOfArgument]
    split
    · refine leavesGet fun w => ?_
      split
      · exact leavesPure _
      · refine leavesBind (leavesOf (frame.arrayOf id _)) fun answer => ?_
        obtain ⟨array, after⟩ := answer
        dsimp only
        split
        · exact leavesBind (frame.writeLink _ _) fun _ => leavesPure _
        · exact leavesPure _
    · exact leavesPure _

theorem arraysOf (frame : Frame I fits) (id : ScopeId) (ds : List Definition) :
    Leaves I (arraysOf id ds) := by
  induction ds with
  | nil => exact leavesPure _
  | cons d rest ih =>
    refine leavesBind (frame.keepTarget d) fun _ => leavesGet fun w => ?_
    exact leavesBind (leavesOf (frame.arrayOf id _)) fun _ => leavesBind ih fun _ => leavesPure _

theorem subtypeIndex (frame : Frame I fits) (id : ScopeId)
    (indexing : ∀ (w : Workspace) index, I w →
      I (w.modifyScope id (fun s => { s with subtypes := some index }))) :
    Leaves I (subtypeIndex id) := by
  refine leavesGet fun w => ?_
  split
  · exact leavesPure _
  · refine leavesBind (frame.buildIndex id) fun index => leavesBind ?_ fun _ => leavesPure _
    exact keepsModify fun v holds => indexing v index holds

theorem arraysOfObjects (frame : Frame I fits) (id : ScopeId)
    (indexed : Leaves I (Query.subtypeIndex id)) (namespaces : Option (List String))
    (d : Definition) : Leaves I (arraysOfObjects id namespaces d) := by
  unfold Query.arraysOfObjects
  split
  · refine leavesGet fun w => ?_
    split
    · exact leavesPure _
    · exact leavesBind (leavesBind indexed fun _ => leavesPure _) fun _ => frame.arraysOf id _
  · exact leavesPure _

theorem subtypes (frame : Frame I fits) (id : ScopeId) (indexed : Leaves I (Query.subtypeIndex id))
    (deep : Bool) (namespaces : Option (List String)) (d : Definition) :
    Leaves I (subtypes id deep namespaces d) :=
  leavesBind (leavesBind indexed fun _ => leavesPure _) fun _ =>
    leavesBind (frame.arrayOfArgument id d) fun _ =>
      leavesBind (frame.arraysOfObjects id indexed namespaces d) fun _ => leavesPure _

end Subtypes

section Members

theorem isAccessible (frame : Frame I fits) (id : ScopeId) (declaring : Definition)
    (access : Accessibility) (calling : Option Definition) :
    Leaves I (isAccessible id declaring access calling) := by
  have derived : ∀ c, Leaves I (isDerived id declaring c) := by
    intro c
    unfold isDerived
    split
    · exact leavesPure _
    · exact leavesBind (frame.searchAncestry id (fun _ => leavesPure _) c) fun _ => leavesPure _
  unfold Query.isAccessible
  split
  · exact leavesPure _
  · rename_i c
    cases access with
    | publicAccess => exact leavesPure _
    | privateAccess => exact leavesPure _
    | protectedAccess => exact derived c
    | internalAccess => exact leavesGet fun _ => leavesPure _
    | protectedOrInternal =>
      refine leavesBind (derived c) fun inside => ?_
      cases inside with
      | true => exact leavesPure _
      | false => exact leavesGet fun _ => leavesPure _
    | protectedAndInternal =>
      refine leavesBind (derived c) fun inside => ?_
      cases inside with
      | true => exact leavesGet fun _ => leavesPure _
      | false => exact leavesPure _

theorem visibleAmong (frame : Frame I fits) (id : ScopeId) (declaring : Definition)
    (calling : Option Definition) (members : List Member) :
    Leaves I (visibleAmong id declaring calling members) := by
  induction members with
  | nil => exact leavesPure _
  | cons m rest ih =>
    simp only [Query.visibleAmong]
    split
    · exact leavesPure _
    · refine leavesBind (frame.isAccessible id declaring _ calling) fun _ => leavesBind ih ?_
      intro others
      cases others <;> exact leavesPure _

theorem appliesTo (frame : Frame I fits) (id : ScopeId) (ancestors : List String)
    (candidate : Definition) (i : Nat) (m : Member) :
    Leaves I (appliesTo id ancestors candidate i m) := by
  unfold Query.appliesTo
  split
  · exact leavesPure _
  · dsimp only
    split
    all_goals
      split
      · exact leavesPure _
      · refine leavesBind (frame.lookupAt id _ _) fun answer => ?_
        cases answer <;> exact leavesPure _

theorem bindAmong (frame : Frame I fits) (id : ScopeId) (ancestors : List String)
    (receiver candidate : Definition) (i : Nat) (members : List Member) :
    Leaves I (bindAmong id ancestors receiver candidate i members) := by
  induction members generalizing i with
  | nil => exact leavesPure _
  | cons m rest ih =>
    have here : Leaves I (bindWhereItApplies id ancestors receiver candidate i m) := by
      refine leavesBind (frame.appliesTo id ancestors candidate i m) fun applies => ?_
      cases applies <;> exact leavesPure _
    simp only [Query.bindAmong]
    split
    · exact leavesBind here fun _ => leavesBind (ih _) fun _ => leavesPure _
    · exact leavesBind (leavesPure _) fun _ => leavesBind (ih _) fun _ => leavesPure _

theorem extensionMethods (frame : Frame I fits) (id : ScopeId) (receiver : Definition)
    (candidates : List Definition) : Leaves I (extensionMethods id receiver candidates) := by
  refine leavesBind (frame.ancestry id receiver) fun ancestors => ?_
  induction candidates with
  | nil => exact leavesPure _
  | cons candidate rest ih =>
    exact leavesBind (frame.bindAmong id _ receiver candidate 0 _) fun _ =>
      leavesBind ih fun _ => leavesPure _

end Members

section Nested

theorem findInner (frame : Frame I fits) (id : ScopeId) (rule : CaseRule) (name : String)
    (arity : Nat) (d : Definition) : Leaves I (findInner id rule name arity d) := by
  refine leavesGet fun w => leavesFindFirst fun outer => frame.searchAncestry id ?_ outer
  intro d
  unfold innerOf
  split
  · exact leavesPure _
  · split
    · exact frame.parameterNamed id d _ _
    · exact leavesPure _

theorem followInner (frame : Frame I fits) (id : ScopeId) (rule : CaseRule) (arity : Nat)
    (segments : List String) (d : Definition) :
    Leaves I (followInner id rule arity segments d) := by
  induction segments generalizing d with
  | nil => exact leavesPure _
  | cons segment rest ih =>
    cases rest with
    | nil => exact frame.findInner id rule _ _ d
    | cons next rest =>
      simp only [Query.followInner]
      refine leavesBind (frame.findInner id rule _ _ d) fun answer => ?_
      cases answer with
      | none => exact leavesPure _
      | some d => exact ih d

theorem fromNested (frame : Frame I fits) (id : ScopeId) (q : Request) (calling : Option Definition)
    (fit : calling = none ∨ ∀ d, fits id d) : Leaves I (fromNested id q calling) := by
  cases calling with
  | none => exact leavesPure _
  | some c =>
    have all : ∀ d, fits id d := fit.resolve_left nofun
    refine leavesBind (frame.followInner id q.rule _ _ c) fun answer => ?_
    cases answer with
    | none => exact leavesPure _
    | some d =>
      exact leavesBind (leavesOf (frame.instantiate id (all d) _)) fun _ => leavesPure _

theorem resolve (frame : Frame I fits) (id : ScopeId) (q : Request)
    (outside : q.calling = none ∨ ∀ d, fits id d) : Leaves I (resolve id q) :=
  frame.resolveWith id q fun calling without =>
    frame.fromNested id q calling (outside.imp_left without)

end Nested
end Frame
end Query
end TypeScope
