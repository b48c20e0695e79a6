import TypeScope.Proofs.Sight

/-! Lookups stay within the horizon. Each of them leaves the scopes' types and references alone,
and finds a definition in sight or makes a new array. -/
namespace TypeScope.Query

variable {h : Horizon} {graph : List (String × Store × List ScopeId)}

def Found (h : Horizon) (d : Definition) : Prop := h.covers d ∨ ∃ a, d = .unbound (.array a)

section Steps

theorem freshStampKeeps : Keeps (Within h graph) freshStamp (fun _ => True) :=
  fun _ within => ⟨⟨within.graph, within.stored, within.cached, within.linked⟩, trivial⟩

theorem keepTargetKeeps {d : Definition} (covered : h.covers d) :
    Keeps (Within h graph) (keepTarget d) (fun _ => True) := by
  refine keepsModify fun w within => ⟨within.graph, within.stored, within.cached, ?_⟩
  intro other mem
  rcases Table.valuesPut mem with same | old
  · rw [same]
    exact covered
  · exact within.linked other old

theorem writeLinkKeeps (site : Site) (link : Option Stamp) :
    Keeps (Within h graph) (writeLink site link) (fun _ => True) :=
  keepsModify fun _ within => ⟨within.graph, within.stored, within.cached, within.linked⟩

theorem linkAtKeeps (site : Site) {d : Definition} (covered : h.covers d) :
    Keeps (Within h graph) (linkAt site d) (fun _ => True) :=
  keepsBind (keepTargetKeeps covered) fun _ _ => writeLinkKeeps site _

theorem linkToKeeps (r : TypeRef) {d : Definition} (covered : h.covers d) :
    Keeps (Within h graph) (linkTo r d) (fun _ => True) :=
  keepsBind (keepTargetKeeps covered) fun _ _ => keepsPure trivial

theorem cachedKeeps (id : ScopeId) (key : String) :
    Keeps (Within h graph) (cached? id key) (Answers h.covers) := by
  refine keepsGet fun w within => keepsPure fun d found => ?_
  exact (within.scopeOf id).2 d (Table.valueOfGet found)

theorem rememberKeeps (id : ScopeId) (key : String) {d : Definition} (covered : h.covers d) :
    Keeps (Within h graph) (remember id key d) (fun _ => True) := by
  refine keepsModify fun w within => ⟨?_, fun scope mem => ?_, fun scope mem => ?_, within.linked⟩
  · have same : (w.modifyScope id _).scopes.map Scope.lasting = w.scopes.map Scope.lasting :=
      Workspace.viewModify Scope.lasting
        (f := fun s => { s with cache := s.cache.put key d }) w id rfl
    exact same.trans within.graph
  · rcases Workspace.memModify mem with same | ⟨old, inside, rfl⟩
    · exact within.stored scope same
    · exact within.stored old inside
  · rcases Workspace.memModify mem with same | ⟨old, inside, rfl⟩
    · exact within.cached scope same
    · intro other listed
      rcases Table.valuesPut listed with new | before
      · rw [new]
        exact covered
      · exact within.cached old inside other before

end Steps

section Instances

theorem substituteWidth (bindings : Bindings) (b : Body) :
    (b.substitute bindings).bases.length = b.bases.length := by
  cases base : b.base <;> simp [Body.substitute, Body.bases, base]

theorem settledWidth (links : Links) (holder : Stamp) (b : Body) :
    (b.settled links holder).bases.length = b.bases.length := by
  cases base : b.base <;> simp [Body.settled, Body.bases, base]

theorem instantiateKeeps (id : ScopeId) {d : Definition} (covered : h.covers d)
    (arguments : List TypeRef) :
    Keeps (Within h graph) (instantiate id d arguments) h.covers := by
  cases d with
  | bound i => exact keepsPure covered
  | unbound o =>
    simp only [instantiate]
    by_cases bare : arguments.isEmpty = true
    · rw [if_pos bare]
      exact keepsPure covered
    · rw [if_neg bare]
      refine keepsBind (cachedKeeps id _) fun known found => ?_
      cases known with
      | some d => exact keepsPure (found d rfl)
      | none =>
        refine keepsBind freshStampKeeps fun stamp _ => keepsGet fun w _ => ?_
        have made :
            h.covers (.bound (Instantiation.of stamp o (w.bodyOf (.unbound o)) arguments)) := by
          refine ⟨covered.1, ?_⟩
          have width : ((w.bodyOf (.unbound o)).substitute
              (Instantiation.bindings o arguments)).bases.length = o.body.bases.length :=
            (substituteWidth _ _).trans (settledWidth _ _ _)
          exact Nat.le_trans (Nat.le_of_eq width) covered.2
        exact keepsBind (rememberKeeps id _ made) fun _ _ => keepsPure made

theorem placeholderKeeps (id : ScopeId) {owner : Declared} {parameter : TypeParameter}
    (covered : h.coversType owner) (mem : parameter ∈ owner.body.typeParameters) :
    Keeps (Within h graph) (placeholder id owner parameter) h.covers := by
  refine keepsBind (cachedKeeps id _) fun known found => ?_
  cases known with
  | some d => exact keepsPure (found d rfl)
  | none =>
    refine keepsBind freshStampKeeps fun stamp _ => keepsGet fun w _ => ?_
    obtain ⟨name, width⟩ := covered.2.2 parameter mem
    have made : ∀ file location, h.covers
        (.unbound (.placeholder ⟨stamp, owner, parameter, file, location⟩)) := by
      intro file location
      exact Horizon.coversUnbound ⟨covered, name, width⟩
    exact keepsBind (rememberKeeps id _ (made _ _)) fun _ _ => keepsPure (made _ _)

theorem parameterNamedKeeps (id : ScopeId) {d : Definition} (origin : h.Origin d)
    (rule : CaseRule) (name : String) :
    Keeps (Within h graph) (parameterNamed id d rule name) (Answers h.covers) := by
  unfold parameterNamed
  unfold Horizon.Origin at origin
  cases open_ : d.openType with
  | array a => exact keepsPure answersNone
  | placeholder p => exact keepsPure answersNone
  | declared owner =>
    rw [open_] at origin
    cases found : owner.body.typeParameters.find? (fun p => Name.same rule p.name name) with
    | none =>
      simp only [found]
      exact keepsPure answersNone
    | some p =>
      simp only [found]
      have mem := List.mem_of_find?_eq_some found
      exact keepsBind (placeholderKeeps id origin mem) fun d covered =>
        keepsPure (answersSome covered)

end Instances
section References

theorem getTypeKeeps (id : ScopeId) (depth : Depth) (rule : CaseRule) (name : String)
    (arguments : List TypeRef) :
    Keeps (Within h graph) (getType id depth rule name arguments) (Answers h.covers) := by
  refine keepsGet fun w within => ?_
  split
  · rename_i t found
    have covered := Horizon.coversDeclared (within.findType found)
    exact keepsBind (instantiateKeeps id covered arguments) fun d here =>
      keepsPure (answersSome here)
  · exact keepsPure answersNone

theorem lookupCoreKeeps (id : ScopeId) (r : TypeRef) :
    Keeps (Within h graph) (lookupCore id r) (fun answer => Answers h.covers answer.1) := by
  refine keepsGet fun w within => ?_
  split
  · rename_i d believed
    obtain ⟨linked, -⟩ := Option.filter_eq_some_iff.mp believed
    obtain ⟨stamp, -, target⟩ := Option.bind_eq_some_iff.mp linked
    exact keepsPure (answersSome (within.linked d (Table.valueOfGet target)))
  · refine keepsBind (getTypeKeeps id _ _ _ _) fun answer found => ?_
    cases answer with
    | none => exact keepsPure answersNone
    | some d =>
      have keptAt : ∀ made, h.covers made → Keeps (Within h graph)
          (linkTo r made >>= fun linked => pure (some made, linked))
          (fun answer => Answers h.covers answer.1) := fun made covered =>
        keepsBind (linkToKeeps r covered) fun _ _ => keepsPure (answersSome covered)
      dsimp only
      split
      · exact keptAt d (found d rfl)
      · exact keepsBind (instantiateKeeps id (found d rfl) _) keptAt

theorem arrayOfKeeps (id : ScopeId) (element : TypeRef) :
    Keeps (Within h graph) (arrayOf id element)
      (fun answer => ∃ a, answer.1 = .unbound (.array a)) := by
  refine keepsBind (lookupCoreKeeps id _) fun answer _ => keepsGet fun w _ => ?_
  exact keepsBind freshStampKeeps fun _ _ => keepsPure ⟨_, rfl⟩

theorem lookupKeeps (id : ScopeId) (r : TypeRef) :
    Keeps (Within h graph) (lookup id r) (fun answer => Answers (Found h) answer.1 ∧
      (r.marks.ranks = [] → Answers h.covers answer.1)) := by
  unfold lookup
  split
  · rename_i element rank
    have ranked : r.marks.ranks ≠ [] := by
      intro bare
      rw [TypeRef.elementNone.mpr bare] at rank
      cases rank
    refine keepsBind (arrayOfKeeps id element) fun answer made => keepsPure ⟨?_, ?_⟩
    · exact answersSome (.inr made)
    · intro bare
      exact absurd bare ranked
  · refine keepsWiden (lookupCoreKeeps id r) fun answer found => ⟨?_, fun _ => found⟩
    exact fun d here => .inl (found d here)

theorem ranksCurrent (links : Links) (site : Site) (r : TypeRef) :
    (links.current site r).marks = r.marks := by
  unfold Links.current
  split <;> rfl

theorem lookupAtKeeps (id : ScopeId) (site : Site) (r : TypeRef) :
    Keeps (Within h graph) (lookupAt id site r) (fun answer => Answers (Found h) answer ∧
      (r.marks.ranks = [] → Answers h.covers answer)) := by
  refine keepsGet fun w _ => keepsBind (lookupKeeps id _) fun answer found => ?_
  rw [ranksCurrent] at found
  obtain ⟨answer, after⟩ := answer
  dsimp only
  split
  · exact keepsBind (writeLinkKeeps site _) fun _ _ => keepsPure found
  · exact keepsPure found

theorem withinChooseMain {w : Workspace} (within : Within h graph w) (d : Declared)
    (file : Option FileId) (location : Location) :
    Within h graph ((w.chooseMain d file location).getD w) := by
  rw [Workspace.chooseMain]
  cases d.parts.findIdx? (fun p => p.body.file == file && p.body.location == location) with
  | none => exact within
  | some i => exact ⟨within.graph, within.stored, within.cached, within.linked⟩

theorem refetchKeeps (id : ScopeId) {d : Definition} (origin : h.Origin d) :
    Keeps (Within h graph) (refetch id d) h.Origin := by
  unfold refetch
  split
  · exact keepsPure origin
  · refine keepsGet fun w within => ?_
    split
    · exact keepsPure origin
    · rename_i t found
      have covered := Horizon.coversDeclared (within.findType found)
      refine keepsBind (instantiateKeeps id covered _) fun fresh here => ?_
      have origin := Horizon.coversOrigin here.1
      split
      · refine keepsBind (P := fun _ => True) (keepsModify fun v inside => ?_) fun _ _ =>
          keepsPure origin
        exact withinChooseMain inside _ _ _
      · exact keepsPure origin

end References

section Requests
variable {q : Request}

theorem outerParameterKeeps (id : ScopeId) (rule : CaseRule) (name : String) {calling : Definition}
    (origin : h.Origin calling) :
    Keeps (Within h graph) (outerParameter id rule name calling) (Answers h.covers) := by
  refine keepsGet fun w within => keepsFindFirst fun outer mem => ?_
  exact parameterNamedKeeps id (within.outwardFrom origin outer mem) rule name

theorem fromParametersKeeps (id : ScopeId) (q : Request) {calling : Option Definition}
    (origin : Answers h.Origin calling) :
    Keeps (Within h graph) (fromParameters id q calling) (Answers h.covers) := by
  cases calling with
  | none => exact keepsPure answersNone
  | some c =>
    unfold fromParameters
    dsimp only
    split
    · exact outerParameterKeeps id _ _ (origin c rfl)
    · exact keepsPure answersNone

theorem fromAliasKeeps (id : ScopeId) (q : Request) :
    Keeps (Within h graph) (fromAlias id q) (Answers h.covers) := by
  unfold fromAlias
  split
  · exact getTypeKeeps id _ _ _ _
  · exact keepsPure answersNone

theorem resolveFlatKeeps (id : ScopeId) (q : Request) (origin : Answers h.Origin q.calling) :
    Keeps (Within h graph) (resolveFlat id q) (Answers h.covers) := by
  unfold resolveFlat resolveWith
  split
  · exact keepsPure answersNone
  · have sources : ∀ calling, Answers h.Origin calling → Keeps (Within h graph)
        (firstOf [fromParameters id q calling, fromKnown id q, pure none, fromAlias id q,
          fromEnclosing id q calling, fromUsings id q]) (Answers h.covers) := by
      intro calling origin
      refine keepsFirstOf fun source mem => ?_
      simp only [List.mem_cons, List.not_mem_nil, or_false] at mem
      rcases mem with rfl | rfl | rfl | rfl | rfl | rfl
      · exact fromParametersKeeps id q origin
      · exact getTypeKeeps id _ _ _ _
      · exact keepsPure answersNone
      · exact fromAliasKeeps id q
      · exact keepsFindFirst fun _ _ => getTypeKeeps id _ _ _ _
      · exact keepsFindFirst fun _ _ => getTypeKeeps id _ _ _ _
    cases calling : q.calling with
    | none => exact sources none answersNone
    | some c =>
      have again : Keeps (Within h graph) (some <$> refetch id c) (Answers h.Origin) :=
        keepsMap (refetchKeeps id (origin c calling)) fun d found => answersSome found
      exact keepsBind again sources

end Requests

section Bases

theorem foundOrigin {d : Definition} (found : Found h d) : h.Origin d := by
  rcases found with covered | ⟨a, rfl⟩
  · exact Horizon.coversOrigin covered.1
  · trivial

theorem writtenInOrigin {owner : Definition} (found : Found h owner) :
    h.Origin (Workspace.writtenIn owner) := by
  have inside := foundOrigin found
  cases owner with
  | bound i => exact inside
  | unbound o => cases o <;> exact inside

theorem resolveBaseKeeps (id : ScopeId) {owner : Definition} (found : Found h owner) (i : Nat)
    (base : TypeRef) :
    Keeps (Within h graph) (resolveBase id owner i base) (fun answer =>
      Answers (Found h) answer ∧ (base.marks.ranks = [] → Answers h.covers answer)) := by
  refine keepsBind (lookupAtKeeps id _ base) fun answer direct => ?_
  cases answer with
  | some d => exact keepsPure direct
  | none =>
    refine keepsGet fun w _ => ?_
    refine keepsBind (resolveFlatKeeps id _ (answersSome (writtenInOrigin found)))
      fun answer resolved => ?_
    cases answer with
    | none => exact keepsPure ⟨answersNone, fun _ => answersNone⟩
    | some d =>
      have covered := resolved d rfl
      exact keepsBind (linkAtKeeps _ covered) fun _ _ =>
        keepsPure ⟨answersSome (.inl covered), fun _ => answersSome covered⟩

end Bases
end TypeScope.Query
