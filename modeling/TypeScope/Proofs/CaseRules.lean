import TypeScope.Proofs.Aliases
import TypeScope.Proofs.NestedSpellings
import TypeScope.Proofs.Priority

/-! Resolving a name without regard to case. A source that has an answer for the name as it is written
has one then too, except for the nested search of a dotted name and the aliases: those keep to what
they come upon first, which may be spelled otherwise and lead nowhere. -/
namespace TypeScope

def Request.relaxed (q : Request) : Request := { q with rule := .relaxed }

namespace Query

section Sources
variable {id : ScopeId} {q : Request} {calling : Option Definition} {v w : Workspace}

theorem lookupRelaxes (exact_ : q.rule = .exact) (same : v.lasting = w.lasting) {name : String}
    {arguments : List TypeRef}
    (found : ((lookupFor id q name arguments).run v).1.isSome = true) :
    ((lookupFor id q.relaxed name arguments).run w).1.isSome = true := by
  rw [lookupFor, getTypeAnswers, exact_, Workspace.findTypeLasting same] at found
  rw [lookupFor, getTypeAnswers]
  exact Workspace.findTypeRelaxes found

theorem lookupsRelax (exact_ : q.rule = .exact) (same : v.lasting = w.lasting)
    {names wider : List String} (among : names ⊆ wider)
    (found : ((findFirst (lookupFor id q · q.arguments) names).run v).1.isSome = true) :
    ((findFirst (lookupFor id q.relaxed · q.arguments) wider).run w).1.isSome = true := by
  have silent : ∀ r : Request, ∀ name, Silent (lookupFor id r name q.arguments) :=
    fun _ _ => getTypeSilent ..
  rw [findFirstAnswer (silent q), List.findSome?_isSome_iff] at found
  rw [findFirstAnswer (silent q.relaxed), List.findSome?_isSome_iff]
  obtain ⟨name, mem, here⟩ := found
  exact ⟨name, among mem, lookupRelaxes exact_ same here⟩

theorem parametersRelax (exact_ : q.rule = .exact)
    (found : ((fromParameters id q calling).run w).1.isSome = true) :
    ((fromParameters id q.relaxed calling).run w).1.isSome = true := by
  cases calling with
  | none => cases found
  | some c =>
    unfold fromParameters at found ⊢
    dsimp only at found ⊢
    split at found
    · rename_i bare
      have bareToo : q.relaxed.arguments.isEmpty = true := bare
      rw [exact_, outerParameterAnswers] at found
      rw [if_pos bareToo, outerParameterAnswers]
      exact Workspace.innermostRelaxes found
    · cases found

theorem candidatesRelax (exact_ : q.rule = .exact) (u : UsingDirective) :
    UsingDirective.candidates q.rule q.name u ⊆ UsingDirective.candidates .relaxed q.name u := by
  intro name mem
  rw [exact_] at mem
  simp only [UsingDirective.candidates, List.mem_append] at mem ⊢
  refine mem.imp_right fun spelled => ?_
  obtain ⟨a, listed, follows⟩ := List.mem_filterMap.mp spelled
  obtain ⟨rest, follows, whole⟩ := Option.map_eq_some_iff.mp follows
  exact List.mem_filterMap.mpr ⟨a, listed, by rw [Name.afterRelaxes follows, Option.map_some, whole]⟩

theorem enclosingRelaxes (exact_ : q.rule = .exact) (same : v.lasting = w.lasting)
    (found : ((fromEnclosing id q calling).run v).1.isSome = true) :
    ((fromEnclosing id q.relaxed calling).run w).1.isSome = true := by
  rw [fromEnclosing, ← findFirstMap (lookupFor id q · q.arguments)] at found
  rw [fromEnclosing, ← findFirstMap (lookupFor id q.relaxed · q.relaxed.arguments)]
  exact lookupsRelax exact_ same (List.Subset.refl _) found

theorem usingsRelax (exact_ : q.rule = .exact) (same : v.lasting = w.lasting)
    (found : ((fromUsings id q).run v).1.isSome = true) :
    ((fromUsings id q.relaxed).run w).1.isSome = true := by
  refine lookupsRelax exact_ same ?_ found
  change q.unit.elim [] _ ⊆ q.unit.elim [] _
  cases q.unit with
  | none => exact List.Subset.refl _
  | some u =>
    intro name mem
    obtain ⟨directive, listed, given⟩ := List.mem_flatMap.mp mem
    exact List.mem_flatMap.mpr ⟨directive, listed, candidatesRelax exact_ directive given⟩

end Sources

/-- How an answer can be lost when case is ignored. The nested search goes astray on the way along a
dotted name, or another alias stands before the one that is meant and its target is not found. The
using directives look for the target that is meant as well, but with the arguments of the request,
with which there is none. -/
inductive Obstructed (id : ScopeId) (q : Request) (w : Workspace) : Prop where
  | nested {c calling fetched} (called : q.calling = some c)
      (fetching : (refetch id c).run w = (calling, fetched))
      (answered : (resolve id q).run w = (fromNested id q (some calling)).run fetched)
      (missed : ((fromNested id q.relaxed (some calling)).run fetched).1 = none)
      (diverted : Diverted id (Dotted.segments q.name) calling fetched)
  | aliased {u target known other between} (below : q.unit = some u)
      (meant : UsingDirective.findAlias .exact q.name u.usings = some target)
      (answered : (resolve id q).run w =
        (lookupFor id q target.fullName target.arguments).run between)
      (first : (u.usings.flatMap UsingDirective.namedAliases).find?
        (fun a => Name.same .relaxed a.1 q.name) = some (known, other))
      (otherwise_ : known ≠ q.name)
      (unfound : w.findType id q.depth .relaxed (Arity.strip other.fullName).1
        (askedArity other.fullName other.arguments) = none)
      (unlike : w.findType id q.depth .relaxed (Arity.strip target.fullName).1
        (askedArity target.fullName q.arguments) = none)

section Lost
variable {id : ScopeId} {q : Request} {calling : Option Definition} {v between w : Workspace}

theorem fromNestedAnswers (id : ScopeId) (q : Request) (d : Definition) (w : Workspace) :
    ((fromNested id q (some d)).run w).1.isSome =
      ((followInner id q.rule q.arguments.length (Dotted.segments q.name) d).run w).1.isSome := by
  rw [fromNestedRun]
  cases ((followInner id q.rule q.arguments.length (Dotted.segments q.name) d).run w).1 <;> rfl

theorem fetchedFrom {fetched : Workspace}
    (fetching : (q.calling.mapM (refetch id)).run w = (calling, fetched)) :
    (calling = none ∧ fetched = w) ∨
      ∃ c d, q.calling = some c ∧ calling = some d ∧ (refetch id c).run w = (d, fetched) := by
  cases called : q.calling with
  | none =>
    rw [called] at fetching
    cases fetching
    exact .inl ⟨rfl, rfl⟩
  | some c =>
    have mapped : q.calling.mapM (refetch id) = some <$> refetch id c := by
      rw [called]
      rfl
    cases run : (refetch id c).run w with
    | mk d after =>
      rw [mapped, map_eq_pure_bind, runThrough run] at fetching
      cases fetching
      exact .inr ⟨c, d, rfl, rfl, run⟩

theorem fetchedLasting {fetched : Workspace}
    (fetching : (q.calling.mapM (refetch id)).run w = (calling, fetched)) :
    fetched.lasting = w.lasting := by
  rcases fetchedFrom fetching with ⟨-, rfl⟩ | ⟨c, d, -, -, run⟩
  · rfl
  · have kept := ((lastingFrame w).refetch id c w rfl).1
    rwa [run] at kept

theorem nestedObstructs {fetched : Workspace} (exact_ : q.rule = .exact)
    (fetching : (q.calling.mapM (refetch id)).run w = (calling, fetched))
    (answered : (resolve id q).run w = (fromNested id q calling).run fetched)
    (found : ((fromNested id q calling).run fetched).1.isSome = true)
    (lost : ((fromNested id q.relaxed calling).run fetched).1 = none) : Obstructed id q w := by
  rcases fetchedFrom fetching with ⟨rfl, -⟩ | ⟨c, d, called, rfl, run⟩
  · cases found
  · have follows := found
    rw [fromNestedAnswers, exact_] at follows
    exact .nested called run answered lost (followInnerDiverted follows
      (missedToo (fun found => (fromNestedAnswers ..).trans found) lost))

theorem aliasSpelled {name known : String} {other target : TypeRef} {usings : List UsingDirective}
    (meant : UsingDirective.findAlias .exact name usings = some target)
    (first : (usings.flatMap UsingDirective.namedAliases).find?
      (fun a => Name.same .relaxed a.1 name) = some (known, other))
    (spelled : known = name) : other = target := by
  have again := findNarrower (fun _ => Name.sameRelaxes) first (Name.sameExact.mpr spelled)
  rw [UsingDirective.findAlias, again] at meant
  exact Option.some.inj meant

theorem aliasMet {name : String} {target : TypeRef} {usings : List UsingDirective}
    (meant : UsingDirective.findAlias .exact name usings = some target) :
    ∃ known other, (usings.flatMap UsingDirective.namedAliases).find?
      (fun a => Name.same .relaxed a.1 name) = some (known, other) := by
  obtain ⟨a, first, -⟩ := Option.map_eq_some_iff.mp meant
  have met := findWider (fun _ => Name.sameRelaxes) (Option.isSome_of_eq_some first)
  obtain ⟨⟨known, other⟩, met⟩ := Option.isSome_iff_exists.mp met
  exact ⟨known, other, met⟩

theorem aliasCandidate {name : String} {target : TypeRef} {usings : List UsingDirective}
    (meant : UsingDirective.findAlias .exact name usings = some target) :
    target.fullName ∈ usings.flatMap (UsingDirective.candidates .relaxed name) := by
  obtain ⟨⟨known, target⟩, first, rfl⟩ := Option.map_eq_some_iff.mp meant
  have named := List.find?_some first
  obtain rfl : known = name := Name.sameExact.mp named
  obtain ⟨u, listed, named⟩ := List.mem_flatMap.mp (List.mem_of_find?_eq_some first)
  have whole : Name.after? .exact known known = some "" := Name.afterExact.mpr (by simp)
  refine List.mem_flatMap.mpr ⟨u, listed, ?_⟩
  rw [UsingDirective.candidates, List.mem_append]
  refine .inr (List.mem_filterMap.mpr ⟨_, named, ?_⟩)
  simp [Name.afterRelaxes whole]

theorem aliasTaken {u : CompilationUnit} {target : TypeRef} (below : q.unit = some u)
    (met : UsingDirective.findAlias q.rule q.name u.usings = some target) :
    fromAlias id q = lookupFor id q target.fullName target.arguments := by
  rw [fromAlias, below, Option.bind_some, met]

theorem usingsBelow {u : CompilationUnit} (below : q.unit = some u) :
    fromUsings id q = findFirst (lookupFor id q · q.arguments)
      (u.usings.flatMap (UsingDirective.candidates q.rule q.name)) := by
  rw [fromUsings, below]
  rfl

theorem lookupUnfound (same : v.lasting = w.lasting) {name : String} {arguments : List TypeRef}
    (missed : ((lookupFor id q name arguments).run v).1 = none) :
    w.findType id q.depth q.rule (Arity.strip name).1 (askedArity name arguments) = none := by
  rw [← Option.not_isSome_iff_eq_none] at missed ⊢
  rwa [lookupFor, getTypeAnswers, Workspace.findTypeLasting same] at missed

theorem aliasObstructs (exact_ : q.rule = .exact) (same : v.lasting = w.lasting)
    (same' : between.lasting = w.lasting)
    (answered : (resolve id q).run w = (fromAlias id q).run v)
    (found : ((fromAlias id q).run v).1.isSome = true)
    (lost : ((fromAlias id q.relaxed).run between).1 = none)
    (unused : ((fromUsings id q.relaxed).run between).1 = none) : Obstructed id q w := by
  cases below : q.unit with
  | none =>
    rw [fromAlias, below] at found
    cases found
  | some u =>
    cases meant : UsingDirective.findAlias .exact q.name u.usings with
    | none =>
      rw [fromAlias, below, exact_, Option.bind_some, meant] at found
      cases found
    | some target =>
      have own : fromAlias id q = lookupFor id q target.fullName target.arguments :=
        aliasTaken below (exact_ ▸ meant)
      obtain ⟨known, other, first⟩ := aliasMet meant
      have taken : fromAlias id q.relaxed = lookupFor id q.relaxed other.fullName other.arguments :=
        aliasTaken (q := q.relaxed) below (by
          change UsingDirective.findAlias .relaxed q.name u.usings = _
          rw [UsingDirective.findAlias, first, Option.map_some])
      rw [own] at found answered
      rw [taken] at lost
      refine .aliased below meant answered first (fun spelled => ?_) (lookupUnfound same' lost)
        (lookupUnfound (q := q.relaxed) same' ?_)
      · cases aliasSpelled meant first spelled
        have again := lookupRelaxes exact_ (same.trans same'.symm) found
        rw [lost] at again
        cases again
      · have silent : ∀ name, Silent (lookupFor id q.relaxed name q.relaxed.arguments) :=
          fun _ => getTypeSilent ..
        rw [usingsBelow (q := q.relaxed) below, findFirstAnswer silent,
          List.findSome?_eq_none_iff] at unused
        exact unused _ (aliasCandidate meant)

theorem lateObstructs (exact_ : q.rule = .exact) (same : v.lasting = w.lasting)
    (same' : between.lasting = w.lasting)
    (strict : (resolve id q).run w =
      (firstOf [fromAlias id q, fromEnclosing id q calling, fromUsings id q]).run v)
    (found : ((resolve id q).run w).1.isSome = true)
    (lost : ((firstOf [fromAlias id q.relaxed, fromEnclosing id q.relaxed calling,
      fromUsings id q.relaxed]).run between).1 = none) : Obstructed id q w := by
  obtain ⟨aliased, lost⟩ := firstOfLost (aliasSilent ..) lost
  obtain ⟨enclosing, lost⟩ := firstOfLost (enclosingSilent ..) lost
  obtain ⟨usings, -⟩ := firstOfMissed lost
  cases own : ((fromAlias id q).run v).1 with
  | some d =>
    have hit := Option.isSome_of_eq_some own
    rw [firstOfHit hit] at strict
    exact aliasObstructs exact_ same same' strict hit aliased usings
  | none =>
    have outside := missedToo (enclosingRelaxes exact_ (same.trans same'.symm)) enclosing
    have unused := missedToo (usingsRelax exact_ (same.trans same'.symm)) usings
    rw [firstOfPassed (aliasSilent ..) own, firstOfPassed (enclosingSilent ..) outside,
      firstOfNext unused] at strict
    rw [strict] at found
    cases found

/-- Ignoring case loses no answer, save where it is led astray: along a dotted name, by what the
nested search comes upon for one of the segments before the last; and by an alias spelled otherwise
that stands before the one that is meant. -/
theorem relaxedResolves (w : Workspace) (id : ScopeId) {q : Request} (exact_ : q.rule = .exact)
    (found : ((resolve id q).run w).1.isSome = true) :
    ((resolve id q.relaxed).run w).1.isSome = true ∨ Obstructed id q w := by
  have named : q.name ≠ "" := by
    intro empty
    rw [resolveUnnamed id empty] at found
    cases found
  cases fetching : (q.calling.mapM (refetch id)).run w with
  | mk calling fetched =>
    have strict := resolveSources named fetching
    have loose := resolveSources (q := q.relaxed) named fetching
    cases answer : ((resolve id q.relaxed).run w).1 with
    | some d => exact .inl rfl
    | none =>
      refine .inr ?_
      rw [loose] at answer
      obtain ⟨parameters, answer⟩ := firstOfLost (parametersSilent ..) answer
      obtain ⟨known, answer⟩ := firstOfLost (knownSilent ..) answer
      obtain ⟨nested, late⟩ := firstOfMissed answer
      have noParameter := missedToo (parametersRelax exact_) parameters
      have unknown : ((fromKnown id q).run fetched).1 = none :=
        missedToo (lookupRelaxes exact_ rfl) known
      simp only [nearSources, List.cons_append, List.nil_append] at strict
      rw [firstOfPassed (parametersSilent ..) noParameter,
        firstOfPassed (knownSilent ..) unknown] at strict
      cases direct : ((fromNested id q calling).run fetched).1 with
      | some d =>
        have hit := Option.isSome_of_eq_some direct
        rw [firstOfHit hit] at strict
        exact nestedObstructs exact_ fetching strict hit nested
      | none =>
        -- the two nested searches may have gone different ways, but they leave the stores alone
        have kept : ∀ r : Request, ((fromNested id r calling).run fetched).2.lasting = w.lasting :=
          fun r => ((lastingFrame w).fromNested id r calling (.inr fun _ => trivial) fetched
            (fetchedLasting fetching)).1
        rw [firstOfNext direct] at strict
        exact lateObstructs exact_ (kept q) (kept q.relaxed) strict found late

end Lost

def spellingEvents : List Event :=
  [.opens "app",
    .writes ⟨⟨0⟩, "Outer.cs", [],
      [{ Blueprint.bare "App.Outer" .classType with
          nested := [Blueprint.bare "a" .classType,
            { Blueprint.bare "A" .classType with nested := [Blueprint.bare "B" .classType] }] },
        { Blueprint.bare "App.Box" .classType with typeParameters := [⟨"T", []⟩] }]⟩,
    .ingests 0 0]

def spellings : Workspace := (Session.run spellingEvents).workspace

theorem relaxedResolvesNested : ∃ outer,
    spellings.findType 0 .deep .exact "App.Outer" 0 = some outer ∧
      let q := Request.within "A" outer none .shallow
      q.rule = .exact ∧ ((resolve 0 q).run spellings).1.isSome = true ∧
        ((resolve 0 q.relaxed).run spellings).1.isSome = true := by
  have stored : (spellings.findType 0 .deep .exact "App.Outer" 0).any (fun outer =>
      ((resolve 0 (.within "A" outer none .shallow)).run spellings).1.isSome) := by decide +kernel
  obtain ⟨outer, stored, found⟩ := (Option.any_eq_true _ _).mp stored
  refine ⟨outer, stored, rfl, found, ?_⟩
  rcases relaxedResolves spellings 0 (q := .within "A" outer none .shallow) rfl found with
    resolves | ⟨_, _, _, _, diverted⟩ | ⟨below⟩
  · exact resolves
  · have cut : Dotted.segments "A" = ["A"] := by decide +kernel
    rw [show Dotted.segments (Request.within "A" outer none .shallow).name = ["A"] from cut]
      at diverted
    nomatch diverted
  · cases below

def boxAliases : List UsingDirective :=
  [UsingDirective.aliasing "io" (TypeRef.named "No.Such") Location.unknown,
    UsingDirective.aliasing "IO" (TypeRef.generic "App.Box" [TypeRef.named "System.Int32"])
      Location.unknown]

theorem otherCaseBlocks : (∃ outer, spellings.findType 0 .deep .exact "App.Outer" 0 = some outer ∧
    ((resolve 0 (.within "A.B" outer none .shallow)).run spellings).1.map Definition.fullName =
      some "App.Outer.A.B" ∧
    ((resolve 0 (Request.within "A.B" outer none .shallow).relaxed).run spellings).1.isNone = true) ∧
    ((resolve 0 ((Request.named "IO").below ⟨⟨1⟩, "", [], []⟩ boxAliases)).run spellings).1.map
      Definition.fullName = some "App.Box" ∧
    ((resolve 0 ((Request.named "IO").below ⟨⟨1⟩, "", [], []⟩ boxAliases).relaxed).run
      spellings).1.isNone = true := by
  refine ⟨?_, by decide +kernel, by decide +kernel⟩
  have stored : (spellings.findType 0 .deep .exact "App.Outer" 0).any (fun outer =>
      ((resolve 0 (.within "A.B" outer none .shallow)).run spellings).1.map Definition.fullName ==
          some "App.Outer.A.B" &&
        ((resolve 0 (Request.within "A.B" outer none .shallow).relaxed).run spellings).1.isNone) := by
    decide +kernel
  obtain ⟨outer, stored, both⟩ := (Option.any_eq_true _ _).mp stored
  obtain ⟨found, lost⟩ := Bool.and_eq_true_iff.mp both
  exact ⟨outer, stored, eq_of_beq found, lost⟩

end Query
end TypeScope
