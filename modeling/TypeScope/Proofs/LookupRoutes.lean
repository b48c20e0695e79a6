import TypeScope.Proofs.Arities
import TypeScope.Proofs.NearestFirst
import TypeScope.Proofs.PartArguments

/-! A reference can be looked up as it is, by its decorated name and its arguments, by its full name
and its arity, or by a request. The decorated name has a mark behind every part with arguments, and
the lookup reads all of them off again; so each of the four asks for one name and one arity. -/
namespace TypeScope

namespace Arity

theorem digitsRead {cs : List Char} (all : ∀ c ∈ cs, c.isDigit = true) (n : Nat) :
    digits cs n = some (Nat.ofDigitChars 10 cs n) := by
  induction cs generalizing n with
  | nil => rfl
  | cons c rest ih =>
    rw [digits, if_pos (all c List.mem_cons_self), ih fun d mem => all d (List.mem_cons_of_mem _ mem)]
    rfl

theorem countRepr {n : Nat} (fits : n < UInt64.size) : count? n.repr.toList = some n := by
  have all := reprDigits n
  have read : digits n.repr.toList 0 = some n := by
    rw [digitsRead all, Nat.toList_repr, Nat.ofDigitChars_toDigits (by decide) (by decide)]
  cases cs : n.repr.toList with
  | nil => simp [Nat.toList_repr] at cs
  | cons c rest =>
    rw [cs] at all read
    have unsigned : c ≠ '+' := by
      rintro rfl
      exact absurd (all _ List.mem_cons_self) (by decide)
    simp [count?, unsigned, read, fits]

theorem cutMarked {number : List Char} (clean : mark ∉ number) (base : List Char) :
    cutMark (base ++ mark :: number) = some (base, number) := by
  induction base with
  | nil => simp [cutMark, cutUnmarked clean]
  | cons c rest ih => simp [cutMark, ih]

theorem stripDecorated {name : String} (unmarked : mark ∉ name.toList) {n : Nat}
    (fits : n < UInt64.size) :
    stripSegment (decorate name n).toList = (name.toList, if n = 0 then none else some n) := by
  rw [decorateChars]
  by_cases none_ : n = 0
  · simp [none_, stripSegment, cutUnmarked unmarked]
  · have clean : mark ∉ n.repr.toList := fun mem => absurd (reprDigits n _ mem) (by decide)
    have cut : cutMark (name.toList ++ '\x60' :: n.repr.toList) = some (name.toList, n.repr.toList) :=
      cutMarked clean name.toList
    rw [if_neg none_, if_neg none_, stripSegment, cut]
    simp only [countRepr fits]

end Arity

theorem Dotted.piecesFollowed {first : List Char} {rest : List (List Char)}
    (simple : ∀ cs ∈ first :: rest, '.' ∉ cs) :
    pieces (first ++ following '.' rest) = first :: rest := by
  induction rest generalizing first with
  | nil => simpa [following] using piecesSimple (simple first List.mem_cons_self)
  | cons next rest ih =>
    rw [followingCons, piecesAppend, piecesSimple (simple first List.mem_cons_self),
      ih fun cs mem => simple cs (List.mem_cons_of_mem _ mem), List.singleton_append]

theorem Identifier.without {xid : Char → Bool} (separate : ∀ c ∈ Text.marks, xid c = false)
    {s : String} (named : Identifier xid s) {c : Char} (mark : c ∈ Text.marks) : c ∉ s.toList := by
  intro mem
  have plain : c ≠ '_' := by
    rintro rfl
    exact absurd mark (by decide)
  simpa [continues, plain, separate c mark] using named.2 c mem

theorem askedUnmarked {name : String} (unmarked : Arity.mark ∉ name.toList)
    (arguments : List TypeRef) : askedArity name arguments = arguments.length := by
  rw [askedArity, Arity.stripUnmarked unmarked]
  split
  · rename_i bare
    simp [List.isEmpty_iff.mp bare]
  · rfl

namespace TypeRef
variable {xid : Char → Bool} {r : TypeRef}

theorem segmentsLast (r : TypeRef) : r.segments.getLast? = some r.last := by
  simp [segments, parts]

section Joined
variable {f : TypePart → String} (bare : ∀ s, f ⟨s, []⟩ = s) (named : ∀ p ∈ r.parts, f p ≠ "")
include bare named

theorem piecesJoined (simple : ∀ p ∈ r.segments, '.' ∉ (f p).toList) :
    Dotted.pieces (Dotted.joinAll r.ns (r.parts.map f)).toList =
      r.segments.map (fun p => (f p).toList) := by
  obtain ⟨first, rest, whole, text⟩ := joinedChars bare named
  rw [whole] at simple ⊢
  rw [text, Dotted.piecesFollowed (by simpa using simple), List.map_cons]

theorem intercalateJoined :
    ".".intercalate (r.segments.map f) = Dotted.joinAll r.ns (r.parts.map f) := by
  obtain ⟨first, rest, whole, text⟩ := joinedChars bare named
  refine String.toList_injective ?_
  rw [text, String.toList_intercalate, whole]
  simp [intercalateFollowing, Function.comp_def]

theorem joinedLone (lone : r.segments = [r.last]) :
    Dotted.joinAll r.ns (r.parts.map f) = f r.last := by
  rw [← intercalateJoined bare named, lone]
  rfl

theorem loneJoined (simple : '.' ∉ (Dotted.joinAll r.ns (r.parts.map f)).toList) :
    r.segments = [r.last] := by
  obtain ⟨first, rest, whole, text⟩ := joinedChars bare named
  rw [text] at simple
  have last := r.segmentsLast
  cases rest with
  | nil =>
    rw [whole] at last ⊢
    exact congrArg (fun p => [p]) (Option.some.inj last)
  | cons next later => simp [followingCons] at simple

end Joined

def Counted (r : TypeRef) : Prop := ∀ p ∈ r.parts, p.arguments.length < UInt64.size

theorem segmentCounted (counted : r.Counted) {p : TypePart} (mem : p ∈ r.segments) :
    p.arguments.length < UInt64.size := by
  rcases List.mem_append.mp mem with early | late
  · split at early
    · cases early
    · obtain ⟨s, -, rfl⟩ := List.mem_map.mp early
      exact Nat.two_pow_pos 64
  · exact counted p late

theorem decoratedNamed (named : r.Named) : ∀ p ∈ r.parts, TypePart.decorated p ≠ "" := by
  intro p mem empty
  have chars := decorateChars p.name p.arguments.length
  rw [← TypePart.decorated, empty] at chars
  exact named p mem (String.toList_injective (List.append_eq_nil_iff.mp chars.symm).1)

theorem stripDecoratedName (separate : ∀ c ∈ Text.marks, xid c = false) (formed : r.WellFormed xid)
    (counted : r.Counted) : Arity.strip r.decoratedName =
      (r.fullName, if r.arguments.length = 0 then none else some r.arguments.length) := by
  have named := formed.named
  have simple : ∀ p ∈ r.segments, '.' ∉ (TypePart.decorated p).toList := fun p mem =>
    decorateSimple ((formed.segment mem).1.without separate (by decide)) _
  have stripped : ∀ p ∈ r.segments, Arity.stripSegment (TypePart.decorated p).toList =
      (p.name.toList, if p.arguments.length = 0 then none else some p.arguments.length) :=
    fun p mem => Arity.stripDecorated ((formed.segment mem).1.without separate (by decide))
      (segmentCounted counted mem)
  have segments : (Dotted.pieces r.decoratedName.toList).map Arity.stripSegment =
      r.segments.map (fun p =>
        (p.name.toList, if p.arguments.length = 0 then none else some p.arguments.length)) := by
    rw [decoratedName, piecesJoined (fun _ => rfl) (decoratedNamed named) simple, List.map_map]
    exact List.map_congr_left stripped
  rw [Arity.strip, segments, fullName, ← intercalateJoined (fun _ => rfl) named]
  simp [Function.comp_def, segmentsLast, arguments]

theorem fullNameSegmented (separate : ∀ c ∈ Text.marks, xid c = false)
    (formed : r.WellFormed xid) : Segmented xid r.fullName := by
  intro s mem
  have simple : ∀ p ∈ r.segments, '.' ∉ p.name.toList := fun p listed =>
    (formed.segment listed).1.without separate (by decide)
  rw [Dotted.segments, fullName, piecesJoined (fun _ => rfl) formed.named simple,
    List.map_map] at mem
  obtain ⟨p, listed, rfl⟩ := List.mem_map.mp mem
  simpa using (formed.segment listed).1

theorem fullNameUnmarked (separate : ∀ c ∈ Text.marks, xid c = false) (formed : r.WellFormed xid) :
    Arity.mark ∉ r.fullName.toList :=
  (segmentedUnmarked separate (fullNameSegmented separate formed)).1

theorem fullNameSome (named : r.Named) : r.fullName ≠ "" := by
  intro empty
  have lone : r.segments = [r.last] :=
    loneJoined (f := TypePart.name) (fun _ => rfl) named (by rw [← fullName, empty]; simp)
  have whole : r.fullName = r.last.name := joinedLone (fun _ => rfl) named lone
  exact named r.last (by simp [parts]) (whole.symm.trans empty)

theorem askedDecorated (separate : ∀ c ∈ Text.marks, xid c = false) (formed : r.WellFormed xid)
    (counted : r.Counted) : askedArity r.decoratedName r.arguments = r.arguments.length := by
  rw [askedArity, stripDecoratedName separate formed counted]
  split
  · rename_i bare
    simp [List.isEmpty_iff.mp bare]
  · rfl

theorem askedFull (separate : ∀ c ∈ Text.marks, xid c = false) (formed : r.WellFormed xid) :
    askedArity r.fullName r.arguments = r.arguments.length :=
  askedUnmarked (fullNameUnmarked separate formed) r.arguments

end TypeRef

inductive LookupRoute where
  | reference
  | decorated
  | arity
  | request

namespace LookupRoute

def ask (id : ScopeId) (r : TypeRef) : LookupRoute → Query (Option Definition)
  | reference => Prod.fst <$> Query.lookup id r
  | decorated => Query.getType id .deep .exact r.decoratedName r.arguments
  | arity => Query.getByArity id .deep .exact r.fullName r.arguments.length
  | request => Query.resolve id { Request.ofReference r with depth := .deep }

def binds : LookupRoute → Bool
  | arity => false
  | _ => true

end LookupRoute

theorem Grown.fromScopes {u v w : Workspace} (grown : Grown v w)
    (same : u.scopes = v.scopes) : Grown u w := by
  have scopes : ∀ id, u.scope id = v.scope id := fun id => by
    rw [Workspace.scope, same, Workspace.scope]
  refine ⟨?_, grown.filed, fun id key d found => grown.kept id key d ?_⟩
  · rw [grown.lasting, Workspace.lasting, Workspace.lasting, same]
  · rwa [← scopes]

namespace Query
open LookupRoute (ask)
variable {xid : Char → Bool} {v w : Workspace} {id : ScopeId} {r : TypeRef}

def byFullName (id : ScopeId) (r : TypeRef) : Query (Option Definition) :=
  getType id .deep .exact r.fullName r.arguments

def linkFound (id : ScopeId) (r : TypeRef) :
    Option Definition → Query (Option Definition × TypeRef)
  | none => return (none, r.unlinked)
  | some found => do
      let d ← if found.isBound || found.placeholder?.isSome || !r.isGeneric then pure found
        else instantiate id found r.allArguments
      return (some d, ← linkTo r d)

theorem resolveAlone {q : Request} (some_ : q.name ≠ "") (uncalled : q.calling = none)
    (unplaced : q.unit = none) :
    (resolve id q).run w = (getType id q.depth q.rule q.name q.arguments).run w := by
  have aliases : fromAlias id q = pure none := by
    rw [fromAlias, unplaced]
    rfl
  have usings : fromUsings id q = pure none := by
    rw [fromUsings, unplaced]
    rfl
  rw [resolveOutside some_ uncalled, aliases, usings]
  cases answer : ((fromKnown id q).run w).1 with
  | some d =>
    rw [firstOfHit (by rw [answer]; rfl)]
    rfl
  | none =>
    rw [firstOfPassed (knownSilent id q) answer]
    exact ((getTypeSilent ..).kept w answer).symm

theorem instantiateSettled (filed : Filed w) (opened : id < w.scopes.length) (t : Declared)
    (bare : ∀ p ∈ r.outer, p.arguments = []) :
    let d := ((instantiate id (.ofDeclared t) r.arguments).run w).1
    (d.isBound || d.placeholder?.isSome || !r.isGeneric) = true := by
  intro d
  by_cases none_ : r.arguments = []
  · have plain : r.isGeneric = false := by
      rw [TypeRef.isGeneric, TypeRef.parts, List.any_append, List.any_eq_false.mpr]
      · simpa [TypeRef.arguments] using none_
      · intro p mem
        simp [bare p mem]
    rw [plain, Bool.not_false, Bool.or_true]
  · have bound := instantiateBound filed opened t none_
    rw [bound.grown.filed.special bound.filed, Bool.true_or]

section Formed
variable (separate : ∀ c ∈ Text.marks, xid c = false) (formed : r.WellFormed xid)
include separate formed

theorem byFullNameFinds (id : ScopeId) (w : Workspace) : ((byFullName id r).run w).1.isSome =
    (w.findType id .deep .exact r.fullName r.arguments.length).isSome := by
  rw [byFullName, getTypeAnswers, TypeRef.askedFull separate formed,
    Arity.stripUnmarked (TypeRef.fullNameUnmarked separate formed)]

variable (counted : r.Counted)
include counted

theorem decoratedFullName :
    getType id .deep .exact r.decoratedName r.arguments = byFullName id r := by
  rw [byFullName, getTypeStripped, getTypeStripped, TypeRef.askedDecorated separate formed counted,
    TypeRef.askedFull separate formed, TypeRef.stripDecoratedName separate formed counted,
    Arity.stripUnmarked (TypeRef.fullNameUnmarked separate formed)]

variable (rankless : r.marks.ranks = []) (unlinked : r.link = none)
include rankless unlinked

theorem lookupFullName (w : Workspace) :
    (lookup id r).run w = (byFullName id r >>= linkFound id r).run w := by
  have unbelieved : (w.linked r).filter (w.isCurrent id) = none := by
    rw [Workspace.linked, unlinked]
    rfl
  rw [Query.lookup, TypeRef.elementNone.mpr rankless]
  dsimp only
  rw [lookupCore, StateT.run_bind, StateT.run_get, pure_bind, unbelieved]
  exact congrArg (fun find : Query (Option Definition) => (find >>= linkFound id r).run w)
    (decoratedFullName separate formed counted)

theorem referenceAnswers (w : Workspace) :
    ((ask id r .reference).run w).1.isSome = ((byFullName id r).run w).1.isSome := by
  have run : ((ask id r .reference).run w).1 = ((lookup id r).run w).1.1 := rfl
  rw [run, lookupFullName separate formed counted rankless unlinked]
  cases found : (byFullName id r).run w with
  | mk answer after =>
    rw [runThrough found]
    cases answer with
    | none => rfl
    | some d =>
      dsimp only [linkFound]
      split <;> rfl

theorem referenceSame (filed : Filed w) (bare : ∀ p ∈ r.outer, p.arguments = []) :
    ((ask id r .reference).run w).1 = ((byFullName id r).run w).1 ∧
      ((ask id r .reference).run w).2.scopes = ((byFullName id r).run w).2.scopes := by
  have run : (ask id r .reference).run w =
      (((lookup id r).run w).1.1, ((lookup id r).run w).2) := rfl
  rw [run, lookupFullName separate formed counted rankless unlinked]
  cases found : (byFullName id r).run w with
  | mk answer after =>
    rw [runThrough found]
    cases answer with
    | none => exact ⟨rfl, rfl⟩
    | some d =>
      have settled : (d.isBound || d.placeholder?.isSome || !r.isGeneric) = true := by
        cases selected : w.findType id .deep .exact (Arity.strip r.fullName).1
            (askedArity r.fullName r.arguments) with
        | none =>
          rw [byFullName, getTypeMissed selected] at found
          cases found
        | some t =>
          have final := instantiateSettled filed (openedOfFound selected) t bare
          rw [byFullName, getTypeRun selected] at found
          cases found
          exact final
      rw [linkFound, if_pos settled]
      exact ⟨rfl, rfl⟩

end Formed

theorem byFullNameAgain (filed : Filed w) (grown : Grown ((byFullName id r).run w).2 v) :
    ((byFullName id r).run v).1 = ((byFullName id r).run w).1 := by
  have before := ((grownFrame w).getType id .deep .exact r.fullName r.arguments w (.refl filed)).1
  have lasting := (before.trans grown).lasting
  have same := Workspace.findTypeLasting lasting id .deep .exact (Arity.strip r.fullName).1
    (askedArity r.fullName r.arguments)
  cases selected : w.findType id .deep .exact (Arity.strip r.fullName).1
      (askedArity r.fullName r.arguments) with
  | none =>
    rw [selected] at same
    rw [byFullName, getTypeMissed selected, getTypeMissed same]
  | some t =>
    rw [selected] at same
    rw [byFullName, getTypeRun selected, getTypeRun same]
    by_cases bare : r.arguments = []
    · rw [bare]
      rfl
    · have bound := instantiateBound filed (openedOfFound selected) t bare
      rw [byFullName, getTypeRun selected] at grown
      have kept := grown.kept id _ _ bound.filed
      have named : (OpenType.declared t).fullName = t.fullName := rfl
      rw [Definition.ofDeclared, instantiateRun id v _ bare, named, kept]
      rfl

section Routes
variable {route : LookupRoute}

theorem routeGrown (filed : Filed w) (route : LookupRoute) (id : ScopeId) (r : TypeRef) :
    Grown w ((route.ask id r).run w).2 := by
  cases route with
  | reference => exact ((grownFrame w).lookup id r w (.refl filed)).1
  | decorated => exact ((grownFrame w).getType id _ _ _ _ w (.refl filed)).1
  | arity => exact .refl filed
  | request => exact ((grownFrame w).resolve id _ (.inl rfl) w (.refl filed)).1

theorem requestFullName (named : r.Named) :
    (ask id r .request).run w = (byFullName id r).run w :=
  resolveAlone (TypeRef.fullNameSome named) rfl rfl

section Formed
variable (separate : ∀ c ∈ Text.marks, xid c = false) (formed : r.WellFormed xid)
  (counted : r.Counted) (rankless : r.marks.ranks = []) (unlinked : r.link = none)
include separate formed counted rankless unlinked

theorem routeFinds (route : LookupRoute) (w : Workspace) :
    ((route.ask id r).run w).1.isSome =
      (w.findType id .deep .exact r.fullName r.arguments.length).isSome := by
  have whole := byFullNameFinds separate formed id w
  cases route with
  | reference => rw [referenceAnswers separate formed counted rankless unlinked, whole]
  | decorated => rw [ask, decoratedFullName separate formed counted, whole]
  | arity =>
    have found : ((ask id r .arity).run w).1 = (w.findType id .deep .exact
        (Arity.strip r.fullName).1 r.arguments.length).map .ofDeclared := rfl
    rw [found, Option.isSome_map, Arity.stripUnmarked (TypeRef.fullNameUnmarked separate formed)]
  | request => rw [requestFullName formed.named, whole]

theorem routeSame (id : ScopeId) (filed : Filed w) (bare : ∀ p ∈ r.outer, p.arguments = [])
    (binds : route.binds = true) :
    ((route.ask id r).run w).1 = ((byFullName id r).run w).1 ∧
      ((route.ask id r).run w).2.scopes = ((byFullName id r).run w).2.scopes := by
  cases route with
  | reference => exact referenceSame separate formed counted rankless unlinked filed bare
  | decorated =>
    rw [ask, decoratedFullName separate formed counted]
    exact ⟨rfl, rfl⟩
  | arity => cases binds
  | request =>
    rw [requestFullName formed.named]
    exact ⟨rfl, rfl⟩

end Formed

/-- In every state that events bring about, and with any questions in between, two ways to look up
a well-formed reference without ranks and link both find something or both find nothing. Where only
the last part has arguments, and both bind what they find, they find one object. -/
theorem lookupRoutesAgree (separate : ∀ c ∈ Text.marks, xid c = false) (events : List Event)
    (formed : r.WellFormed xid) (counted : r.Counted) (rankless : r.marks.ranks = [])
    (unlinked : r.link = none) {questions : List (ScopeId × Question)}
    (keeps : ∀ q ∈ questions, q.2.forgets = false) (id : ScopeId) (a b : LookupRoute) :
    let first := (a.ask id r).run (Session.run events).workspace
    let second := (b.ask id r).run (asked first.2 questions)
    first.1.isSome = second.1.isSome ∧
      ((∀ p ∈ r.outer, p.arguments = []) → a.binds = true → b.binds = true →
        first.1 = second.1) := by
  intro first second
  have filed := Session.filed events
  have began : Grown _ first.2 := routeGrown filed a id r
  have between : Grown first.2 (asked first.2 questions) := (Grown.refl began.filed).asked keeps
  constructor
  · have lasting := (began.trans between).lasting
    rw [routeFinds separate formed counted rankless unlinked a,
      routeFinds separate formed counted rankless unlinked b, Workspace.findTypeLasting lasting]
  · intro bare binds binds'
    obtain ⟨here, scopes⟩ :=
      routeSame separate formed counted rankless unlinked id filed bare binds
    obtain ⟨later, -⟩ :=
      routeSame separate formed counted rankless unlinked id between.filed bare binds'
    rw [here, later, byFullNameAgain filed (between.fromScopes scopes.symm)]

theorem lookupRoutesBox : ∃ d, ((ask 0 (inRack [] "Box" [TypeRef.named "X"]) .reference).run
      (racks [])).1 = some d ∧ ((ask 0 (inRack [] "Box" [TypeRef.named "X"]) .request).run
        (asked ((ask 0 (inRack [] "Box" [TypeRef.named "X"]) .reference).run (racks [])).2
          [(0, .typeNamed .deep .exact "App.Rack" [])])).1 = some d ∧ d.isBound = true := by
  have x : TypeRef.WellFormed tabled (TypeRef.named "X") :=
    bareFormed (tabledIdentifier (by decide +kernel) (by decide +kernel))
  have formed : (inRack [] "Box" [TypeRef.named "X"]).WellFormed tabled := by
    refine .intro (.inr (by decide +kernel)) ?_ ?_
    · simp only [inRack, TypeRef.parts, List.cons_append, List.nil_append, List.forall_mem_cons]
      exact ⟨tabledIdentifier (by decide) (by decide), tabledIdentifier (by decide) (by decide),
        List.forall_mem_nil _⟩
    · simp [inRack, TypeRef.parts, x]
  have counted : (inRack [] "Box" [TypeRef.named "X"]).Counted := by
    simp [inRack, TypeRef.Counted, TypeRef.parts, UInt64.size]
  have answers : ((ask 0 (inRack [] "Box" [TypeRef.named "X"]) .reference).run
      (racks [])).1.any Definition.isBound = true := by decide +kernel
  obtain ⟨d, found, bound⟩ := (Option.any_eq_true _ _).mp answers
  have keeps : ∀ q ∈ [((0 : ScopeId), Question.typeNamed .deep .exact "App.Rack" [])],
      q.2.forgets = false := by simp [Question.forgets]
  obtain ⟨-, same⟩ := lookupRoutesAgree tabledMarks (rackEvents []) formed counted rfl rfl keeps 0
    .reference .request
  have outer : ∀ p ∈ (inRack [] "Box" [TypeRef.named "X"]).outer, p.arguments = [] := by
    simp [inRack]
  exact ⟨d, found, (same outer rfl rfl).symm.trans found, bound⟩

end Routes
end Query
end TypeScope
