import TypeScope.Proofs.Identity
import TypeScope.Proofs.Interchange

/-! Lookups through references of one canonical form. They find the same type, bind it to arguments
that canonical forms do not tell apart, and so answer with the same names and members; only the
type that stands for an array shows where the namespace of its element ends. -/
namespace TypeScope

structure Definition.Matches (d e : Definition) : Prop where
  fullName : d.fullName = e.fullName
  arity : d.arity = e.arity
  members : List.Forall₂ Member.Alike d.body.members e.body.members

def Definition.CutAlike (d e : Definition) : Prop := d.ns = e.ns ∧ d.name = e.name

theorem Member.alikeRefl (m : Member) : m.Alike m := ⟨rfl, rfl, rfl⟩

theorem Definition.matchesRefl (d : Definition) : d.Matches d :=
  ⟨rfl, rfl, List.forall₂_same.mpr fun m _ => m.alikeRefl⟩

section Arguments
open TypeRef
variable {xid : Char → Bool} {a b : TypeRef}

theorem segmentsTwins (separate : ∀ c ∈ Text.marks, xid c = false) (wa : a.WellFormed xid)
    (wb : b.WellFormed xid) (ua : a.Upright) (ub : b.Upright)
    (same : a.canonical = b.canonical) :
    List.Forall₂ (TypePart.Related Twins) a.segments b.segments := by
  have twins := twinsOfSame separate wa wb ua ub same
  refine relatedOfAlike twins.segments fun p mem q mem' name given => ⟨name, ?_⟩
  exact relatedOfMap given fun x inside y inside' here =>
    twinsOfSame separate ((wa.segment mem).2 x inside) ((wb.segment mem').2 y inside')
      (ua.segment mem x inside) (ub.segment mem' y inside') here

theorem lastTwins (segments : List.Forall₂ (TypePart.Related Twins) a.segments b.segments) :
    List.Forall₂ Twins a.arguments b.arguments := by
  have last : ∀ r : TypeRef, ∃ before, r.segments.reverse = r.last :: before := fun r => by
    rw [TypeRef.segments, parts]
    exact ⟨_, by rw [← List.append_assoc, List.reverse_append]; rfl⟩
  obtain ⟨before, whole⟩ := last a
  obtain ⟨before', whole'⟩ := last b
  have reversed := List.forall₂_reverse_iff.mpr segments
  rw [whole, whole'] at reversed
  obtain ⟨⟨-, arguments⟩, -⟩ := List.forall₂_cons.mp reversed
  exact arguments

theorem allTwins (segments : List.Forall₂ (TypePart.Related Twins) a.segments b.segments) :
    List.Forall₂ Twins a.allArguments b.allArguments := by
  have all : ∀ r : TypeRef, r.allArguments = r.segments.flatMap TypePart.arguments := fun r => by
    rw [allArguments, TypeRef.segments, List.flatMap_append]
    split
    · rfl
    · simp [List.flatMap_map]
  rw [all, all]
  generalize a.segments = ps at segments ⊢
  generalize b.segments = qs at segments ⊢
  induction segments with
  | nil => exact .nil
  | cons first _ ih =>
    rw [List.flatMap_cons, List.flatMap_cons]
    exact List.rel_append first.2 ih

end Arguments

section Lookups
open Query
variable {id : ScopeId} {w : Workspace} {xs ys : List TypeRef}

def Paired (left right : Definition × Workspace) : Prop :=
  left = right ∨ ∃ i j v v', left = (.bound i, v) ∧ right = (.bound j, v') ∧
    Definition.Matches (.bound i) (.bound j) ∧ Definition.CutAlike (.bound i) (.bound j)

theorem instantiateTwins (twins : List.Forall₂ TypeRef.Twins xs ys) (d : Definition) :
    Paired ((instantiate id d xs).run w) ((instantiate id d ys).run w) := by
  cases d with
  | bound i => exact .inl rfl
  | unbound o =>
    cases twins with
    | nil => exact .inl rfl
    | @cons x y xs ys first others =>
      have twins : List.Forall₂ TypeRef.Twins (x :: xs) (y :: ys) := .cons first others
      have listed : (x :: xs).map TypeRef.canonical = (y :: ys).map TypeRef.canonical :=
        mapOfRelated twins fun _ _ both => both.canonical
      have key : Instantiation.keyFor o.fullName (x :: xs) =
          Instantiation.keyFor o.fullName (y :: ys) := by
        rw [Instantiation.keyFor, Instantiation.keyFor, TypeRef.listed, TypeRef.listed, listed]
      rw [instantiateRun id w o (List.cons_ne_nil x xs),
        instantiateRun id w o (List.cons_ne_nil y ys), key]
      cases (w.scope id).cache.get? (Instantiation.keyFor o.fullName (y :: ys)) with
      | some known => exact .inl rfl
      | none =>
        have bindings : (Instantiation.bindings o (x :: xs)).Twins
            (Instantiation.bindings o (y :: ys)) := bindingsTwins _ twins
        refine .inr ⟨_, _, _, _, rfl, rfl, ⟨rfl, rfl, ?_⟩, rfl, rfl⟩
        exact List.forall₂_map_left_iff.mpr (List.forall₂_map_right_iff.mpr
          (List.forall₂_same.mpr fun m _ => memberTwins bindings m))

theorem getTypeTwins (id : ScopeId) (w : Workspace) (twins : List.Forall₂ TypeRef.Twins xs ys)
    (depth : Depth) (rule : CaseRule) (name : String) :
    (((getType id depth rule name xs).run w).1 = none ∧
      ((getType id depth rule name ys).run w).1 = none) ∨
    ∃ left right, (getType id depth rule name xs).run w = (some left.1, left.2) ∧
      (getType id depth rule name ys).run w = (some right.1, right.2) ∧ Paired left right := by
  have arity : askedArity name xs = askedArity name ys := by
    rw [askedArity, askedArity, twins.length_eq, relatedEmpty twins]
  cases selected : w.findType id depth rule (Arity.strip name).1 (askedArity name xs) with
  | none =>
    left
    rw [getTypeStripped, getTypeStripped]
    simp only [StateT.run_bind, StateT.run_get, pure_bind, ← arity, selected]
    exact ⟨rfl, rfl⟩
  | some t =>
    exact .inr ⟨_, _, getTypeRun selected, getTypeRun (arity ▸ selected),
      instantiateTwins twins (.ofDeclared t)⟩

theorem lookupCoreAnswer {r : TypeRef} (unlinked : r.link = none) :
    ((lookupCore id r).run w).1.1 =
      let typed := (getType id .deep .exact r.decoratedName r.arguments).run w
      typed.1.map (fun found =>
        if found.isBound || found.placeholder?.isSome || !r.isGeneric then found
        else ((instantiate id found r.allArguments).run typed.2).1) := by
  have unbelieved : (w.linked r).filter (w.isCurrent id) = none := by
    rw [Workspace.linked, unlinked]
    rfl
  rw [lookupCore, StateT.run_bind, StateT.run_get, pure_bind, unbelieved]
  dsimp only
  cases typed : (getType id .deep .exact r.decoratedName r.arguments).run w with
  | mk answer v =>
    rw [runThrough typed]
    cases answer with
    | none => rfl
    | some found =>
      dsimp only [Option.map_some]
      split <;> rfl

end Lookups

section Interchange
open Query TypeRef
variable {xid : Char → Bool} {a b : TypeRef} {id : ScopeId} {w : Workspace}

def AnsweredAlike (left right : Option Definition) : Prop :=
  Option.Rel (fun d e => d.Matches e ∧ d.CutAlike e) left right

theorem Paired.answered {left right : Definition × Workspace} (paired : Paired left right) :
    left.1.Matches right.1 ∧ left.1.CutAlike right.1 := by
  rcases paired with rfl | ⟨i, j, v, v', rfl, rfl, matches_, cut⟩
  · exact ⟨left.1.matchesRefl, rfl, rfl⟩
  · exact ⟨matches_, cut⟩

theorem lookupCoreTwins (id : ScopeId) (w : Workspace) (twins : Twins a b)
    (segments : List.Forall₂ (TypePart.Related Twins) a.segments b.segments)
    (unlinked : a.link = none) (unlinked' : b.link = none) :
    AnsweredAlike ((lookupCore id a).run w).1.1 ((lookupCore id b).run w).1.1 := by
  have all := allTwins segments
  have generic : a.isGeneric = b.isGeneric := by
    rw [a.genericAll, b.genericAll, relatedEmpty all]
  rw [lookupCoreAnswer unlinked, lookupCoreAnswer unlinked', twins.decoratedName, generic]
  rcases getTypeTwins id w (lastTwins segments) .deep .exact b.decoratedName with
    ⟨left, right⟩ | ⟨left, right, typed, typed', paired⟩
  · dsimp only
    rw [left, right]
    exact .none
  · rw [typed, typed']
    rcases paired with rfl | ⟨i, j, v, v', rfl, rfl, both⟩
    · refine .some ?_
      dsimp only
      split
      · exact ⟨left.1.matchesRefl, rfl, rfl⟩
      · exact (instantiateTwins all left.1).answered
    · exact .some both

theorem arrayFullName (x : ArrayType) : x.body.fullName = x.fullName := by
  have joined : x.body.fullName =
      Dotted.join x.element.ns (Dotted.relative x.element.ns x.fullName) := rfl
  by_cases outermost : x.element.ns = ""
  · rw [joined, Dotted.join, if_pos outermost, Dotted.relative, if_pos outermost]
  · obtain ⟨rest, below⟩ : ∃ rest, x.fullName.toList = (x.element.ns ++ ".").toList ++ rest := by
      obtain ⟨first, later, whole⟩ : ∃ first later, x.element.parts = first :: later := by
        rw [parts]
        cases x.element.outer with
        | nil => exact ⟨_, _, rfl⟩
        | cons p ps => exact ⟨p, ps ++ [x.element.last], rfl⟩
      refine ⟨(spellPart .source first).toList ++
        following '.' ((later.map (spellPart .source)).map String.toList) ++
        x.element.marks.text.toList ++ "[]".toList, ?_⟩
      rw [ArrayType.fullName, shown, spellJoined, whole, String.toList_append,
        String.toList_append, Dotted.joinAllFollowing outermost, List.map_cons, List.map_cons,
        followingCons]
      simp [List.append_assoc]
    have found : Dotted.after? (x.element.ns ++ ".") x.fullName = some (String.ofList rest) := by
      rw [Dotted.after?, if_pos (List.isPrefixOf_iff_prefix.mpr ⟨rest, below.symm⟩), below,
        ← String.length_toList, List.drop_left]
    rw [joined, Dotted.join, if_neg outermost, Dotted.relative, if_neg outermost, found]
    refine String.toList_inj.mp ?_
    rw [Option.getD_some, below]
    simp

theorem arrayMatches {x y : ArrayType} (shown : x.element.shown = y.element.shown)
    (same : x.element.canonical = y.element.canonical) :
    Definition.Matches (.unbound (.array x)) (.unbound (.array y)) := by
  have full : x.fullName = y.fullName := by rw [ArrayType.fullName, ArrayType.fullName, shown]
  refine ⟨?_, rfl, .cons ⟨?_, congrArg some same, rfl⟩ .nil⟩
  · exact (arrayFullName x).trans (full.trans (arrayFullName y).symm)
  · simp [ArrayType.indexer, Member.indexer, Member.property, Member.plain, full]

theorem arrayAnswer (id : ScopeId) (w : Workspace) {r element : TypeRef}
    (ranked : r.element? = some element) :
    ∃ stamp file, ((lookup id r).run w).1.1 = some (.unbound (.array ⟨stamp, element, file⟩)) := by
  rw [lookup, ranked]
  exact ⟨_, _, rfl⟩

theorem elementOf {x : TypeRef} (wf : a.WellFormed xid) (upright : a.Upright)
    (ranked : a.element? = some x) :
    x.WellFormed xid ∧ x.Upright ∧ x.ns = a.ns ∧ a.marks.ranks ≠ [] := by
  obtain ⟨ns, names, arguments⟩ := wf
  obtain ⟨-, inner⟩ := upright
  rw [element?] at ranked
  split at ranked
  · cases ranked
  · next filled =>
    cases ranked
    exact ⟨.intro ns names arguments, .intro (fun _ => rfl) inner, rfl, by simp [filled]⟩

/-- References without links that are made of identifiers, record pointers behind ranks only where
there are ranks, and have one canonical form are interchangeable: so are the arrays of them and
their elements, substitution leads them to one form under all bindings, and in every state of
every scope both find nothing or both find definitions of one full name, one arity and the same
members. The full names are cut alike too, unless they are those of arrays whose elements are
written with different namespaces. -/
theorem interchangeable (separate : ∀ c ∈ Text.marks, xid c = false) (wa : a.WellFormed xid)
    (wb : b.WellFormed xid) (ua : a.Upright) (ub : b.Upright) (unlinked : a.link = none)
    (unlinked' : b.link = none) (same : a.canonical = b.canonical) :
    a.arrayOf.canonical = b.arrayOf.canonical ∧
    a.element?.map canonical = b.element?.map canonical ∧
    (∀ β, (a.substitute β).canonical = (b.substitute β).canonical) ∧
    ∀ w id, Option.Rel (fun d e => d.Matches e ∧
        (a.marks.ranks = [] ∨ a.ns = b.ns → d.ns = e.ns ∧ d.name = e.name))
      ((lookup id a).run w).1.1 ((lookup id b).run w).1.1 := by
  have twins := twinsOfSame separate wa wb ua ub same
  refine ⟨arrayOfTwins twins, elementTwins twins, substituteSame separate wa wb ua ub same,
    fun w id => ?_⟩
  rcases bothOrNeither (elementTwins twins) with
    ⟨ranked, ranked'⟩ | ⟨x, y, ranked, ranked', elements⟩
  · have segments := segmentsTwins separate wa wb ua ub same
    rw [lookup, lookup, ranked, ranked']
    have answered := lookupCoreTwins id w twins segments unlinked unlinked'
    generalize ((lookupCore id a).run w).1.1 = left at answered ⊢
    generalize ((lookupCore id b).run w).1.1 = right at answered ⊢
    cases answered with
    | none => exact .none
    | some both => exact .some ⟨both.1, fun _ => both.2⟩
  · obtain ⟨stamp, file, answer⟩ := arrayAnswer id w ranked
    obtain ⟨stamp', file', answer'⟩ := arrayAnswer id w ranked'
    obtain ⟨wx, ux, ns, some_⟩ := elementOf wa ua ranked
    obtain ⟨wy, uy, ns', -⟩ := elementOf wb ub ranked'
    have shown := shownSame separate wx wy ux uy elements
    rw [answer, answer']
    refine .some ⟨arrayMatches shown elements, fun alike => ?_⟩
    have spaces : x.ns = y.ns := by
      rw [ns, ns']
      exact alike.resolve_left some_
    refine ⟨spaces, ?_⟩
    change Dotted.relative x.ns (x.shown ++ "[]") = Dotted.relative y.ns (y.shown ++ "[]")
    rw [spaces, shown]

theorem pointerUpright (before : UInt32) : (pointerTo before 0).Upright :=
  .intro (fun _ => rfl) fun p mem x inside => by
    rw [List.mem_singleton.mp mem] at inside
    cases inside

theorem mapUpright {ns : String} {outer : List TypePart} {first second : TypeRef}
    (bare : ∀ p ∈ outer, p.arguments = []) (upright : ∀ x ∈ [first, second], x.Upright) :
    (mapIn ns outer first second).Upright := by
  refine .intro (fun unranked => by cases unranked) fun p mem x inside => ?_
  rcases List.mem_append.mp mem with early | late
  · rw [bare p early] at inside
    cases inside
  · rw [List.mem_singleton.mp late] at inside
    exact upright x inside

theorem interchangeableMap :
    let a := mapIn "N.M" [] (pointerTo 1 0) (pointerTo 2 0)
    let b := mapIn "N" [⟨"M", []⟩] (pointerTo 1 0) (pointerTo 2 0)
    a.arrayOf.canonical = b.arrayOf.canonical ∧
    a.element?.map canonical = b.element?.map canonical ∧
    (∀ β, (a.substitute β).canonical = (b.substitute β).canonical) ∧
    ∀ w id, Option.Rel (fun d e => d.Matches e ∧
        (a.marks.ranks = [] ∨ a.ns = b.ns → d.ns = e.ns ∧ d.name = e.name))
      ((lookup id a).run w).1.1 ((lookup id b).run w).1.1 := by
  have n : Identifier tabled "N" := tabledIdentifier (by decide) (by decide)
  have m : Identifier tabled "M" := tabledIdentifier (by decide) (by decide)
  have whole : Dotted.segments "N.M" = ["N", "M"] := by decide
  have outermost : Dotted.segments "N" = ["N"] := by decide
  have formed : ∀ x ∈ [pointerTo 1 0, pointerTo 2 0], TypeRef.WellFormed tabled x := by
    simp only [List.forall_mem_cons]
    exact ⟨pointerFormed .., pointerFormed .., fun _ none_ => by cases none_⟩
  have upright : ∀ x ∈ [pointerTo 1 0, pointerTo 2 0], x.Upright := by
    simp only [List.forall_mem_cons]
    exact ⟨pointerUpright _, pointerUpright _, fun _ none_ => by cases none_⟩
  refine interchangeable tabledMarks
    (mapFormed (by rw [whole]; simp [n, m]) (fun p none_ => by cases none_) formed)
    (mapFormed (by rw [outermost]; simp [n]) (by simp [m]) formed)
    (mapUpright (fun p none_ => by cases none_) upright) (mapUpright (by simp) upright)
    rfl rfl ?_
  decide +kernel

theorem canonicalConfuses :
    (pointerTo 1 0).canonical = (pointerTo 0 1).canonical ∧
    (pointerTo 1 0).arrayOf.canonical ≠ (pointerTo 0 1).arrayOf.canonical ∧
    (mapIn "N.M" [] (pointerTo 1 0) (pointerTo 2 0)).canonical =
      (mapIn "N" [⟨"M", []⟩] (pointerTo 1 0) (pointerTo 2 0)).canonical ∧
    ∀ w id,
      ((lookup id (mapIn "N.M" [] (pointerTo 1 0) (pointerTo 2 0))).run w).1.1.map
        Definition.ns = some "N.M" ∧
      ((lookup id (mapIn "N" [⟨"M", []⟩] (pointerTo 1 0) (pointerTo 2 0))).run w).1.1.map
        Definition.ns = some "N" :=
  ⟨by decide +kernel, by decide +kernel, by decide +kernel, fun w id => ⟨rfl, rfl⟩⟩

end Interchange
end TypeScope
