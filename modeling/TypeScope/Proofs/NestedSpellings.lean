import TypeScope.Proofs.DottedNames

/-! Names of nested types without regard to case. Ignoring case, the search comes upon all that it
comes upon for the name as it is written. What it meets first may be spelled otherwise, though, and
it keeps to that: for one name this is another answer, for a dotted one it can be none. -/
namespace TypeScope

section Spellings
variable {name : String} {arity : Nat}

theorem Name.sameRelaxes {a b : String} (same : Name.same .exact a b = true) :
    Name.same .relaxed a b = true := by
  rw [Name.sameExact.mp same]
  exact Name.sameOfEq _ _

theorem Name.afterRelaxes {known rest : String} (follows : Name.after? .exact known name = some rest) :
    Name.after? .relaxed known name = some rest := by
  unfold Name.after? at follows ⊢
  split at follows <;> try contradiction
  split at follows <;> try contradiction
  rename_i same
  rwa [if_pos (Name.sameRelaxes same)]

section Lists
variable {α : Type} {p q : α → Bool} {l : List α} {a : α}

theorem findWider (wider : ∀ a, p a = true → q a = true) (found : (l.find? p).isSome = true) :
    (l.find? q).isSome = true := by
  obtain ⟨a, mem, has⟩ := List.find?_isSome.mp found
  exact List.find?_isSome.mpr ⟨a, mem, wider a has⟩

theorem findNarrower (wider : ∀ a, p a = true → q a = true) (found : l.find? q = some a)
    (has : p a = true) : l.find? p = some a := by
  obtain ⟨-, before, after, split, passed⟩ := List.find?_eq_some_iff_append.mp found
  refine List.find?_eq_some_iff_append.mpr ⟨has, before, after, split, fun b mem => ?_⟩
  have passes := passed b mem
  cases here : p b with
  | false => rfl
  | true => simp [wider b here] at passes

theorem missedToo {a b : Option α} (wider : a.isSome = true → b.isSome = true)
    (missed : b = none) : a = none := by
  rw [← Option.not_isSome_iff_eq_none] at missed ⊢
  exact fun found => missed (wider found)

end Lists

theorem Store.lookupRelaxes {s : Store} {d : Declared} (found : s.lookup .exact name arity = some d) :
    s.lookup .relaxed name arity = some d := by
  unfold Store.lookup at found ⊢
  split at found
  · exact found
  · cases found

theorem Workspace.findTypeRelaxes {w : Workspace} {id : ScopeId} {depth : Depth}
    (found : (w.findType id depth .exact name arity).isSome = true) :
    (w.findType id depth .relaxed name arity).isSome = true := by
  rw [Workspace.findType, List.findSome?_isSome_iff] at found ⊢
  obtain ⟨at_, mem, here⟩ := found
  obtain ⟨d, here⟩ := Option.isSome_iff_exists.mp here
  exact ⟨at_, mem, by rw [Store.lookupRelaxes here]; rfl⟩

def Definition.spelling? (name : String) (arity : Nat) (d : Definition) : Option String :=
  match d.findNested .relaxed name arity with
  | some t => some t.name
  | none => if arity = 0 then (d.parameter? .relaxed name).map (fun found => found.2.name) else none

theorem nestedRelaxes (t : Declared)
    (named : (t.arity == arity && Name.same .exact t.name name) = true) :
    (t.arity == arity && Name.same .relaxed t.name name) = true := by
  rw [Bool.and_eq_true] at named ⊢
  exact ⟨named.1, Name.sameRelaxes named.2⟩

theorem parameterRelaxes {d : Definition} (has : (d.parameter? .exact name).isSome = true) :
    (d.parameter? .relaxed name).isSome = true := by
  unfold Definition.parameter? at has ⊢
  split at has
  · rw [Option.isSome_map] at has ⊢
    exact findWider (fun _ => Name.sameRelaxes) has
  · cases has

theorem Workspace.innermostRelaxes {w : Workspace} {id : ScopeId} {d : Definition}
    (near : (w.innermost id .exact name d).isSome = true) :
    (w.innermost id .relaxed name d).isSome = true := by
  rw [Workspace.innermost, List.findSome?_isSome_iff] at near ⊢
  obtain ⟨e, mem, has⟩ := near
  exact ⟨e, mem, parameterRelaxes has⟩

theorem offersRelaxes {d : Definition} (offered : d.offers .exact name arity = true) :
    d.offers .relaxed name arity = true := by
  simp only [Definition.offers, Bool.or_eq_true, Bool.and_eq_true] at offered ⊢
  rcases offered with nested | ⟨bare, has⟩
  · exact .inl (findWider nestedRelaxes nested)
  · exact .inr ⟨bare, parameterRelaxes has⟩

theorem spellingOffers (name : String) (arity : Nat) (d : Definition) :
    (d.spelling? name arity).isSome = d.offers .relaxed name arity := by
  rw [Definition.spelling?, Definition.offers]
  cases d.findNested .relaxed name arity with
  | some t => rfl
  | none =>
    by_cases bare : arity = 0
    · simp [bare]
    · simp [bare]

end Spellings

namespace Query

section Same
variable {id : ScopeId} {name : String} {arity : Nat} {d : Definition} {w : Workspace}

theorem parameterSpelled {owner : Declared} {p : TypeParameter}
    (has : d.parameter? .relaxed name = some (owner, p)) (spelled : p.name = name) :
    parameterNamed id d .relaxed name = parameterNamed id d .exact name := by
  unfold Definition.parameter? at has
  unfold parameterNamed
  cases opened : d.openType with
  | declared t =>
    rw [opened] at has
    obtain ⟨q, first, same⟩ := Option.map_eq_some_iff.mp has
    cases same
    have again := findNarrower (fun _ => Name.sameRelaxes) first (Name.sameExact.mpr spelled)
    dsimp only
    rw [first, again]
  | _ => rfl

theorem innerOfSpelled (spelled : d.spelling? name arity = some name) :
    innerOf id .relaxed name arity d = innerOf id .exact name arity d := by
  unfold Definition.spelling? at spelled
  unfold innerOf
  cases nested : d.findNested .relaxed name arity with
  | some t =>
    rw [nested] at spelled
    have named := List.find?_some nested
    have again : d.findNested .exact name arity = some t :=
      findNarrower nestedRelaxes nested (Bool.and_eq_true_iff.mpr
        ⟨(Bool.and_eq_true_iff.mp named).1, Name.sameExact.mpr (Option.some.inj spelled)⟩)
    rw [again]
  | none =>
    have missing : d.findNested .exact name arity = none :=
      missedToo (findWider nestedRelaxes) nested
    rw [nested] at spelled
    rw [missing]
    dsimp only at spelled ⊢
    split at spelled
    · rename_i bare
      obtain ⟨found, has, same⟩ := Option.map_eq_some_iff.mp spelled
      rw [if_pos bare, if_pos bare, parameterSpelled has same]
    · cases spelled

theorem innerOfMissed (missed : d.spelling? name arity = none) (rule : CaseRule) (w : Workspace) :
    (innerOf id rule name arity d).run w = (none, w) := by
  have unoffered : d.offers .relaxed name arity = false := by
    rw [← spellingOffers, missed]
    rfl
  refine (innerOfSelects id rule name arity).passes d w ?_
  cases rule with
  | relaxed => exact unoffered
  | exact => exact Bool.eq_false_iff.mpr fun offered =>
      Bool.eq_false_iff.mp unoffered (offersRelaxes offered)

theorem innerOfFound {spelling : String} (id : ScopeId)
    (spelled : d.spelling? name arity = some spelling) (w : Workspace) :
    ∃ t after, (innerOf id .relaxed name arity d).run w = (some t, after) := by
  have offered : d.offers .relaxed name arity = true := by
    rw [← spellingOffers, spelled]
    rfl
  obtain ⟨t, answer⟩ := (innerOfSelects id .relaxed name arity).answers d w offered
  exact answered (Option.isSome_of_eq_some answer)

theorem searchOnSpelled (steps : Nat) (walk : Walk) (w : Workspace) :
    let search := fun rule => (searchOn id (innerOf id rule name arity) steps walk).run w
    search .relaxed = search .exact ∨
      (search .relaxed).1.isSome = true ∧ ∃ spelling,
        ((walkOn id steps walk).run w).1.findSome? (Definition.spelling? name arity) =
          some spelling ∧ spelling ≠ name := by
  induction steps generalizing walk w with
  | zero => exact .inl rfl
  | succ steps ih =>
    cases on : unmet walk with
    | nil =>
      have ended := advanceOver id w on
      refine .inl ?_
      dsimp only
      rw [searchOn, searchOn, runThrough ended, runThrough ended]
    | cons d rest =>
      have meets := advanceMeets id w on
      dsimp only
      rw [walkOnMeets steps meets, searchOn, searchOn, runThrough meets, runThrough meets]
      dsimp only
      cases spelled : d.spelling? name arity with
      | none =>
        rw [runThrough (innerOfMissed spelled .relaxed _),
          runThrough (innerOfMissed spelled .exact _),
          List.findSome?_cons_of_isNone (by rw [spelled]; rfl)]
        exact ih _ _
      | some spelling =>
        obtain ⟨t, after, asked⟩ := innerOfFound id spelled (basesAt id w d).2
        by_cases written : spelling = name
        · refine .inl ?_
          rw [written] at spelled
          rw [innerOfSpelled spelled] at asked ⊢
          rw [runThrough asked, runThrough asked]
        · refine .inr ⟨?_, spelling, ?_, written⟩
          · rw [runThrough asked]
            rfl
          · rw [List.findSome?_cons, spelled]

theorem searchAncestrySpelled (id : ScopeId) (name : String) (arity : Nat) (d : Definition)
    (w : Workspace) :
    let search := fun rule => (searchAncestry id (innerOf id rule name arity) d).run w
    search .relaxed = search .exact ∨
      (search .relaxed).1.isSome = true ∧ ∃ spelling,
        ((ancestry id d).run w).1.findSome? (Definition.spelling? name arity) = some spelling ∧
          spelling ≠ name :=
  searchOnSpelled _ _ _

theorem searchAncestryMissed {after : Workspace}
    (missed : (searchAncestry id (innerOf id .relaxed name arity) d).run w = (none, after)) :
    ((ancestry id d).run w).1.findSome? (Definition.spelling? name arity) = none ∧
      ((ancestry id d).run w).2 = after := by
  rcases searchAncestryFirst (innerOfSelects id .relaxed name arity) d w with
    ⟨nothing, whole⟩ | ⟨m, first, found⟩
  · cases missed.symm.trans whole
    refine ⟨List.findSome?_eq_none_iff.mpr fun m mem => ?_, rfl⟩
    rw [← Option.not_isSome_iff_eq_none, spellingOffers]
    exact List.find?_eq_none.mp nothing m mem
  · obtain ⟨a, answer⟩ := (innerOfSelects id .relaxed name arity).answers m
      ((ancestryTo _ id d).run w).2 (List.find?_some first)
    rw [← found, missed] at answer
    cases answer

end Same

section Strays

inductive Strays (id : ScopeId) (name : String) (arity : Nat) :
    List Definition → Workspace → Prop where
  | here {d around w spelling}
      (met : ((ancestry id d).run w).1.findSome? (Definition.spelling? name arity) = some spelling)
      (other : spelling ≠ name) : Strays id name arity (d :: around) w
  | outwards {d around w}
      (nothing : ((ancestry id d).run w).1.findSome? (Definition.spelling? name arity) = none)
      (later : Strays id name arity around ((ancestry id d).run w).2) :
      Strays id name arity (d :: around) w

/-- On the way along the segments, one of them that is not the last leads to something that is
spelled otherwise; the way is the one that the search without regard to case goes. -/
inductive Diverted (id : ScopeId) : List String → Definition → Workspace → Prop where
  | here {segment next rest d w}
      (strays : Strays id (Arity.strip segment).1 ((Arity.strip segment).2.getD 0)
        (w.outward id d) w) : Diverted id (segment :: next :: rest) d w
  | onward {segment next rest d w inner between}
      (found : (findInner id .relaxed (Arity.strip segment).1 ((Arity.strip segment).2.getD 0)
        d).run w = (some inner, between))
      (later : Diverted id (next :: rest) inner between) :
      Diverted id (segment :: next :: rest) d w

variable {id : ScopeId} {name : String} {arity : Nat} {d : Definition} {w : Workspace}

theorem findFirstSpelled (around : List Definition) (w : Workspace) :
    let search := fun rule =>
      (findFirst (searchAncestry id (innerOf id rule name arity)) around).run w
    search .relaxed = search .exact ∨
      (search .relaxed).1.isSome = true ∧ Strays id name arity around w := by
  induction around generalizing w with
  | nil => exact .inl rfl
  | cons d rest ih =>
    dsimp only
    rw [findFirst, findFirst]
    rcases searchAncestrySpelled id name arity d w with
      same | ⟨found, spelling, met, other⟩
    · cases run : (searchAncestry id (innerOf id .relaxed name arity) d).run w with
      | mk answer after =>
        rw [runThrough run, runThrough (same.symm.trans run)]
        cases answer with
        | some t => exact .inl rfl
        | none =>
          obtain ⟨nothing, rfl⟩ := searchAncestryMissed run
          rcases ih ((ancestry id d).run w).2 with same | ⟨found, strays⟩
          · exact .inl same
          · exact .inr ⟨found, .outwards nothing strays⟩
    · refine .inr ⟨?_, .here met other⟩
      obtain ⟨t, after, run⟩ := answered found
      rw [runThrough run]
      rfl

theorem findInnerSpelled (id : ScopeId) (name : String) (arity : Nat) (d : Definition)
    (w : Workspace) :
    let find := fun rule => (findInner id rule name arity d).run w
    find .relaxed = find .exact ∨
      (find .relaxed).1.isSome = true ∧ Strays id name arity (w.outward id d) w :=
  findFirstSpelled _ _

theorem findInnerRelaxes (found : ((findInner id .exact name arity d).run w).1.isSome = true) :
    ((findInner id .relaxed name arity d).run w).1.isSome = true := by
  rcases findInnerSpelled id name arity d w with same | ⟨found, -⟩
  · exact (congrArg (fun run => run.1.isSome) same).trans found
  · exact found

theorem followInnerDiverted {segments : List String}
    (found : ((followInner id .exact arity segments d).run w).1.isSome = true)
    (lost : ((followInner id .relaxed arity segments d).run w).1 = none) :
    Diverted id segments d w := by
  induction segments generalizing d w with
  | nil => cases lost
  | cons segment rest ih =>
    cases rest with
    | nil =>
      have here : ((followInner id .relaxed arity [segment] d).run w).1.isSome = true :=
        findInnerRelaxes found
      rw [lost] at here
      cases here
    | cons next rest =>
      rcases findInnerSpelled id (Arity.strip segment).1
          ((Arity.strip segment).2.getD 0) d w with same | ⟨-, strays⟩
      · simp only [followInner] at found lost
        dsimp only at same
        cases run : (findInner id .relaxed (Arity.strip segment).1
            ((Arity.strip segment).2.getD 0) d).run w with
        | mk inner between =>
          rw [runThrough (same.symm.trans run)] at found
          rw [runThrough run] at lost
          cases inner with
          | none => cases found
          | some inner => exact .onward run (ih found lost)
      · exact .here strays

end Strays

end Query
end TypeScope
