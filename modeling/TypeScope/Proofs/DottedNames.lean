import TypeScope.Proofs.Parameters

/-! Dotted names among nested types. A segment is looked for in what the type found so far inherits
from; only if nothing there has the name, in what the types around it inherit from, one after the
other. Where nothing has it that way, it is not found. -/
namespace TypeScope

def Definition.offers (rule : CaseRule) (name : String) (arity : Nat) (d : Definition) : Bool :=
  (d.findNested rule name arity).isSome || (arity == 0 && (d.parameter? rule name).isSome)

namespace Query

section Searches
variable {α : Type} {id : ScopeId} {f : Definition → Query (Option α)} {offers : Definition → Bool}

structure Selects (f : Definition → Query (Option α)) (offers : Definition → Bool) : Prop where
  answers : ∀ d w, offers d = true → ∃ a, ((f d).run w).1 = some a
  passes : ∀ d w, offers d = false → (f d).run w = (none, w)

theorem searchOnFirst (selects : Selects f offers) (steps : Nat) (walk : Walk) (w : Workspace) :
    let whole := (walkOn id steps walk).run w
    let met := whole.1.findIdx offers + 1
    whole.1.find? offers = none ∧ (searchOn id f steps walk).run w = (none, whole.2) ∨
      ∃ m, whole.1.find? offers = some m ∧ met ≤ steps ∧
        (searchOn id f steps walk).run w = (f m).run ((walkOn id met walk).run w).2 := by
  induction steps generalizing walk w with
  | zero => exact .inl ⟨rfl, rfl⟩
  | succ steps ih =>
    cases on : unmet walk with
    | nil =>
      have ended := advanceOver id w on
      rw [walkOnOver steps ended, searchOn, runThrough ended]
      exact .inl ⟨rfl, rfl⟩
    | cons d rest =>
      have meets := advanceMeets id w on
      rw [walkOnMeets steps meets, searchOn, runThrough meets]
      dsimp only
      cases offered : offers d with
      | false =>
        have passed : ¬ offers d = true := by rw [offered]; exact Bool.false_ne_true
        rw [List.find?_cons_of_neg passed, List.findIdx_cons, offered, cond_false,
          runThrough (selects.passes d _ offered), walkOnMeets _ meets]
        rcases ih ⟨inherits id w d ++ rest, d.decoratedName :: walk.visited⟩ (basesAt id w d).2 with
          none_ | ⟨m, first, within, run⟩
        · exact .inl none_
        · exact .inr ⟨m, first, Nat.succ_le_succ within, run⟩
      | true =>
        obtain ⟨a, answer⟩ := selects.answers d (basesAt id w d).2 offered
        refine .inr ⟨d, List.find?_cons_of_pos offered, ?_, ?_⟩
        · rw [List.findIdx_cons, offered]
          exact Nat.succ_le_succ (Nat.zero_le _)
        · have asked : (f d).run (basesAt id w d).2 =
              (some a, ((f d).run (basesAt id w d).2).2) := Prod.ext answer rfl
          rw [List.findIdx_cons, offered, cond_true, walkOnMeets 0 meets, runThrough asked]
          exact asked.symm

theorem searchAncestryFirst (selects : Selects f offers) (d : Definition) (w : Workspace) :
    let tree := (ancestry id d).run w
    tree.1.find? offers = none ∧ (searchAncestry id f d).run w = (none, tree.2) ∨
      ∃ m, tree.1.find? offers = some m ∧ (searchAncestry id f d).run w =
        (f m).run ((ancestryTo (tree.1.findIdx offers + 1) id d).run w).2 := by
  have fetch : (refetch id d).run w = (((refetch id d).run w).1, ((refetch id d).run w).2) := rfl
  have steps := @searchOnFirst _ id _ _ selects
    (((refetch id d).run w).2.walkBound ((refetch id d).run w).1)
    (startAt ((refetch id d).run w).1) ((refetch id d).run w).2
  rcases steps with none_ | ⟨m, first, within, run⟩
  · exact .inl none_
  · refine .inr ⟨m, first, run.trans ?_⟩
    rw [ancestryTo, runThrough fetch]
    exact congrArg (fun count => ((f m).run ((walkOn id count _).run _).2))
      (Nat.min_eq_left within).symm

end Searches

section Segments
variable {id : ScopeId} {rule : CaseRule} {name : String} {arity : Nat} {d m t : Definition}
  {w u after : Workspace}

inductive Offered (id : ScopeId) (rule : CaseRule) (name : String) (arity : Nat) (m : Definition) :
    Workspace → Definition → Workspace → Prop where
  | nested {n u} (found : m.findNested rule name arity = some n) :
      Offered id rule name arity m u (.ofDeclared n) u
  | parameter {owner p t u after} (bare : arity = 0) (missing : m.findNested rule name 0 = none)
      (has : m.parameter? rule name = some (owner, p))
      (made : (placeholder id owner p).run u = (t, after)) : Offered id rule name arity m u t after

theorem innerOfSelects (id : ScopeId) (rule : CaseRule) (name : String) (arity : Nat) :
    Selects (innerOf id rule name arity) (Definition.offers rule name arity) where
  answers d w offered := by
    unfold innerOf
    cases nested : d.findNested rule name arity with
    | some n => exact ⟨_, rfl⟩
    | none =>
      simp only [Definition.offers, nested, Option.isSome_none, Bool.false_or,
        Bool.and_eq_true, beq_iff_eq] at offered
      obtain ⟨bare, has⟩ := offered
      obtain ⟨found, has⟩ := Option.isSome_iff_exists.mp has
      rw [if_pos bare, parameterRun, has, Option.elim_some]
      exact ⟨_, rfl⟩
  passes d w nothing := by
    simp only [Definition.offers, Bool.or_eq_false_iff, Option.isSome_eq_false_iff,
      Option.isNone_iff_eq_none] at nothing
    obtain ⟨nested, bare⟩ := nothing
    unfold innerOf
    rw [nested]
    dsimp only
    split
    · rename_i zero
      have missing : d.parameter? rule name = none := by simpa [zero] using bare
      rw [parameterRun, missing, Option.elim_none]
    · rfl

theorem innerOfOffered : (innerOf id rule name arity m).run u = (some t, after) ↔
    Offered id rule name arity m u t after := by
  constructor
  · intro answer
    unfold innerOf at answer
    cases nested : m.findNested rule name arity with
    | some n =>
      rw [nested] at answer
      cases answer
      exact .nested nested
    | none =>
      rw [nested] at answer
      dsimp only at answer
      by_cases bare : arity = 0
      · subst bare
        rw [if_pos rfl, parameterRun] at answer
        cases has : m.parameter? rule name with
        | none =>
          rw [has] at answer
          cases answer
        | some found =>
          rw [has, Option.elim_some] at answer
          obtain ⟨first, second⟩ := Prod.mk.inj answer
          exact .parameter rfl nested has (Prod.ext (Option.some.inj first) second)
      · rw [if_neg bare] at answer
        cases answer
  · rintro (found | ⟨rfl, missing, has, made⟩) <;> unfold innerOf
    · rw [found]
      rfl
    · rw [missing]
      dsimp only
      rw [if_pos rfl, parameterRun, has, Option.elim_some, placeholderFor, made]

/-- Of some types, one after the other, `t` is what the first has that inherits from something with
the name. The trees are walked one after the other, from `w` on, and the last one no further than to
what has it. -/
inductive Supplies (id : ScopeId) (rule : CaseRule) (name : String) (arity : Nat) :
    List Definition → Workspace → Definition → Workspace → Prop where
  | here {d around w m u t after}
      (first : ((ancestry id d).run w).1.find? (Definition.offers rule name arity) = some m)
      (reached : ((ancestryTo (((ancestry id d).run w).1.findIdx
        (Definition.offers rule name arity) + 1) id d).run w).2 = u)
      (offered : Offered id rule name arity m u t after) :
      Supplies id rule name arity (d :: around) w t after
  | outwards {d around w t after}
      (nothing : ((ancestry id d).run w).1.find? (Definition.offers rule name arity) = none)
      (later : Supplies id rule name arity around ((ancestry id d).run w).2 t after) :
      Supplies id rule name arity (d :: around) w t after

theorem findFirstSupplies {around : List Definition} :
    (findFirst (searchAncestry id (innerOf id rule name arity)) around).run w = (some t, after) ↔
      Supplies id rule name arity around w t after := by
  induction around generalizing w with
  | nil =>
    constructor
    · intro answer
      cases answer
    · intro supplied
      cases supplied
  | cons d rest ih =>
    rw [findFirst]
    rcases searchAncestryFirst (innerOfSelects id rule name arity) d w with
      ⟨nothing, run⟩ | ⟨m, first, run⟩
    · rw [runThrough run]
      refine ih.trans ⟨.outwards nothing, ?_⟩
      rintro (⟨found, -, -⟩ | ⟨-, later⟩)
      · cases nothing.symm.trans found
      · exact later
    · obtain ⟨_, answer⟩ := (innerOfSelects id rule name arity).answers m
        ((ancestryTo _ id d).run w).2 (List.find?_some first)
      obtain ⟨a, last, asked⟩ := answered (Option.isSome_of_eq_some answer)
      rw [asked] at run
      rw [runThrough run]
      constructor
      · intro answer
        cases answer
        exact .here first rfl (innerOfOffered.mp asked)
      · rintro (⟨found, rfl, offered⟩ | ⟨nothing, -⟩)
        · cases first.symm.trans found
          exact asked.symm.trans (innerOfOffered.mpr offered)
        · cases first.symm.trans nothing

inductive Follows (id : ScopeId) (rule : CaseRule) (arity : Nat) :
    List String → Definition → Workspace → Definition → Workspace → Prop where
  | last {segment d w t after}
      (found : Supplies id rule (Arity.strip segment).1 arity (w.outward id d) w t after) :
      Follows id rule arity [segment] d w t after
  | onward {segment next rest d w inner between t after}
      (found : Supplies id rule (Arity.strip segment).1 ((Arity.strip segment).2.getD 0)
        (w.outward id d) w inner between)
      (later : Follows id rule arity (next :: rest) inner between t after) :
      Follows id rule arity (segment :: next :: rest) d w t after

theorem findInnerSupplies : (findInner id rule name arity d).run w = (some t, after) ↔
    Supplies id rule name arity (w.outward id d) w t after :=
  findFirstSupplies

/-- A dotted name leads where its segments lead, one from what the other has come to. -/
theorem dottedNameFollowed {segments : List String} (written : segments ≠ []) :
    (followInner id rule arity segments d).run w = (some t, after) ↔
      Follows id rule arity segments d w t after := by
  induction segments generalizing d w with
  | nil => exact absurd rfl written
  | cons segment rest ih =>
    cases rest with
    | nil =>
      refine findInnerSupplies.trans ⟨.last, ?_⟩
      rintro ⟨found⟩
      exact found
    | cons next rest =>
      have later := fun {d w} => ih (d := d) (w := w) (List.cons_ne_nil _ _)
      simp only [followInner]
      constructor
      · intro answer
        cases found : (findInner id rule (Arity.strip segment).1
            ((Arity.strip segment).2.getD 0) d).run w with
        | mk inner between =>
          rw [runThrough found] at answer
          cases inner with
          | none => cases answer
          | some inner => exact .onward (findInnerSupplies.mp found) (later.mp answer)
      · rintro (_ | ⟨found, along⟩)
        rw [runThrough (findInnerSupplies.mpr found)]
        exact later.mpr along

end Segments

def siblingEvents : List Event :=
  [.opens "app",
    .writes ⟨⟨0⟩, "Outer.cs", [],
      [{ Blueprint.bare "App.Outer" .classType with
          nested := [Blueprint.bare "A" .classType, Blueprint.bare "B" .classType] }]⟩,
    .ingests 0 0]

def siblings : Workspace := (Session.run siblingEvents).workspace

theorem dottedNameFollowedSibling : ∃ c t after,
    siblings.findType 0 .shallow .exact "App.Outer" 0 = some c ∧ t.fullName = "App.Outer.B" ∧
      Follows 0 .exact 0 ["A", "B"] (.ofDeclared c) siblings t after := by
  have found : (siblings.findType 0 .shallow .exact "App.Outer" 0).any (fun c =>
      ((followInner 0 .exact 0 ["A", "B"] (.ofDeclared c)).run siblings).1.any
        (·.fullName == "App.Outer.B")) := by decide +kernel
  obtain ⟨c, stored, found⟩ := (Option.any_eq_true _ _).mp found
  cases run : (followInner 0 .exact 0 ["A", "B"] (.ofDeclared c)).run siblings with
  | mk answer after =>
    rw [run] at found
    obtain ⟨t, rfl, named⟩ := (Option.any_eq_true _ _).mp found
    exact ⟨c, t, after, stored, eq_of_beq named, (dottedNameFollowed (List.cons_ne_nil _ _)).mp run⟩

theorem siblingFollowed : ∃ c a b, siblings.findType 0 .shallow .exact "App.Outer" 0 = some c ∧
    ((followInner 0 .exact 0 ["A"] (.ofDeclared c)).run siblings).1 = some a ∧
    ((followInner 0 .exact 0 ["A", "B"] (.ofDeclared c)).run siblings).1 = some b ∧
    b.fullName = "App.Outer.B" ∧ ∀ m ∈ ((ancestry 0 a).run siblings).1, m.nested = [] := by
  have found : (siblings.findType 0 .shallow .exact "App.Outer" 0).any (fun c =>
      ((followInner 0 .exact 0 ["A"] (.ofDeclared c)).run siblings).1.any (fun a =>
        ((ancestry 0 a).run siblings).1.all (·.nested.isEmpty)) &&
      ((followInner 0 .exact 0 ["A", "B"] (.ofDeclared c)).run siblings).1.any
        (·.fullName == "App.Outer.B")) := by decide +kernel
  obtain ⟨c, stored, both⟩ := (Option.any_eq_true _ _).mp found
  obtain ⟨first, second⟩ := Bool.and_eq_true_iff.mp both
  obtain ⟨a, foundA, bare⟩ := (Option.any_eq_true _ _).mp first
  obtain ⟨b, foundB, named⟩ := (Option.any_eq_true _ _).mp second
  refine ⟨c, a, b, stored, foundA, foundB, eq_of_beq named, fun m mem => ?_⟩
  exact List.isEmpty_iff.mp (List.all_eq_true.mp bare m mem)

end Query
end TypeScope
