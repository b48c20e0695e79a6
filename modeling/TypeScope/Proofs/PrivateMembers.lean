import TypeScope.Proofs.NestedStorage
import TypeScope.Visibility

/-! Who sees private members. Being inside a type is read off full names, which tell neither the
arity of a type nor where its namespace ends; so whatever stands in a type of that full name, or in
a namespace of that name, sees the private members too. -/
namespace TypeScope

namespace Dotted

theorem belowIff {inner outer : String} :
    isBelow inner outer = true ↔ ∃ rest, inner.toList = outer.toList ++ '.' :: rest := by
  rw [isBelow, after?]
  have dot : (outer ++ ".").toList = outer.toList ++ ['.'] := String.toList_append
  constructor
  · intro below
    split at below
    · rename_i starts_
      obtain ⟨rest, whole⟩ := List.isPrefixOf_iff_prefix.mp starts_
      rw [dot, List.append_assoc] at whole
      exact ⟨rest, whole.symm⟩
    · cases below
  · rintro ⟨rest, whole⟩
    have starts_ : (outer ++ ".").toList.isPrefixOf inner.toList = true := by
      rw [List.isPrefixOf_iff_prefix, dot, whole]
      exact ⟨rest, by rw [List.append_assoc]; rfl⟩
    rw [if_pos starts_]
    rfl

theorem belowTrans {inner around outer : String} (below : isBelow inner around = true)
    (further : isBelow around outer = true) : isBelow inner outer = true := by
  obtain ⟨rest, whole⟩ := belowIff.mp below
  obtain ⟨rest', whole'⟩ := belowIff.mp further
  exact belowIff.mpr ⟨rest' ++ '.' :: rest, by rw [whole, whole', List.append_assoc]; rfl⟩

theorem belowJoined {around name outer : String} (within : around = outer ∨ isBelow around outer) :
    isBelow (around ++ "." ++ name) outer = true := by
  have chars : (around ++ "." ++ name).toList = around.toList ++ '.' :: name.toList := by
    simp
  rw [belowIff, chars]
  rcases within with rfl | below
  · exact ⟨name.toList, rfl⟩
  · obtain ⟨rest, whole⟩ := belowIff.mp below
    exact ⟨rest ++ '.' :: name.toList, by rw [whole, List.append_assoc]; rfl⟩

theorem belowCut {around name outer : String} (simple : '.' ∉ name.toList)
    (below : isBelow (around ++ "." ++ name) outer = true) :
    around = outer ∨ isBelow around outer = true := by
  have chars : (around ++ "." ++ name).toList = around.toList ++ '.' :: name.toList := by
    simp
  obtain ⟨rest, whole⟩ := belowIff.mp below
  rw [chars] at whole
  rcases List.append_eq_append_iff.mp whole with ⟨more, longer, tail⟩ | ⟨more, longer, tail⟩
  · cases more with
    | nil =>
      rw [List.append_nil] at longer
      exact .inl (String.toList_inj.mp longer.symm)
    | cons c later =>
      refine absurd ?_ simple
      rw [(List.cons.inj tail).2]
      exact List.mem_append_right _ List.mem_cons_self
  · cases more with
    | nil =>
      rw [List.append_nil] at longer
      exact .inl (String.toList_inj.mp longer)
    | cons c later =>
      cases (List.cons.inj tail).1
      exact .inr (belowIff.mpr ⟨later, longer⟩)

theorem belowSimple {name outer : String} (simple : '.' ∉ name.toList) :
    isBelow name outer = false := by
  refine Bool.eq_false_iff.mpr fun below => simple ?_
  obtain ⟨rest, whole⟩ := belowIff.mp below
  rw [whole]
  exact List.mem_append_right _ List.mem_cons_self

end Dotted

def Declared.Under (name : String) (d : Declared) : Prop :=
  d.fullName = name ∨
    d.body.outer = none ∧ d.ns ≠ "" ∧ (d.ns = name ∨ Dotted.isBelow d.ns name = true)

inductive Store.Encloses (s : Store) (p : Declared → Prop) : Declared → Prop
  | here {c : Declared} (holds : p c) : Encloses s p c
  | inside {c e n : Declared} (stored : e ∈ s.allTypes) (nested : n ∈ e.nested)
      (alike : n.called c.fullName c.arity = true) (around : Encloses s p e) : Encloses s p c

namespace Store

theorem Encloses.top {s : Store} {p : Declared → Prop} {c : Declared}
    (flat : ∀ e ∈ s.allTypes, e.nested.length = 0) (encloses : s.Encloses p c) : p c := by
  cases encloses with
  | here holds => exact holds
  | inside stored nested _ _ =>
    rw [List.length_eq_zero_iff.mp (flat _ stored)] at nested
    cases nested

section Reflected
variable {units : List CompilationUnit} {s : Store} (reflects : Reflects units s) (sound : s.Sound)
include reflects sound

theorem storedDeclared {c : Declared} (stored : c ∈ s.allTypes) :
    ∃ d ∈ declarations units, d.name = c.name ∧ d.fullName = c.fullName ∧ d.arity = c.arity ∧
      d.body.outer = c.body.outer := by
  obtain ⟨stamp, fragments, origin⟩ := reflects.origin (sound.stored stored)
  obtain ⟨f, listed, -, name, outer⟩ := Declared.uniteLike origin.united
  obtain ⟨d, declared, alike⟩ := Declared.tagged origin.heads listed
  obtain ⟨mem, fullName, arity⟩ := memDeclarationsOf.mp declared
  exact ⟨d, mem, (congrArg Tag.name alike).trans name.symm, fullName, arity,
    (congrArg Tag.outer alike).trans outer.symm⟩

variable (placed : ∀ u ∈ units, u.Placed)
include placed

theorem storedSimple {c : Declared} (stored : c ∈ s.allTypes) : '.' ∉ c.name.toList := by
  obtain ⟨d, declared, name, -⟩ := storedDeclared reflects sound stored
  exact name ▸ (declarationPlaced placed declared).simple

theorem storedAround {c : Declared} (stored : c ∈ s.allTypes) {outer : String}
    (below : c.body.outer = some outer) : ∃ e ∈ s.allTypes, e.fullName = outer ∧
      ∃ n ∈ e.nested, n.called c.fullName c.arity = true := by
  obtain ⟨d, declared, -, fullName, arity, own⟩ := storedDeclared reflects sound stored
  have listed : d ∈ (declarationsOf units d.fullName d.arity).filter
      (fun m => m.body.outer = some outer) :=
    List.mem_filter.mpr ⟨memDeclarationsOf.mpr ⟨declared, rfl, rfl⟩, by simpa using own.trans below⟩
  rw [← listedBelow placed] at listed
  obtain ⟨e, around, inside⟩ := List.mem_flatMap.mp listed
  obtain ⟨nested, called⟩ := List.mem_filter.mp inside
  have name : outer = e.fullName := Option.some.inj
    ((Declared.calledBelowOuter called).symm.trans
      ((declarationPlaced placed around).below d nested))
  obtain ⟨t, found⟩ := reflects.finds around
  obtain ⟨candidate, same⟩ := findMem found
  obtain ⟨n, there, alike⟩ := reflects.covers candidate (m := d)
    (List.mem_flatMap.mpr ⟨e, memDeclarationsOf.mpr ⟨around, rfl, same.symm⟩, nested⟩)
  rw [fullName, arity] at alike
  exact ⟨t, candidatesMem candidate, (sound.named _ t candidate).trans name.symm, n, there, alike⟩

theorem enclosedOfName {outer : String} : ∀ length : Nat, ∀ c ∈ s.allTypes,
    c.fullName.length = length →
      (c.fullName = outer ∨ Dotted.isBelow c.fullName outer = true) →
        s.Encloses (Declared.Under outer) c := by
  intro length
  induction length using Nat.strongRecOn with
  | ind length ih =>
    intro c stored long within
    have simple := storedSimple reflects sound placed stored
    rcases within with same | below
    · exact .here (.inl same)
    · cases around : c.body.outer with
      | none =>
        have whole : c.fullName = Dotted.join c.ns c.name := by
          rw [Declared.fullName, Body.fullName, around]
          rfl
        rw [whole, Dotted.join] at below
        split at below
        · rw [Dotted.belowSimple simple] at below
          cases below
        · rename_i some_
          exact .here (.inr ⟨around, some_, Dotted.belowCut simple below⟩)
      | some other =>
        obtain ⟨e, listed, rfl, n, nested, alike⟩ :=
          storedAround reflects sound placed stored around
        rw [Declared.nameBelow around] at below
        exact .inside listed nested alike
          (ih _ (long ▸ Declared.nameLonger around) e listed rfl (Dotted.belowCut simple below))

theorem nameOfEnclosed {outer : String} {c : Declared}
    (encloses : s.Encloses (Declared.Under outer) c) :
    c.fullName = outer ∨ Dotted.isBelow c.fullName outer = true := by
  induction encloses with
  | @here c holds =>
    refine holds.imp_right fun ⟨top, some_, within⟩ => ?_
    have whole : c.fullName = c.ns ++ "." ++ c.name := by
      rw [Declared.fullName, Body.fullName, top]
      exact if_neg some_
    rw [whole]
    exact Dotted.belowJoined within
  | @inside c e n stored nested alike _ ih =>
    obtain ⟨below, -, -⟩ := nestedOuter placed reflects (sound.stored stored) nested
    have whole : c.fullName = e.fullName ++ "." ++ n.name :=
      (Declared.calledIff.mp alike).1.symm.trans (Declared.nameBelow below)
    rw [whole]
    exact .inr (Dotted.belowJoined ih)

end Reflected
end Store

namespace Query
variable {id : ScopeId} {ty calling : Definition}

theorem visibleStep {first : Member} {access : Accessibility}
    (here : first.modifiers.accessibility = .ok access) (rest : List Member) (v : Workspace) :
    (visibleAmong id ty (some calling) (first :: rest)).run v =
      let seen := (isAccessible id ty access (some calling)).run v
      let later := (visibleAmong id ty (some calling) rest).run seen.2
      (match later.1 with
        | .error fault => .error fault
        | .ok others => .ok (if seen.1 then first :: others else others), later.2) := by
  rw [visibleAmong, here]
  dsimp only
  rw [StateT.run_bind]
  cases ((isAccessible id ty access (some calling)).run v) with
  | mk visible after =>
    show (do
      match ← visibleAmong id ty (some calling) rest with
      | .error fault => return .error fault
      | .ok others => return .ok (if visible then first :: others else others) :
        Query (Except Fault (List Member))).run after = _
    rw [StateT.run_bind]
    cases (visibleAmong id ty (some calling) rest).run after with
    | mk answer last => cases answer <;> rfl

theorem visibleAt (before : List Member) {rest members : List Member} {m : Member} {v : Workspace}
    (answer : ((visibleAmong id ty (some calling) (before ++ m :: rest)).run v).1 = .ok members)
    {access : Accessibility} (known : m.modifiers.accessibility = .ok access)
    (accessible : ((isAccessible id ty access (some calling)).run
      ((visibleAmong id ty (some calling) before).run v).2).1 = true) : m ∈ members := by
  induction before generalizing v members with
  | nil =>
    have turn : ((isAccessible id ty access (some calling)).run v).1 = true := accessible
    rw [List.nil_append, visibleStep known] at answer
    dsimp only at answer
    split at answer
    · cases answer
    · cases answer
      rw [if_pos turn]
      exact List.mem_cons_self
  | cons first before ih =>
    cases here : first.modifiers.accessibility with
    | error fault =>
      rw [List.cons_append, visibleAmong, here] at answer
      cases answer
    | ok own =>
      rw [visibleStep here] at accessible
      rw [List.cons_append, visibleStep here] at answer
      dsimp only at answer
      split at answer
      · cases answer
      · rename_i others later
        cases answer
        have mem := ih later accessible
        split
        · exact List.mem_cons_of_mem _ mem
        · exact mem

theorem visibleMember {I : Workspace → Prop}
    (leaves : ∀ access, Leaves I (isAccessible id ty access (some calling))) :
    ∀ (ms : List Member) (v : Workspace) {members : List Member}, I v →
      ((visibleAmong id ty (some calling) ms).run v).1 = .ok members → ∀ m : Member,
        (m ∈ members → m ∈ ms ∧ ∃ access u, m.modifiers.accessibility = .ok access ∧ I u ∧
          ((isAccessible id ty access (some calling)).run u).1 = true) ∧
        (m ∈ ms → (∀ access u, m.modifiers.accessibility = .ok access → I u →
          ((isAccessible id ty access (some calling)).run u).1 = true) → m ∈ members) := by
  intro ms
  induction ms with
  | nil =>
    intro v members _ answer m
    cases answer
    exact ⟨fun never => (nomatch never), fun never => nomatch never⟩
  | cons first rest ih =>
    intro v members holds answer m
    cases here : first.modifiers.accessibility with
    | error fault =>
      rw [visibleAmong, here] at answer
      cases answer
    | ok access =>
      rw [visibleStep here] at answer
      dsimp only at answer
      split at answer
      · cases answer
      · rename_i others later
        cases answer
        obtain ⟨seen, kept⟩ := ih _ (leaves access v holds).1 later m
        have among : m ∈ others → m ∈ first :: rest ∧ ∃ access u,
            m.modifiers.accessibility = .ok access ∧ I u ∧
              ((isAccessible id ty access (some calling)).run u).1 = true := fun mem =>
          (seen mem).imp_left (List.mem_cons_of_mem _)
        constructor
        · split
          · rename_i accessible
            intro mem
            rcases List.mem_cons.mp mem with rfl | mem
            · exact ⟨List.mem_cons_self, access, v, here, holds, accessible⟩
            · exact among mem
          · exact among
        · intro mem always
          rcases List.mem_cons.mp mem with rfl | mem
          · rw [if_pos (always access v here holds)]
            exact List.mem_cons_self
          · split
            · exact List.mem_cons_of_mem _ (kept mem always)
            · exact kept mem always

theorem privateAmong (ms : List Member) (v : Workspace) {members : List Member}
    (answer : ((visibleAmong id ty (some calling) ms).run v).1 = .ok members) (m : Member)
    (hidden : m.modifiers.accessibility = .ok .privateAccess) :
    m ∈ members ↔ m ∈ ms ∧ calling.isInside ty = true := by
  have leaves : ∀ access, Leaves (fun _ => True) (isAccessible id ty access (some calling)) :=
    fun _ _ _ => ⟨trivial, trivial⟩
  obtain ⟨seen, kept⟩ := visibleMember leaves ms v trivial answer m
  have accessible : ∀ access u, m.modifiers.accessibility = .ok access →
      ((isAccessible id ty access (some calling)).run u).1 = calling.isInside ty := by
    intro access u same
    cases Except.ok.inj (hidden.symm.trans same)
    rfl
  constructor
  · intro mem
    obtain ⟨own, access, u, same, -, inside⟩ := seen mem
    exact ⟨own, accessible access u same ▸ inside⟩
  · rintro ⟨own, inside⟩
    exact kept own fun access u same _ => (accessible access u same).trans inside

theorem visibleKnown : ∀ (ms : List Member) (v : Workspace),
    (∀ m ∈ ms, ∃ access, m.modifiers.accessibility = .ok access) →
      ∃ members, ((visibleAmong id ty (some calling) ms).run v).1 = .ok members := by
  intro ms
  induction ms with
  | nil => exact fun v _ => ⟨[], rfl⟩
  | cons first rest ih =>
    intro v known
    obtain ⟨access, here⟩ := known first List.mem_cons_self
    obtain ⟨others, later⟩ := ih ((isAccessible id ty access (some calling)).run v).2
      fun m mem => known m (List.mem_cons_of_mem _ mem)
    rw [visibleStep here]
    dsimp only
    rw [later]
    exact ⟨_, rfl⟩

end Query

/-- A stored type sees the private members of another if it or a stored type that nests it, at any
depth, has the full name of the other, or if it stands, so, in a namespace of that name or below. No
question before makes a difference, and there is an answer unless a member has flags that express no
accessibility. -/
theorem privateVisible (events : List Event) {home : ScopeId} {calling : Declared}
    (stored : calling ∈ ((Session.run events).workspace.store home).allTypes) (id : ScopeId)
    (ty : Definition) (v : Workspace) :
    let answer := ((Query.visibleMembers id ty (some (.ofDeclared calling))).run v).1
    (∀ members, answer = .ok members →
      ∀ m : Member, m.modifiers.accessibility = .ok .privateAccess →
        (m ∈ members ↔ m ∈ ty.body.members ∧
          ((Session.run events).workspace.store home).Encloses (Declared.Under ty.fullName)
            calling)) ∧
    ((∀ m ∈ ty.body.members, ∃ access, m.modifiers.accessibility = .ok access) →
      ∃ members, answer = .ok members) := by
  intro answer
  refine ⟨fun members here m hidden => ?_, Query.visibleKnown ty.body.members v⟩
  have sound : ((Session.run events).workspace.store home).Sound :=
    (Session.storesSound events).at Store.soundEmpty home
  obtain ⟨units, placed, reflects⟩ := (Session.placed events).stores.at Store.writtenEmpty home
  have name : (Definition.ofDeclared calling).isInside ty = true ↔
      calling.fullName = ty.fullName ∨
        Dotted.isBelow calling.fullName ty.fullName = true := by
    rw [Definition.isInside, Bool.or_eq_true, beq_iff_eq]
    rfl
  rw [Query.privateAmong ty.body.members v here m hidden, name]
  refine and_congr_right fun _ => ⟨fun within => ?_, Store.nameOfEnclosed reflects sound placed⟩
  exact Store.enclosedOfName reflects sound placed _ calling stored rfl within

section Boxes

def boxesLoading (nested : List String) : List Event :=
  [.opens "app",
    .writes ⟨⟨0⟩, "Box.cs", [],
      [{ Blueprint.bare "App.Box" .classType with
          members := [Member.field "secret" (TypeRef.named "System.Int32")]
          nested := nested.map (Blueprint.bare · .classType) },
        { Blueprint.bare "App.Box" .classType with typeParameters := [⟨"T", []⟩] },
        Blueprint.bare "App.Box.Tool" .classType]⟩,
    .ingests 0 0]

def boxes (nested : List String) : Workspace := (Session.run (boxesLoading nested)).workspace

def seenBy (w : Workspace) (ty calling : Declared) : Option (List (String × Modifiers)) :=
  ((Query.visibleMembers 0 (.ofDeclared ty) (some (.ofDeclared calling))).run w).1.toOption.map
    (fun members => members.map (fun m => (m.name, m.modifiers)))

theorem privateVisibleNested : ∃ box ∈ ((boxes ["Part"]).store 0).allTypes,
    ∃ part ∈ ((boxes ["Part"]).store 0).allTypes,
      box.fullName = "App.Box" ∧ part.fullName = "App.Box.Part" ∧ ∃ members,
        ((Query.visibleMembers 0 (.ofDeclared box) (some (.ofDeclared part))).run
          (boxes ["Part"])).1 = .ok members ∧
        ∃ m ∈ members, m.name = "secret" ∧ m.modifiers = Modifiers.empty := by
  obtain ⟨box, stored, part, storedToo, name, name', ⟨n, inside, called⟩, m, own, secret, hidden,
      all⟩ :
      ∃ box ∈ ((boxes ["Part"]).store 0).allTypes, ∃ part ∈ ((boxes ["Part"]).store 0).allTypes,
        box.fullName = "App.Box" ∧ part.fullName = "App.Box.Part" ∧
        (∃ n ∈ box.nested, n.called part.fullName part.arity = true) ∧
        ∃ m ∈ box.body.members, m.name = "secret" ∧ m.modifiers = Modifiers.empty ∧
          ∀ m ∈ box.body.members, m.modifiers = Modifiers.empty := by decide +kernel
  obtain ⟨seen, answers⟩ :=
    privateVisible (boxesLoading ["Part"]) storedToo 0 (.ofDeclared box) (boxes ["Part"])
  obtain ⟨members, answer⟩ := answers fun m mem => ⟨.privateAccess, by rw [all m mem]; rfl⟩
  refine ⟨box, stored, part, storedToo, name, name', members, answer, m, ?_, secret, hidden⟩
  exact (seen members answer m (by rw [hidden]; rfl)).mpr
    ⟨own, .inside stored inside called (.here (.inl rfl))⟩

theorem privateLeaks : ∃ box ∈ ((boxes []).store 0).allTypes, box.decoratedName = "App.Box" ∧
    ∃ generic ∈ ((boxes []).store 0).allTypes, generic.decoratedName = "App.Box`1" ∧
    ∃ tool ∈ ((boxes []).store 0).allTypes, tool.decoratedName = "App.Box.Tool" ∧
      ∀ calling ∈ [generic, tool],
        seenBy (boxes []) box calling = some [("secret", Modifiers.empty)] ∧
        Modifiers.empty.accessibility = .ok .privateAccess ∧
        ¬ ((boxes []).store 0).Encloses
          (fun e => e.called box.fullName box.arity = true) calling := by
  have flat : ∀ e ∈ ((boxes []).store 0).allTypes, e.nested.length = 0 := by decide +kernel
  obtain ⟨box, stored, name, generic, stored', name', tool, stored'', name'', seen⟩ :
      ∃ box ∈ ((boxes []).store 0).allTypes, box.decoratedName = "App.Box" ∧
      ∃ generic ∈ ((boxes []).store 0).allTypes, generic.decoratedName = "App.Box`1" ∧
      ∃ tool ∈ ((boxes []).store 0).allTypes, tool.decoratedName = "App.Box.Tool" ∧
        ∀ calling ∈ [generic, tool],
          seenBy (boxes []) box calling = some [("secret", Modifiers.empty)] ∧
          ¬ calling.called box.fullName box.arity = true := by decide +kernel
  refine ⟨box, stored, name, generic, stored', name', tool, stored'', name'', fun c mem => ?_⟩
  obtain ⟨secrets, other⟩ := seen c mem
  exact ⟨secrets, rfl, fun encloses => other (encloses.top flat)⟩

end Boxes
end TypeScope
