import TypeScope.Proofs.Agreement
import TypeScope.Proofs.Keys
import TypeScope.Proofs.Stamps

/-! Which stored type a base names, in a scope that refers to no other. The answer depends on the
names in the base and the number of its arguments; putting arguments in the place of the type
parameters of its type changes neither. -/
namespace TypeScope

def Definition.HasParameter (d : Definition) (name : String) : Prop :=
  ∃ owner, d.openType = .declared owner ∧
    (owner.body.typeParameters.find? (fun p => Name.same .exact p.name name)).isSome = true

namespace Workspace

def offered (w : Workspace) (id : ScopeId) (name : String) (count : Nat) : Option Declared :=
  w.findType id .deep .exact (Arity.strip name).1
    (if count = 0 then (Arity.strip name).2.getD 0 else count)

def directivesOf (w : Workspace) (id : ScopeId) (t : Declared) : List UsingDirective :=
  (w.unitOf id (.ofDeclared t)).elim [] CompilationUnit.usings

def readings (around : String) (usings : List UsingDirective) (name : String) (count : Nat) :
    List (String × Nat) :=
  [(name, count)] ++
    ((UsingDirective.findAlias .exact name usings).map
      (fun target => (target.fullName, target.arguments.length))).toList ++
    (Dotted.enclosing around).map (fun outer => (outer ++ "." ++ name, count)) ++
    (usings.flatMap (UsingDirective.candidates .exact name)).map (fun full => (full, count))

def inContext (w : Workspace) (id : ScopeId) (t : Declared) (name : String) (count : Nat) :
    Option Declared :=
  if name = "" then none
  else (readings t.fullName (w.directivesOf id t) name count).findSome?
    (fun reading => w.offered id reading.1 reading.2)

def named (w : Workspace) (id : ScopeId) (t : Declared) (base : TypeRef) : Option Declared :=
  (w.offered id base.decoratedName base.arguments.length).or
    (w.inContext id t base.fullName base.arguments.length)

def ParameterAround (w : Workspace) (id : ScopeId) (t : Declared) (name : String) : Prop :=
  ∃ d ∈ w.outward id (.ofDeclared t), d.HasParameter name

end Workspace

namespace TypeRef
variable {xid : Char → Bool}

structure Fit (xid : Char → Bool) (t : Declared) (base : TypeRef) : Prop where
  rankless : base.marks.ranks = []
  outer : ∀ p ∈ base.outer, p.arguments = []
  formed : ∀ a ∈ base.arguments, a.WellFormed xid
  unlinked : base.link = none
  foreign : ∀ p ∈ t.body.typeParameters, base.bareName? ≠ some p.name

structure Echoes (xid : Char → Bool) (base r : TypeRef) : Prop where
  fullName : r.fullName = base.fullName
  decorated : r.decoratedName = base.decoratedName
  count : r.arguments.length = base.arguments.length
  rankless : r.marks.ranks = []
  outer : ∀ p ∈ r.outer, p.arguments = []
  formed : ∀ a ∈ r.arguments, a.WellFormed xid
  unlinked : r.link = none

theorem Fit.echoes {t : Declared} {base : TypeRef} (fit : base.Fit xid t) :
    base.Echoes xid base where
  fullName := rfl
  decorated := rfl
  count := rfl
  rankless := fit.rankless
  outer := fit.outer
  formed := fit.formed
  unlinked := fit.unlinked

theorem replacePartEq (b : Bindings) (p : TypePart) :
    replacePart b p = ⟨p.name, p.arguments.map (replace b)⟩ := by
  cases p
  rw [replacePart, replaceAllMap]

theorem replaceFormed {b : Bindings} (values : ∀ name a, b.get? name = some a → a.WellFormed xid)
    {r : TypeRef} (formed : r.WellFormed xid) : (r.replace b).WellFormed xid := by
  induction formed with
  | @intro r ns names arguments ih =>
    obtain ⟨space, outer, last, marks, link⟩ := r
    rw [replace]
    split
    · rename_i argument found
      obtain ⟨name, -, here⟩ := Option.bind_eq_some_iff.mp found
      obtain ⟨ns, names, arguments⟩ := values name argument here
      exact .intro ns names arguments
    · have parts : ∀ p ∈ replaceParts b outer ++ [replacePart b last],
          ∃ q ∈ outer ++ [last], p = ⟨q.name, q.arguments.map (replace b)⟩ := by
        intro p mem
        rw [replacePartsMap] at mem
        rcases List.mem_append.mp mem with early | late
        · obtain ⟨q, inside, rfl⟩ := List.mem_map.mp early
          exact ⟨q, List.mem_append_left _ inside, replacePartEq b q⟩
        · rw [List.mem_singleton.mp late]
          exact ⟨last, List.mem_append_right _ List.mem_cons_self, replacePartEq b last⟩
      refine .intro ns (fun p mem => ?_) (fun p mem a inside => ?_)
      · obtain ⟨q, listed, rfl⟩ := parts p mem
        exact names q listed
      · obtain ⟨q, listed, rfl⟩ := parts p mem
        obtain ⟨x, given, rfl⟩ := List.mem_map.mp inside
        exact ih q listed x given

theorem echoesReplace {b : Bindings} {base : TypeRef}
    (values : ∀ name a, b.get? name = some a → a.WellFormed xid)
    (foreign : base.bareName?.bind b.get? = none) (rankless : base.marks.ranks = [])
    (outer : ∀ p ∈ base.outer, p.arguments = [])
    (formed : ∀ a ∈ base.arguments, a.WellFormed xid) : base.Echoes xid (base.replace b) := by
  obtain ⟨ns, before, last, marks, link⟩ := base
  have whole : replace b ⟨ns, before, last, marks, link⟩ =
      ⟨ns, replaceParts b before, replacePart b last, marks, none⟩ := by
    rw [replace, bound?, foreign]
  rw [whole]
  refine ⟨?_, ?_, ?_, rankless, fun p mem => ?_, fun a mem => ?_, rfl⟩
  · simp [fullName, parts, replacePartsMap, replacePartEq, Function.comp_def]
  · have same : ∀ p : TypePart, (replacePart b p).decorated = p.decorated := fun p => by
      rw [replacePartEq, TypePart.decorated, List.length_map, TypePart.decorated]
    simp [decoratedName, parts, replacePartsMap, same, Function.comp_def]
  · simp [arguments, replacePartEq]
  · rw [replacePartsMap] at mem
    obtain ⟨q, inside, rfl⟩ := List.mem_map.mp mem
    rw [replacePartEq]
    have none_ : q.arguments = [] := outer q inside
    rw [none_]
    rfl
  · rw [arguments, replacePartEq] at mem
    obtain ⟨x, inside, rfl⟩ := List.mem_map.mp mem
    exact replaceFormed values (formed x inside)

end TypeRef

section Bound
variable {xid : Char → Bool}

theorem ofPairsFound (pairs : List (String × TypeRef)) {name : String} {a : TypeRef}
    (found : (Bindings.ofPairs pairs).get? name = some a) : (name, a) ∈ pairs := by
  have folded : ∀ (pairs : List (String × TypeRef)) (b : Bindings),
      (pairs.foldl (fun b p => b.put p.1 p.2) b).get? name = some a →
        (name, a) ∈ pairs ∨ b.get? name = some a := by
    intro pairs
    induction pairs with
    | nil => exact fun b found => .inr found
    | cons p rest ih =>
      intro b found
      rcases ih (b.put p.1 p.2) found with later | here
      · exact .inl (List.mem_cons_of_mem _ later)
      · rcases Table.putSome here with ⟨same, same'⟩ | old
        · rw [← same, ← same']
          exact .inl List.mem_cons_self
        · exact .inr old
  exact (folded pairs Table.empty found).resolve_right fun never => by cases never

theorem ofPairsSome {pairs : List (String × TypeRef)} (some_ : pairs ≠ []) :
    (Bindings.ofPairs pairs).entries.isEmpty = false := by
  have grows : ∀ (pairs : List (String × TypeRef)) (b : Bindings), b.keys ≠ [] →
      (pairs.foldl (fun b p => b.put p.1 p.2) b).keys ≠ [] := by
    intro pairs
    induction pairs with
    | nil => exact fun b some_ => some_
    | cons p rest ih =>
      refine fun b some_ => ih _ ?_
      rw [Table.keysPut]
      split
      · exact some_
      · exact List.append_ne_nil_of_left_ne_nil some_ _
  cases pairs with
  | nil => exact absurd rfl some_
  | cons p rest =>
    have first : (Table.empty.put p.1 p.2 : Bindings).keys ≠ [] := List.cons_ne_nil _ _
    have keys := grows rest (Table.empty.put p.1 p.2) first
    rw [Bindings.ofPairs, List.foldl_cons]
    simpa [Table.keys] using keys

structure Retold (xid : Char → Bool) (t : Declared) (b : Body) : Prop where
  base : b.base.isNone = t.body.base.isNone
  bases : List.Forall₂ (TypeRef.Echoes xid) t.body.bases b.bases

theorem retoldSelf {t : Declared} (fit : ∀ base ∈ t.body.bases, base.Fit xid t) :
    Retold xid t t.body :=
  ⟨rfl, List.forall₂_same.mpr fun base mem => (fit base mem).echoes⟩

theorem echoesBound {t : Declared} {base : TypeRef} (fit : base.Fit xid t) (links : Links)
    (site : Site) {arguments : List TypeRef} (some_ : arguments ≠ [])
    (count : arguments.length = t.arity) (formed : ∀ a ∈ arguments, a.WellFormed xid) :
    base.Echoes xid
      ((links.current site base).substitute (Instantiation.bindings (.declared t) arguments)) := by
  let pairs := (t.body.typeParameters.map TypeParameter.name).zip arguments
  have bindings : Instantiation.bindings (.declared t) arguments = Bindings.ofPairs pairs := rfl
  have counted : t.body.typeParameters.length = arguments.length := count.symm
  have filled : (Bindings.ofPairs pairs).entries.isEmpty = false := by
    refine ofPairsSome fun empty => some_ (List.length_eq_zero_iff.mp ?_)
    have none_ := congrArg List.length empty
    rw [List.length_zip, List.length_map, counted, Nat.min_self] at none_
    exact none_
  have values : ∀ name a, (Bindings.ofPairs pairs).get? name = some a → a.WellFormed xid :=
    fun name a found => formed a (List.of_mem_zip (ofPairsFound pairs found)).2
  have foreign : base.bareName?.bind (Bindings.ofPairs pairs).get? = none := by
    cases bare : base.bareName? with
    | none => rfl
    | some name =>
      refine Option.eq_none_iff_forall_ne_some.mpr fun a found => ?_
      obtain ⟨listed, -⟩ := List.of_mem_zip (ofPairsFound pairs found)
      obtain ⟨p, inside, same⟩ := List.mem_map.mp listed
      exact fit.foreign p inside (by rw [bare, same])
  obtain ⟨link, current⟩ : ∃ link, links.current site base = base.linkedTo link := by
    unfold Links.current
    split
    · exact ⟨_, rfl⟩
    · exact ⟨base.link, by cases base; rfl⟩
  rw [bindings, current, TypeRef.substitute, filled, if_neg Bool.false_ne_true]
  have echoes : (base.linkedTo link).Echoes xid
      ((base.linkedTo link).replace (Bindings.ofPairs pairs)) :=
    TypeRef.echoesReplace values foreign fit.rankless fit.outer fit.formed
  exact ⟨echoes.fullName, echoes.decorated, echoes.count, echoes.rankless, echoes.outer,
    echoes.formed, echoes.unlinked⟩

theorem forall₂MapIdx {α β : Type} {R : α → β → Prop} {f : Nat → α → β} {xs : List α}
    (each : ∀ i, ∀ x ∈ xs, R x (f i x)) : List.Forall₂ R xs (xs.mapIdx f) := by
  induction xs generalizing f with
  | nil => exact .nil
  | cons x rest ih =>
    rw [List.mapIdx_cons]
    exact .cons (each 0 x List.mem_cons_self)
      (ih fun i y mem => each (i + 1) y (List.mem_cons_of_mem _ mem))

theorem forall₂Within {α β : Type} {R S : α → β → Prop} {xs : List α} {ys : List β}
    (related : List.Forall₂ R xs ys) (each : ∀ x ∈ xs, ∀ y, R x y → S x y) :
    List.Forall₂ S xs ys :=
  (List.forall₂_and_left _ _ |>.mpr ⟨fun _ mem => mem, related⟩).imp fun x y both =>
    each x both.1 y both.2

theorem forall₂Join {α β γ : Type} {R : α → β → Prop} {S : α → γ → Prop} {T : β → γ → Prop}
    {xs : List α} {ys : List β} {zs : List γ} (left : List.Forall₂ R xs ys)
    (right : List.Forall₂ S xs zs) (join : ∀ x ∈ xs, ∀ y z, R x y → S x z → T y z) :
    List.Forall₂ T ys zs := by
  induction left generalizing zs with
  | nil =>
    cases right
    exact .nil
  | @cons x y xs ys here _ ih =>
    cases right with
    | cons there others =>
      exact .cons (join x List.mem_cons_self y _ here there)
        (ih others fun x mem => join x (List.mem_cons_of_mem _ mem))

theorem retoldBound {t : Declared} (fit : ∀ base ∈ t.body.bases, base.Fit xid t) (links : Links)
    {arguments : List TypeRef} (some_ : arguments ≠ []) (count : arguments.length = t.arity)
    (formed : ∀ a ∈ arguments, a.WellFormed xid) :
    Retold xid t ((t.body.settled links t.stamp).substitute
      (Instantiation.bindings (.declared t) arguments)) := by
  have each : ∀ site, ∀ base ∈ t.body.bases, base.Echoes xid
      ((links.current site base).substitute (Instantiation.bindings (.declared t) arguments)) :=
    fun site base mem => echoesBound (fit base mem) links site some_ count formed
  constructor
  · rw [Body.substitute, Body.settled]
    cases t.body.base <;> rfl
  · rw [Body.substitute, Body.settled, Body.bases, Body.bases]
    refine List.rel_append ?_ ?_
    · cases written : t.body.base with
      | none => exact .nil
      | some base =>
        refine .cons (each _ base ?_) .nil
        rw [Body.bases, written]
        exact List.mem_cons_self
    · rw [List.forall₂_map_right_iff]
      exact forall₂MapIdx fun i base mem => each _ base (List.mem_append_right _ mem)

end Bound
end TypeScope
