import TypeScope.Proofs.Currency
import TypeScope.Proofs.Substitution

/-! What the members of an open type are in its instantiations. Arguments are put into types and
parameters, whatever type parameters a method declares itself, and never into its constraints; so
a member comes out as binding has it where the two cannot be confused. -/
namespace TypeScope

namespace Member

def signature (m : Member) : List TypeRef := m.type.toList ++ m.parameters.map Parameter.type

def own (m : Member) : List String := m.typeParameters.map TypeParameter.name

def shadowing (m : Member) (stands : String → Option TypeRef) (name : String) : Option TypeRef :=
  if name ∈ m.own then none else stands name

structure Becomes (signature constraints : String → Option TypeRef) (m made : Member) : Prop where
  type : List.Forall₂ (TypeRef.Becomes signature) m.type.toList made.type.toList
  parameters : List.Forall₂ (fun p q : Parameter =>
    p.type.Becomes signature q.type ∧ q = { p with type := q.type }) m.parameters made.parameters
  typeParameters : List.Forall₂ (fun p q : TypeParameter =>
    List.Forall₂ (TypeRef.Becomes constraints) p.constraints q.constraints ∧
      q = { p with constraints := q.constraints }) m.typeParameters made.typeParameters
  others : made = { m with
    type := made.type, parameters := made.parameters, typeParameters := made.typeParameters }

structure Unmistakable (m : Member) (stands : String → Option TypeRef) : Prop where
  signature : ∀ r ∈ m.signature, ∀ name ∈ r.mentioned, name ∈ m.own → stands name = none
  constraints : ∀ p ∈ m.typeParameters, ∀ c ∈ p.constraints, ∀ name ∈ c.mentioned,
    m.shadowing stands name = none

instance (m : Member) (stands : String → Option TypeRef) : Decidable (m.Unmistakable stands) :=
  decidable_of_iff
    ((∀ r ∈ m.signature, ∀ name ∈ r.mentioned, name ∈ m.own → stands name = none) ∧
      ∀ p ∈ m.typeParameters, ∀ c ∈ p.constraints, ∀ name ∈ c.mentioned,
        m.shadowing stands name = none)
    ⟨fun both => ⟨both.1, both.2⟩, fun clear => ⟨clear.signature, clear.constraints⟩⟩

def captureless (b : Bindings) (m : Member) : Member :=
  let remaining := b.keep (fun name => !m.own.contains name)
  { m with
    type := m.type.map (TypeRef.substitute remaining)
    parameters := m.parameters.map (fun p => { p with type := p.type.substitute remaining })
    typeParameters := m.typeParameters.map (fun p =>
      { p with constraints := p.constraints.map (TypeRef.substitute remaining) }) }

def texts (m : Member) : List String × List String × List (List String) :=
  (m.type.toList.map TypeRef.canonical, m.parameters.map (fun p => p.type.canonical),
    m.typeParameters.map (fun p => p.constraints.map TypeRef.canonical))

section Becomes
variable {signature other constraints stands : String → Option TypeRef} {m made : Member}

theorem Becomes.agree (becomes : m.Becomes signature constraints made)
    (same : ∀ r ∈ m.signature, ∀ name ∈ r.mentioned, signature name = other name)
    {limits : String → Option TypeRef}
    (sameToo : ∀ p ∈ m.typeParameters, ∀ c ∈ p.constraints, ∀ name ∈ c.mentioned,
      constraints name = limits name) : m.Becomes other limits made where
  type := forall₂Within becomes.type fun r mem _ =>
    TypeRef.becomesAgree r (same r (List.mem_append_left _ mem))
  parameters := forall₂Within becomes.parameters fun p mem _ both =>
    ⟨TypeRef.becomesAgree p.type (same p.type
      (List.mem_append_right _ (List.mem_map.mpr ⟨p, mem, rfl⟩))) both.1, both.2⟩
  typeParameters := forall₂Within becomes.typeParameters fun p mem _ both =>
    ⟨forall₂Within both.1 fun c inside _ => TypeRef.becomesAgree c (sameToo p mem c inside), both.2⟩
  others := becomes.others

theorem Becomes.shadows (becomes : m.Becomes stands (fun _ => none) made)
    (clear : m.Unmistakable stands) : m.Becomes (m.shadowing stands) (m.shadowing stands) made := by
  refine becomes.agree (fun r mem name there => ?_) fun p mem c inside name there =>
    (clear.constraints p mem c inside name there).symm
  rw [shadowing]
  split
  · rename_i own
    exact clear.signature r mem name there own
  · rfl

theorem becomesSubstitute (b : Bindings) (links : Links) (site : Site) (m : Member) :
    m.Becomes b.get? (fun _ => none) ((m.settled links site).substitute b) ∧
      ((m.settled links site).substitute b).typeParameters = m.typeParameters := by
  have current : ∀ r : TypeRef, r.Becomes b.get? ((links.current site r).substitute b) := by
    intro r
    have becomes := TypeRef.becomesSubstitute b (links.current site r)
    rw [Links.current] at becomes ⊢
    split at becomes
    · exact TypeRef.becomesLinked becomes
    · exact becomes
  have settled : ∃ parameters, m.settled links site = { m with parameters := parameters } ∧
      List.Forall₂ (fun p q : Parameter => p.type.Becomes b.get? (q.type.substitute b) ∧
        q = { p with type := q.type }) m.parameters parameters := by
    have itself : ∀ p : Parameter, p.type.Becomes b.get? (p.type.substitute b) ∧
        p = { p with type := p.type } := fun p => ⟨TypeRef.becomesSubstitute b p.type, rfl⟩
    rw [Member.settled]
    split
    · rename_i none_
      rw [none_]
      exact ⟨[], by rw [← none_], .nil⟩
    · rename_i first rest listed
      rw [listed]
      refine ⟨_, rfl, .cons ⟨current first.type, rfl⟩ ?_⟩
      exact List.forall₂_same.mpr fun p _ => itself p
  obtain ⟨parameters, same, each⟩ := settled
  rw [same]
  refine ⟨⟨?_, ?_, List.forall₂_same.mpr fun p _ => ⟨?_, rfl⟩, rfl⟩, rfl⟩
  · rw [substitute]
    cases m.type with
    | none => exact .nil
    | some r => exact .cons (TypeRef.becomesSubstitute b r) .nil
  · rw [substitute, List.forall₂_map_right_iff]
    refine each.imp ?_
    rintro p q ⟨becomes, rest⟩
    exact ⟨becomes, by rw [rest]⟩
  · exact List.forall₂_same.mpr fun c _ => c.becomesSelf fun _ _ => rfl

theorem becomesCaptureless (b : Bindings) (m : Member) :
    m.Becomes (m.shadowing b.get?) (m.shadowing b.get?) (m.captureless b) := by
  have remaining : (b.keep (fun name => !m.own.contains name)).get? = m.shadowing b.get? := by
    funext name
    rw [Table.getKeep, shadowing]
    by_cases mem : name ∈ m.own <;> simp [mem]
  rw [← remaining, captureless]
  refine ⟨?_, ?_, ?_, rfl⟩
  · cases m.type with
    | none => exact .nil
    | some r => exact .cons (TypeRef.becomesSubstitute _ r) .nil
  · rw [List.forall₂_map_right_iff]
    exact List.forall₂_same.mpr fun p _ => ⟨TypeRef.becomesSubstitute _ p.type, rfl⟩
  · rw [List.forall₂_map_right_iff]
    refine List.forall₂_same.mpr fun p _ => ⟨?_, rfl⟩
    rw [List.forall₂_map_right_iff]
    exact List.forall₂_same.mpr fun c _ => TypeRef.becomesSubstitute _ c

theorem Becomes.texts (first : m.Becomes signature constraints made) {again : Member}
    (second : m.Becomes signature constraints again) : made.texts = again.texts := by
  have type : made.type.toList.map TypeRef.canonical = again.type.toList.map TypeRef.canonical :=
    mapOfRelated (forall₂Join first.type second.type fun r _ _ _ => r.becomesUnique)
      fun _ _ same => same
  have parameters : made.parameters.map (fun p => p.type.canonical) =
      again.parameters.map (fun p => p.type.canonical) :=
    mapOfRelated (forall₂Join first.parameters second.parameters fun p _ _ _ here there =>
      p.type.becomesUnique here.1 there.1) fun _ _ same => same
  have limits : made.typeParameters.map (fun p => p.constraints.map TypeRef.canonical) =
      again.typeParameters.map (fun p => p.constraints.map TypeRef.canonical) := by
    refine mapOfRelated (forall₂Join first.typeParameters second.typeParameters
      fun p _ _ _ here there => ?_) fun _ _ same => same
    exact mapOfRelated (forall₂Join here.1 there.1 fun c _ _ _ => c.becomesUnique)
      fun _ _ same => same
  rw [Member.texts, type, parameters, limits, Member.texts]

end Becomes
end Member

namespace Instantiation

def MembersBound (i : Instantiation) : Prop :=
  let stands := i.openType.stands i.arguments
  List.Forall₂ (fun m made => made.typeParameters = m.typeParameters ∧
      m.Becomes stands (fun _ => none) made ∧
      (m.Unmistakable stands → m.Becomes (m.shadowing stands) (m.shadowing stands) made))
    i.openType.body.members i.body.members

theorem membersBound {i : Instantiation} {links : Links}
    (body : i.body = (i.openType.body.settled links i.openType.stamp).substitute
      (bindings i.openType i.arguments)) : i.MembersBound := by
  rw [MembersBound, body, ← bindingsGet, Body.substitute, Body.settled]
  dsimp only
  rw [List.forall₂_map_right_iff]
  refine forall₂MapIdx fun n m _ => ?_
  obtain ⟨becomes, limits⟩ :=
    m.becomesSubstitute (bindings i.openType i.arguments) links ⟨i.openType.stamp, .receiver n⟩
  exact ⟨limits, becomes, becomes.shadows⟩

end Instantiation

inductive Instantiation.Arises : Instantiation → Prop
  | made (w : Workspace) (stamp : Stamp) (o : OpenType) (arguments : List TypeRef) :
      Arises (.of stamp o (w.bodyOf (.unbound o)) arguments)
  | remembered {events : List Event} {id : ScopeId} {key : String} {i : Instantiation}
      (cached : ((Session.run events).workspace.scope id).cache.get? key = some (.bound i)) :
      Arises i

/-- The arguments are in the signatures of all members, also where a member declares a type
parameter of that name, and not in the constraints. -/
theorem instanceMembers {i : Instantiation} (arises : i.Arises) : i.MembersBound := by
  cases arises with
  | made w stamp o arguments => exact @Instantiation.membersBound _ w.links rfl
  | @remembered events id key _ cached =>
    obtain ⟨links, body⟩ := (Session.instancesMade events id key _ cached i rfl).body
    exact Instantiation.membersBound body

def Definition.isInstance (check : Instantiation → Bool) : Definition → Bool
  | .bound i => check i
  | .unbound _ => false

theorem Definition.boundOfInstance {found : Option Definition} {check : Instantiation → Bool}
    (holds : found.any (isInstance check) = true) :
    ∃ i, found = some (.bound i) ∧ check i = true := by
  obtain ⟨d, rfl, checks⟩ := (Option.any_eq_true _ _).mp holds
  cases d with
  | unbound o => cases checks
  | bound i => exact ⟨i, rfl, checks⟩

section Shelf

def shelfEvents (members : List Member) : List Event :=
  [.opens "app",
    .writes ⟨⟨0⟩, "Shelf.cs", [], [{ Blueprint.bare "App.Shelf" .classType with
      typeParameters := [⟨"T", []⟩]
      members := members }]⟩,
    .ingests 0 0,
    .asks 0 (.typeNamed .deep .exact "App.Shelf" [TypeRef.named "App.Item"])]

def shelved (members : List Member) : Option Definition :=
  ((Session.run (shelfEvents members)).workspace.scope 0).cache.get? "App.Shelf[App.Item]"

def convert : Member :=
  { Member.method "Convert" with
    type := some (TypeRef.named "U")
    parameters := [⟨"values", TypeRef.generic "System.IList" [TypeRef.named "T"], ⟨0⟩⟩]
    typeParameters := [⟨"U", [TypeRef.named "App.Item"]⟩] }

theorem instanceMembersConvert : ∃ i, shelved [convert] = some (.bound i) ∧
    i.openType.body.members.map Member.name = ["Convert"] ∧
    List.Forall₂ (fun m made => m.Becomes (m.shadowing (i.openType.stands i.arguments))
      (m.shadowing (i.openType.stands i.arguments)) made)
      i.openType.body.members i.body.members := by
  have checked : (shelved [convert]).any (Definition.isInstance fun i =>
      i.openType.body.members.map Member.name = ["Convert"] ∧
        ∀ m ∈ i.openType.body.members, m.Unmistakable (i.openType.stands i.arguments)) := by
    decide +kernel
  obtain ⟨i, cached, checks⟩ := Definition.boundOfInstance checked
  obtain ⟨names, clear⟩ := of_decide_eq_true checks
  have bound := instanceMembers (.remembered cached)
  exact ⟨i, cached, names, forall₂Within bound fun m mem _ checked => checked.2.2 (clear m mem)⟩

def swap : Member :=
  { Member.method "Swap" with
    type := some (TypeRef.named "T")
    parameters := [⟨"value", TypeRef.named "T", ⟨0⟩⟩]
    typeParameters := [⟨"T", []⟩] }

def limit : Member :=
  { Member.method "Limit" with
    typeParameters := [⟨"U", [TypeRef.generic "System.IList" [TypeRef.named "T"]]⟩] }

theorem instanceMembersMistaken : ∃ i, shelved [swap, limit] = some (.bound i) ∧
    i.arguments.length = i.openType.arity ∧
    i.openType.body.members.map Member.name = ["Swap", "Limit"] ∧
    i.body.members.map Member.name = ["Swap", "Limit"] ∧
    ∀ pair ∈ i.openType.body.members.zip i.body.members,
      ¬ pair.1.Becomes (pair.1.shadowing (i.openType.stands i.arguments))
        (pair.1.shadowing (i.openType.stands i.arguments)) pair.2 := by
  have checked : (shelved [swap, limit]).any (Definition.isInstance fun i =>
      i.arguments.length = i.openType.arity ∧
        i.openType.body.members.map Member.name = ["Swap", "Limit"] ∧
        i.body.members.map Member.name = ["Swap", "Limit"] ∧
        ∀ pair ∈ i.openType.body.members.zip i.body.members, pair.2.texts ≠
          (pair.1.captureless (Instantiation.bindings i.openType i.arguments)).texts) := by
    decide +kernel
  obtain ⟨i, cached, checks⟩ := Definition.boundOfInstance checked
  obtain ⟨count, names, names', differ⟩ := of_decide_eq_true checks
  refine ⟨i, cached, count, names, names', fun pair mem becomes => differ pair mem ?_⟩
  have captureless := pair.1.becomesCaptureless (Instantiation.bindings i.openType i.arguments)
  rw [Instantiation.bindingsGet] at captureless
  exact becomes.texts captureless

end Shelf
end TypeScope
