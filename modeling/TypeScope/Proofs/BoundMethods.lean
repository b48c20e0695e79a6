import TypeScope.Proofs.Inference

/-! What is left of a method when it is bound to a receiver. Nothing that is bound mentions a type
parameter of the method, since nothing that was given does; so the signature mentions unbound ones
only. The constraints stay as written, and may mention any. -/
namespace TypeScope

theorem forall₂Left {α β : Type} {R : α → β → Prop} {xs : List α} {ys : List β}
    (related : List.Forall₂ R xs ys) {y : β} (mem : y ∈ ys) : ∃ x ∈ xs, R x y := by
  induction related with
  | nil => cases mem
  | cons first _ ih =>
    rcases List.mem_cons.mp mem with rfl | later
    · exact ⟨_, List.mem_cons_self, first⟩
    · obtain ⟨x, there, rest⟩ := ih later
      exact ⟨x, List.mem_cons_of_mem _ there, rest⟩

namespace TypeRef
variable {names : List String} {r a : TypeRef}

def Avoids (names : List String) (r : TypeRef) : Prop := ∀ name ∈ names, name ∉ r.mentioned

instance (names : List String) (r : TypeRef) : Decidable (r.Avoids names) :=
  inferInstanceAs (Decidable (∀ name ∈ names, name ∉ r.mentioned))

theorem mentionedMarked (r : TypeRef) (m : Marks) (link : Option Stamp) :
    mentioned { r with marks := m, link := link } = r.mentioned := by
  cases r
  rfl

theorem Avoids.argument (avoids : r.Avoids names) {p : TypePart} (part : p ∈ r.parts)
    (argument : a ∈ p.arguments) : a.Avoids names := fun name mem there =>
  avoids name mem (argumentMentioned part argument there)

theorem Avoids.last (avoids : r.Avoids names) : ∀ a ∈ r.arguments, a.Avoids names := fun _ =>
  avoids.argument (List.mem_append_right _ List.mem_cons_self)

theorem Avoids.element (avoids : r.Avoids names) {e : TypeRef} (found : r.element? = some e) :
    e.Avoids names := by
  rw [element?] at found
  split at found
  · cases found
  · cases found
    intro name mem there
    rw [mentionedMarked] at there
    exact avoids name mem there

theorem Avoids.strip {n : Nat} (avoids : r.Avoids names) {e : TypeRef}
    (found : strip? n r = some e) : e.Avoids names := by
  induction n generalizing r with
  | zero =>
    cases found
    exact avoids
  | succ n ih =>
    obtain ⟨next, first, rest⟩ := Option.bind_eq_some_iff.mp found
    exact ih (avoids.element first) rest

theorem bareParts {r : TypeRef} {name : String} :
    r.bareName? = some name ↔ r.ns = "" ∧ r.parts = [⟨name, []⟩] := by
  obtain ⟨ns, outer, ⟨last, given⟩, marks, link⟩ := r
  cases outer with
  | nil => cases given <;> simp [bareName?, parts]
  | cons p rest => simp [bareName?, parts]

theorem mentionedBecomes {stands : String → Option TypeRef} : ∀ r : TypeRef, ∀ {s},
    r.Becomes stands s → ∀ name ∈ s.mentioned, (name ∈ r.mentioned ∧ stands name = none) ∨
      ∃ other a, stands other = some a ∧ name ∈ a.mentioned := by
  refine byParts fun r arguments s becomes name there => ?_
  cases becomes with
  | @mention _ a known =>
    rw [inPlaceOf, mentionedMarked] at there
    obtain ⟨other, -, here⟩ := Option.bind_eq_some_iff.mp known
    exact .inr ⟨other, a, here, there⟩
  | rest unknown ns marks parts =>
    rcases memMentioned.mp there with bare | ⟨q, part, x, argument, inner⟩
    · obtain ⟨outermost, alone⟩ := bareParts.mp bare
      rw [alone] at parts
      obtain ⟨p, none_, ⟨same, given⟩, last, whole⟩ := List.forall₂_cons_right_iff.mp parts
      obtain ⟨own, args⟩ := p
      cases same
      cases given
      cases last
      have bare' : r.bareName? = some name := bareParts.mpr ⟨ns.symm.trans outermost, whole⟩
      rw [bare'] at unknown
      exact .inl ⟨bareMentioned bare', unknown⟩
    · obtain ⟨p, mem, -, given⟩ := forall₂Left parts part
      obtain ⟨y, listed, becomes⟩ := forall₂Left given argument
      refine (arguments p mem y listed becomes name inner).imp_left fun left => ?_
      exact ⟨argumentMentioned mem listed left.1, left.2⟩

end TypeRef

def Bindings.Apart (names : List String) (b : Bindings) : Prop :=
  ∀ name a, b.get? name = some a → name ∈ names ∧ a.Avoids names

namespace Bindings
variable {names : List String} {b : Bindings}

theorem apartOfPairs {given : List TypeRef} (avoid : ∀ r ∈ given, r.Avoids names) :
    (ofPairs (names.zip given)).Apart names := by
  intro name a found
  obtain ⟨left, right⟩ := List.of_mem_zip (ofPairsFound _ found)
  exact ⟨left, avoid a right⟩

theorem Apart.bindBare {name : String} {p a : TypeRef} (apart : b.Apart names)
    (open_ : name ∈ names) (avoids : a.Avoids names) :
    (TypeRef.bindBare name p a b).Apart names := by
  rw [TypeRef.bindBare]
  split
  · exact apart
  · split
    · rename_i bound taken
      intro other x found
      rcases Table.putSome found with ⟨rfl, rfl⟩ | old
      · exact ⟨open_, avoids.strip taken⟩
      · exact apart other x old
    · exact apart

end Bindings

namespace TypeRef
variable {names : List String}

theorem apartAll {ps : List TypeRef} (each : ∀ p ∈ ps, ∀ a, Avoids names a → ∀ b : Bindings,
      b.Apart names → (infer names p a b).Apart names) :
    ∀ as : List TypeRef, (∀ a ∈ as, a.Avoids names) → ∀ b : Bindings, b.Apart names →
      (inferAll names ps as b).Apart names := by
  induction ps with
  | nil => exact fun as _ b apart => apart
  | cons p rest ih =>
    intro as avoid b apart
    cases as with
    | nil => exact apart
    | cons a later =>
      rw [inferAll]
      exact ih (fun q mem => each q (List.mem_cons_of_mem _ mem)) later
        (fun x mem => avoid x (List.mem_cons_of_mem _ mem)) _
        (each p List.mem_cons_self a (avoid a List.mem_cons_self) b apart)

theorem apartInfer : ∀ p : TypeRef, ∀ a, Avoids names a → ∀ b : Bindings, b.Apart names →
    (infer names p a b).Apart names := by
  refine byParts fun p arguments a avoids b apart => ?_
  cases bare : p.bareName? with
  | some name =>
    rw [inferBare bare]
    split
    · rename_i open_
      exact apart.bindBare open_ avoids
    · exact apart
  | none =>
    have all := apartAll (arguments p.last (List.mem_append_right _ List.mem_cons_self))
    rw [inferWhole bare]
    obtain ⟨ns, outer, ⟨last, given⟩, marks, link⟩ := p
    show (inferPart names ⟨last, given⟩ a b).Apart names
    rw [inferPart]
    split
    · exact apart
    · split
      · exact all _ avoids.last b apart
      · split
        · split
          · rename_i element found
            refine all [element] ?_ b apart
            exact List.forall_mem_singleton.mpr (avoids.element found)
          · exact apart
        · exact apart

end TypeRef

namespace Member
variable {m made : Member} {b : Bindings}

structure BoundBy (b : Bindings) (m made : Member) : Prop where
  type : List.Forall₂ (TypeRef.Becomes b.get?) m.type.toList made.type.toList
  parameters : List.Forall₂ (fun p q : Parameter =>
    p.type.Becomes b.get? q.type ∧ q = { p with type := q.type }) m.parameters.tail made.parameters
  typeParameters : made.typeParameters =
    m.typeParameters.filter (fun p => !b.contains p.name)

def Dangles (m made : Member) : Prop :=
  ∃ p ∈ made.typeParameters, ∃ c ∈ p.constraints, ∃ name ∈ c.mentioned,
    name ∈ m.own ∧ name ∉ made.own

theorem BoundBy.remains (bound : m.BoundBy b made) {name : String} :
    name ∈ made.own ↔ name ∈ m.own ∧ b.contains name = false := by
  have names : made.own = m.own.filter (fun name => !b.contains name) := by
    rw [own, own, bound.typeParameters, List.filter_map]
    rfl
  rw [names, List.mem_filter, Bool.not_eq_true']

theorem apartBindings {explicit arguments : List TypeRef}
    (avoid : ∀ r ∈ explicit ++ arguments, r.Avoids m.own) :
    (m.bindGenerics explicit arguments).Apart m.own := by
  have given : (Bindings.ofPairs (m.own.zip explicit)).Apart m.own :=
    Bindings.apartOfPairs fun r mem => avoid r (List.mem_append_left _ mem)
  rw [bindGenerics, ← own]
  split
  · exact given
  · refine TypeRef.apartAll (fun p _ => TypeRef.apartInfer p) arguments (fun a mem => ?_) _ given
    exact avoid a (List.mem_append_right _ mem)

theorem BoundBy.closed (bound : m.BoundBy b made) (apart : b.Apart m.own) :
    ∀ r ∈ made.signature, ∀ name ∈ r.mentioned, name ∈ m.own → name ∈ made.own := by
  intro r mem name there open_
  have origin : ∃ s : TypeRef, s.Becomes b.get? r := by
    rcases List.mem_append.mp mem with result | parameter
    · obtain ⟨s, -, becomes⟩ := forall₂Left bound.type result
      exact ⟨s, becomes⟩
    · obtain ⟨q, listed, rfl⟩ := List.mem_map.mp parameter
      obtain ⟨p, -, becomes, -⟩ := forall₂Left bound.parameters listed
      exact ⟨p.type, becomes⟩
  obtain ⟨s, becomes⟩ := origin
  refine bound.remains.mpr ⟨open_, ?_⟩
  rcases TypeRef.mentionedBecomes s becomes name there with ⟨-, unbound⟩ | ⟨other, a, here, inner⟩
  · rw [Table.contains, unbound]
    rfl
  · exact absurd inner ((apart other a here).2 name open_)

theorem BoundBy.dangles (bound : m.BoundBy b made) (apart : b.Apart m.own) :
    m.Dangles made ↔ ∃ p ∈ m.typeParameters, b.contains p.name = false ∧
      ∃ c ∈ p.constraints, ∃ name ∈ c.mentioned, b.contains name = true := by
  have gone : ∀ name, name ∈ m.own ∧ name ∉ made.own ↔ b.contains name = true := by
    intro name
    rw [bound.remains, not_and, Bool.not_eq_false]
    refine ⟨fun both => both.2 both.1, fun kept => ⟨?_, fun _ => kept⟩⟩
    obtain ⟨a, here⟩ := Option.isSome_iff_exists.mp kept
    exact (apart name a here).1
  simp only [Dangles, gone, bound.typeParameters, List.mem_filter, Bool.not_eq_true', and_assoc]

end Member

theorem Member.extensionAccepted {m : Member} (extension : m.isExtension = true) :
    ¬ (m.kind ≠ .method ∨ m.parameters.isEmpty = true) := by
  simp only [Member.isExtension, Bool.and_eq_true, beq_iff_eq, Bool.not_eq_true'] at extension
  rintro (other | none_)
  · exact other extension.1.1.1
  · exact Bool.false_ne_true (extension.2.symm.trans none_)

/-- Where nothing that is given mentions a type parameter of the extension method, binding yields a
member whose signature mentions no type parameter that is gone. A constraint does exactly if it was
written to mention one that is bound, while its own is not. -/
theorem extensionsBound {m : Member} (extension : m.isExtension = true) (receiver : Definition)
    (explicit arguments : List TypeRef)
    (avoid : ∀ r ∈ receiver.receiverArgument :: (explicit ++ arguments), r.Avoids m.own) :
    let b := m.bindGenerics explicit (receiver.receiverArgument :: arguments)
    ∃ bound, BoundMethod.of receiver m explicit arguments = .ok bound ∧
      m.BoundBy b bound.method ∧
      (∀ r ∈ bound.method.signature, ∀ name ∈ r.mentioned,
        name ∈ m.own → name ∈ bound.method.own) ∧
      (m.Dangles bound.method ↔ ∃ p ∈ m.typeParameters, b.contains p.name = false ∧
        ∃ c ∈ p.constraints, ∃ name ∈ c.mentioned, b.contains name = true) := by
  intro b
  have apart : b.Apart m.own := by
    refine Member.apartBindings fun r mem => avoid r ?_
    simp only [List.mem_append, List.mem_cons] at mem ⊢
    tauto
  rw [BoundMethod.of, if_neg (Member.extensionAccepted extension)]
  refine ⟨_, rfl, ?_⟩
  have bound : m.BoundBy b
      { m.substitute b with
        parameters := (m.substitute b).parameters.tail
        typeParameters := m.typeParameters.filter (fun p => !b.contains p.name)
        methodModifiers := m.methodModifiers.union MethodModifiers.wasExtended
        declaring := some receiver.fullName } := by
    refine ⟨?_, ?_, rfl⟩
    · rw [Member.substitute]
      cases m.type with
      | none => exact .nil
      | some r => exact .cons (TypeRef.becomesSubstitute b r) .nil
    · rw [Member.substitute]
      dsimp only
      rw [← List.map_tail, List.forall₂_map_right_iff]
      exact List.forall₂_same.mpr fun p _ => ⟨TypeRef.becomesSubstitute b p.type, rfl⟩
  exact ⟨bound, bound.closed apart, bound.dangles apart⟩

section Calls

def itemType : Definition :=
  .unbound (.declared ((Blueprint.bare "App.Item" .classType).build none (Stamp.at 0)))

def limited (limit : TypeRef) : Member :=
  { (Member.method "Limit").asExtension with
    type := some (TypeRef.named "T")
    parameters := [⟨"value", TypeRef.named "T", ⟨0⟩⟩,
      ⟨"others", TypeRef.generic "IList" [TypeRef.named "U"], ⟨0⟩⟩]
    typeParameters := [⟨"T", []⟩, ⟨"U", [TypeRef.generic "IList" [limit]]⟩] }

theorem extensionsBoundLimited :
    ∃ bound, BoundMethod.of itemType (limited (TypeRef.named "U")) [] [] = .ok bound ∧
      bound.method.own = ["U"] ∧ (∀ r ∈ bound.method.signature, "T" ∉ r.mentioned) ∧
      ¬ (limited (TypeRef.named "U")).Dangles bound.method := by
  obtain ⟨bound, made, parts, closed, dangles⟩ :=
    extensionsBound (m := limited (TypeRef.named "U")) (by decide +kernel) itemType [] []
      (by decide +kernel)
  have left : bound.method.own = ["U"] := by
    rw [Member.own, parts.typeParameters]
    decide +kernel
  refine ⟨bound, made, left, fun r mem there => ?_, fun dangling => ?_⟩
  · have kept := closed r mem "T" there (by decide +kernel)
    rw [left] at kept
    exact absurd kept (by decide)
  · revert dangling
    rw [dangles]
    decide +kernel

theorem extensionsDangle :
    itemType.receiverArgument.mentioned = [] ∧
    (limited (TypeRef.named "T")).isExtension = true ∧
    ∃ bound, BoundMethod.of itemType (limited (TypeRef.named "T")) [] [] = .ok bound ∧
      bound.method.own = ["U"] ∧ ∃ p ∈ bound.method.typeParameters, ∃ c ∈ p.constraints,
        "T" ∈ c.mentioned := by
  refine ⟨by decide +kernel, by decide +kernel, _, rfl, by decide +kernel, ?_⟩
  exact ⟨⟨"U", [TypeRef.generic "IList" [TypeRef.named "T"]]⟩, List.mem_cons_self, _,
    List.mem_cons_self, by decide +kernel⟩

end Calls
end TypeScope
