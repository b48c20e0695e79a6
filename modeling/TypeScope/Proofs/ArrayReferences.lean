import TypeScope.Proofs.InterchangedLookups

/-! Arrays and their elements. A rank is added behind the others and taken from the front, and
pointers behind the ranks are dropped with it; so the element of an array is what the array was
made of exactly if all ranks are alike and nothing stands behind them. -/
namespace TypeScope

theorem tailAppend {α : Type} (last : α) (xs : List α) :
    (xs ++ [last]).tail = xs ↔ ∀ x ∈ xs, x = last := by
  have shifted : ∀ (rest : List α) (x : α),
      rest ++ [last] = x :: rest ↔ ∀ y ∈ x :: rest, y = last := by
    intro rest
    induction rest with
    | nil => simp [eq_comm]
    | cons y rest ih =>
      intro x
      rw [List.cons_append, List.cons.injEq, ih, List.forall_mem_cons, List.forall_mem_cons,
        List.forall_mem_cons]
      constructor
      · rintro ⟨rfl, first, others⟩
        exact ⟨first, first, others⟩
      · rintro ⟨first, second, others⟩
        exact ⟨second.trans first.symm, second, others⟩
  cases xs with
  | nil => simp
  | cons x rest => exact shifted rest x

namespace TypeRef

def Stacks (r : TypeRef) : Prop := r.marks.arrayPointers = 0 ∧ ∀ extra ∈ r.marks.ranks, extra = 0

theorem spellMarked {a b : TypeRef} (style : Spelling) (ns : a.ns = b.ns)
    (parts : a.parts = b.parts) : a.spell style = b.spell style ↔ Marks.Alike a.marks b.marks := by
  rw [spellJoined, spellJoined, ns, parts, ← String.toList_inj, String.toList_append,
    String.toList_append, List.append_cancel_left_eq, Marks.textChars, Marks.textChars]
  refine ⟨fun same => ?_, Marks.charsAlike⟩
  have nothing : GoesOn Marks.closers [] := fun c head => nomatch head
  exact (Marks.charsUnique nothing nothing (congrArg (· ++ []) same)).1

def unranked (r : TypeRef) : TypeRef :=
  { r with
    marks := { r.marks with ranks := (r.marks.ranks ++ [0]).tail, arrayPointers := 0 }
    link := none }

theorem elementArray (r : TypeRef) (link : Option Stamp) :
    (r.arrayOf.linkedTo link).element? = some r.unranked := by
  obtain ⟨ns, outer, last, ⟨ranks, pointers, arrayPointers, nullable, byRef⟩, own⟩ := r
  cases ranks <;> rfl

theorem unrankedAlike (r : TypeRef) : Marks.Alike r.unranked.marks r.marks ↔ r.Stacks := by
  constructor
  · rintro ⟨-, -, ranks, pointers⟩
    refine ⟨?_, (tailAppend 0 r.marks.ranks).mp ranks⟩
    split at pointers
    · have sum : r.marks.pointers.toNat + (0 : UInt32).toNat =
          r.marks.pointers.toNat + r.marks.arrayPointers.toNat := pointers
      exact UInt32.toNat_inj.mp (Nat.add_left_cancel sum).symm
    · exact pointers.2.symm
  · rintro ⟨behind, ranks⟩
    refine ⟨rfl, rfl, (tailAppend 0 r.marks.ranks).mpr ranks, ?_⟩
    split
    · rw [behind]
      rfl
    · exact ⟨rfl, behind.symm⟩

theorem unrankedSpelled (style : Spelling) (r : TypeRef) :
    r.unranked.spell style = r.spell style ↔ r.Stacks :=
  (spellMarked (a := r.unranked) (b := r) style rfl rfl).trans r.unrankedAlike

theorem unrankedSame (r : TypeRef) : r.unranked.same r = true ↔ r.Stacks :=
  beq_iff_eq.trans (r.unrankedSpelled .canonical)

end TypeRef

section Arrays
open Query

theorem Definition.arrayNamed (a : ArrayType) :
    (Definition.unbound (.array a)).fullName = a.element.shown ++ "[]" := arrayFullName a

theorem Query.arrayMade (id : ScopeId) (r : TypeRef) (w : Workspace) :
    ∃ stamp file, ((arrayOf id r).run w).1.1 = .unbound (.array ⟨stamp, r, file⟩) := ⟨_, _, rfl⟩

/-- The element of the array of a reference is the reference again, and the type that stands for the
array is found again, element and name included, through the reference to it, exactly if the
reference stacks. An array type it is in any case, in every scope and whatever state. -/
theorem arraysReturn (r : TypeRef) :
    (∃ e, r.arrayOf.element? = some e ∧ (e.same r = true ↔ r.Stacks)) ∧
    ∀ (w v : Workspace) (id other : ScopeId),
      let array := ((arrayOf id r).run w).1.1
      ∃ a, ((lookup other (v.referenceTo array)).run v).1.1 = some (.unbound (.array a)) ∧
        (a.element.same r = true ↔ r.Stacks) ∧
        ((Definition.unbound (.array a)).fullName = array.fullName ↔ r.Stacks) := by
  refine ⟨⟨r.unranked, r.elementArray r.arrayOf.link, r.unrankedSame⟩, fun w v id other => ?_⟩
  obtain ⟨stamp, file, made⟩ := arrayMade id r w
  have mention : v.referenceTo (.unbound (.array ⟨stamp, r, file⟩)) =
      r.arrayOf.linkedTo (some stamp) := rfl
  obtain ⟨stamp', file', found⟩ := arrayAnswer other v (r.elementArray (some stamp))
  dsimp only
  rw [made, mention]
  refine ⟨_, found, r.unrankedSame, ?_⟩
  rw [Definition.arrayNamed, Definition.arrayNamed, String.append_left_inj]
  exact r.unrankedSpelled .source

def numbers (ranks : List Nat) (behind : UInt32) : TypeRef :=
  { TypeRef.named "System.Int32" with marks := ⟨ranks, 0, behind, false, false⟩ }

theorem arraysChange :
    (numbers [1] 0).arrayOf.element?.map TypeRef.canonical = some "System.Int32[]" ∧
    (numbers [1] 0).canonical = "System.Int32[,]" ∧
    (numbers [0] 1).arrayOf.element?.map TypeRef.canonical = some "System.Int32[]" ∧
    (numbers [0] 1).canonical = "System.Int32[]*" ∧
    ∀ (w v : Workspace) (id other : ScopeId),
      let array := ((arrayOf id (numbers [1] 0)).run w).1.1
      array.fullName = "System.Int32[,][]" ∧
        ((lookup other (v.referenceTo array)).run v).1.1.map Definition.fullName =
          some "System.Int32[][]" := by
  refine ⟨by decide +kernel, by decide +kernel, by decide +kernel, by decide +kernel,
    fun w v id other => ?_⟩
  obtain ⟨stamp, file, made⟩ := arrayMade id (numbers [1] 0) w
  obtain ⟨stamp', file', found⟩ := arrayAnswer other v ((numbers [1] 0).elementArray (some stamp))
  have mention : v.referenceTo (.unbound (.array ⟨stamp, numbers [1] 0, file⟩)) =
      (numbers [1] 0).arrayOf.linkedTo (some stamp) := rfl
  have texts : (numbers [1] 0).shown ++ "[]" = "System.Int32[,][]" ∧
      (numbers [1] 0).unranked.shown ++ "[]" = "System.Int32[][]" := by decide +kernel
  dsimp only
  rw [made, mention, found, Option.map_some, Definition.arrayNamed, Definition.arrayNamed]
  exact ⟨texts.1, congrArg some texts.2⟩

end Arrays
end TypeScope
