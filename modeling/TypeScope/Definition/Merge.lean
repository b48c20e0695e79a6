import TypeScope.Definition

/-! One logical type from the fragments that declare it. A lone fragment is the type itself;
several are united, their nested types among them. -/
namespace TypeScope.Declared

mutual
def height : Declared → Nat
  | ⟨_, _, nested, _⟩ => heights nested
  termination_by structural d => d

def heights : List Declared → Nat
  | [] => 0
  | d :: rest => max (height d + 1) (heights rest)
  termination_by structural ds => ds
end

def withoutRepeats : List TypeRef → List TypeRef
  | [] => []
  | r :: rest => r :: (withoutRepeats rest).filter (fun later => !later.same r)

def unitedBody (first : Declared) (rest : List Declared) : Body :=
  let bodies := (first :: rest).map Declared.body
  { ns := first.body.ns
    name := first.body.name
    outer := first.body.outer
    kind := first.body.kind
    modifiers := bodies.foldl (fun m b => m.union b.modifiers) Modifiers.empty
    typeParameters :=
      ((bodies.map Body.typeParameters).find? (fun ps => !ps.isEmpty)).getD []
    base := bodies.findSome? Body.base
    interfaces := withoutRepeats (bodies.flatMap Body.interfaces)
    members := bodies.flatMap Body.members
    file := first.body.file
    location := first.body.location }

def nestedGroups (fragments : List Declared) : List (List Declared) :=
  (Table.gather (fun d => (d.fullName, d.arity)) (fragments.flatMap Declared.nested)).values

def uniteTo : Nat → Stamp → List Declared → Option Declared
  | _, _, [] => none
  | _, _, [only] => some only
  | 0, stamp, first :: rest => some ⟨stamp, unitedBody first rest, [], first :: rest⟩
  | depth + 1, stamp, first :: rest =>
      let groups := (nestedGroups (first :: rest)).zipIdx
      some
        { stamp := stamp
          body := unitedBody first rest
          nested := groups.filterMap (fun g => uniteTo depth (stamp.child g.2) g.1)
          parts := first :: rest }

def unite (stamp : Stamp) (fragments : List Declared) : Option Declared :=
  uniteTo (heights fragments) stamp fragments

theorem uniteAlone (stamp : Stamp) (d : Declared) : unite stamp [d] = some d := by
  simp [unite, uniteTo]

theorem uniteParts {stamp : Stamp} {fragments : List Declared} {d : Declared}
    (h : unite stamp fragments = some d) :
    fragments = [d] ∨ 2 ≤ fragments.length ∧ d.parts = fragments := by
  unfold unite at h
  match fragments, h with
  | [only], h => simp [uniteTo] at h; simp [h]
  | first :: second :: rest, h =>
    right
    refine ⟨by simp, ?_⟩
    cases depth : heights (first :: second :: rest) with
    | zero => simp only [depth, uniteTo, Option.some.injEq] at h; simp [← h]
    | succ n => simp only [depth, uniteTo, Option.some.injEq] at h; simp [← h]

end TypeScope.Declared
