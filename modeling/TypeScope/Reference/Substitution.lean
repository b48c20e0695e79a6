import TypeScope.Reference
import TypeScope.Table

/-! Putting arguments in the place of type parameters. A mention of a parameter is a bare name;
the argument takes over the marks of the mention, behind its own. -/
namespace TypeScope

abbrev Bindings := Table String TypeRef

def Bindings.ofPairs (pairs : List (String × TypeRef)) : Bindings :=
  pairs.foldl (fun b p => b.put p.1 p.2) Table.empty

def Marks.behind (argument mention : Marks) : Marks where
  ranks := argument.ranks ++ mention.ranks
  pointers := argument.pointers + mention.pointers
  arrayPointers := argument.arrayPointers + mention.arrayPointers
  nullable := argument.nullable || mention.nullable
  byRef := argument.byRef || mention.byRef

namespace TypeRef

def bound? (b : Bindings) (r : TypeRef) : Option TypeRef := r.bareName?.bind b.get?

def inPlaceOf (argument mention : TypeRef) : TypeRef :=
  { argument with marks := argument.marks.behind mention.marks, link := none }

mutual
def replace (b : Bindings) : TypeRef → TypeRef
  | ⟨ns, outer, last, marks, link⟩ =>
      let mention : TypeRef := ⟨ns, outer, last, marks, link⟩
      match bound? b mention with
      | some argument => argument.inPlaceOf mention
      | none => ⟨ns, replaceParts b outer, replacePart b last, marks, none⟩
  termination_by structural r => r

def replacePart (b : Bindings) : TypePart → TypePart
  | ⟨name, arguments⟩ => ⟨name, replaceAll b arguments⟩
  termination_by structural p => p

def replaceParts (b : Bindings) : List TypePart → List TypePart
  | [] => []
  | p :: ps => replacePart b p :: replaceParts b ps
  termination_by structural ps => ps

def replaceAll (b : Bindings) : List TypeRef → List TypeRef
  | [] => []
  | r :: rs => replace b r :: replaceAll b rs
  termination_by structural rs => rs
end

theorem replacePartsMap (b : Bindings) (ps : List TypePart) :
    replaceParts b ps = ps.map (replacePart b) := by
  induction ps with
  | nil => rfl
  | cons p ps ih => simp [replaceParts, ih]

theorem replaceAllMap (b : Bindings) (rs : List TypeRef) :
    replaceAll b rs = rs.map (replace b) := by
  induction rs with
  | nil => rfl
  | cons r rs ih => simp [replaceAll, ih]

def substitute (b : Bindings) (r : TypeRef) : TypeRef :=
  if b.entries.isEmpty then r else r.replace b

theorem substituteNone (r : TypeRef) : r.substitute Table.empty = r := rfl

end TypeRef
end TypeScope
