import TypeScope.Fault
import TypeScope.Stamp
import TypeScope.Text.Arity
import TypeScope.Text.Identifier

/-! Written mentions of types. A reference records what was written, not what it means; its
canonical form is what caches and comparisons go by. It may carry a link to the definition a
lookup found for it, which takes no part in comparisons. -/
namespace TypeScope

structure Marks where
  ranks : List Nat
  pointers : UInt32
  arrayPointers : UInt32
  nullable : Bool
  byRef : Bool
  deriving DecidableEq, Repr

def Marks.none : Marks := ⟨[], 0, 0, false, false⟩

def repeated (c : Char) (n : Nat) : String := String.ofList (List.replicate n c)

def rankText (extra : Nat) : String := "[" ++ repeated ',' extra ++ "]"

def Marks.text (m : Marks) : String :=
  (if m.nullable then "?" else "") ++ repeated '*' m.pointers.toNat ++
    String.join (m.ranks.map rankText) ++ repeated '*' m.arrayPointers.toNat ++
    (if m.byRef then "&" else "")

mutual
structure TypeRef where
  ns : String
  outer : List TypePart
  last : TypePart
  marks : Marks
  link : Option Stamp

structure TypePart where
  name : String
  arguments : List TypeRef
end

deriving instance Repr for TypeRef, TypePart

def TypePart.of (name : String) (arguments : List TypeRef) : TypePart :=
  ⟨Text.leadingIdentifier name, arguments⟩

def TypePart.decorated (p : TypePart) : String := Arity.decorate p.name p.arguments.length

structure Spelling where
  arityMarks : Bool
  separator : String

def Spelling.canonical : Spelling := ⟨true, ","⟩
def Spelling.source : Spelling := ⟨false, ", "⟩

namespace TypeRef

def parts (r : TypeRef) : List TypePart := r.outer ++ [r.last]

def name (r : TypeRef) : String := r.last.name

def arguments (r : TypeRef) : List TypeRef := r.last.arguments

def allArguments (r : TypeRef) : List TypeRef := r.parts.flatMap TypePart.arguments

def isGeneric (r : TypeRef) : Bool := r.parts.any (fun p => !p.arguments.isEmpty)

def fullName (r : TypeRef) : String := Dotted.joinAll r.ns (r.parts.map TypePart.name)

def decoratedName (r : TypeRef) : String := Dotted.joinAll r.ns (r.parts.map TypePart.decorated)

mutual
def spell (s : Spelling) : TypeRef → String
  | ⟨ns, outer, last, marks, _⟩ =>
      Dotted.join (Dotted.joinAll ns (spellParts s outer)) (spellPart s last) ++ marks.text
  termination_by structural r => r

def spellPart (s : Spelling) : TypePart → String
  | ⟨name, arguments⟩ =>
      if arguments.isEmpty then name
      else
        (if s.arityMarks then Arity.decorate name arguments.length else name) ++
          "<" ++ s.separator.intercalate (spellAll s arguments) ++ ">"
  termination_by structural p => p

def spellParts (s : Spelling) : List TypePart → List String
  | [] => []
  | p :: ps => spellPart s p :: spellParts s ps
  termination_by structural ps => ps

def spellAll (s : Spelling) : List TypeRef → List String
  | [] => []
  | r :: rs => spell s r :: spellAll s rs
  termination_by structural rs => rs
end

theorem spellPartsMap (s : Spelling) (ps : List TypePart) :
    spellParts s ps = ps.map (spellPart s) := by
  induction ps with
  | nil => rfl
  | cons p ps ih => simp [spellParts, ih]

theorem spellAllMap (s : Spelling) (rs : List TypeRef) : spellAll s rs = rs.map (spell s) := by
  induction rs with
  | nil => rfl
  | cons r rs ih => simp [spellAll, ih]

def canonical (r : TypeRef) : String := r.spell .canonical

def shown (r : TypeRef) : String := r.spell .source

def same (a b : TypeRef) : Bool := a.canonical == b.canonical

def listed (rs : List TypeRef) : String := ",".intercalate (rs.map canonical)

def unlinked (r : TypeRef) : TypeRef := { r with link := none }

def linkedTo (r : TypeRef) (link : Option Stamp) : TypeRef := { r with link := link }

theorem canonicalLink (r : TypeRef) (link : Option Stamp) :
    (r.linkedTo link).canonical = r.canonical := by
  cases r; rfl

def generic (fullName : String) (arguments : List TypeRef) : TypeRef :=
  let (ns, name) := Dotted.split fullName
  ⟨ns, [], TypePart.of name arguments, Marks.none, none⟩

def named (fullName : String) : TypeRef := generic fullName []

def ofChain (ns : String) : TypePart → List TypePart → TypeRef
  | first, [] => ⟨ns, [], first, Marks.none, none⟩
  | first, next :: rest =>
      let inner := ofChain ns next rest
      { inner with outer := first :: inner.outer }

def ofParts (ns : String) : List TypePart → Except Fault TypeRef
  | [] => .error .emptyReference
  | first :: rest => .ok (ofChain ns first rest)

theorem ofChainParts (ns : String) (first : TypePart) (rest : List TypePart) :
    (ofChain ns first rest).parts = first :: rest := by
  induction rest generalizing first with
  | nil => rfl
  | cons next rest ih =>
    have inner := ih next
    simp only [parts] at inner
    simp [ofChain, parts, inner]

theorem ofPartsFails {ns : String} {ps : List TypePart} :
    ofParts ns ps = .error .emptyReference ↔ ps = [] := by
  cases ps <;> simp [ofParts]

def withArguments (r : TypeRef) (arguments : List TypeRef) : TypeRef :=
  { r with last := { r.last with arguments := arguments } }

def bareName? (r : TypeRef) : Option String :=
  if r.ns = "" ∧ r.outer.isEmpty ∧ r.last.arguments.isEmpty then some r.last.name else none

def arrayOf (r : TypeRef) : TypeRef :=
  { r with marks := { r.marks with ranks := r.marks.ranks ++ [0] }, link := none }

def element? (r : TypeRef) : Option TypeRef :=
  match r.marks.ranks with
  | [] => none
  | _ :: rest => some { r with marks := { r.marks with ranks := rest, arrayPointers := 0 }, link := none }

theorem elementNone {r : TypeRef} : r.element? = none ↔ r.marks.ranks = [] := by
  cases r with
  | mk ns outer last marks link => cases marks with
    | mk ranks _ _ _ _ => cases ranks <;> simp [element?]

def rank? (r : TypeRef) (i : Nat) : Option Nat := r.marks.ranks[i]?

def withRankCount (r : TypeRef) (n : Nat) : TypeRef :=
  let ranks := r.marks.ranks
  { r with marks := { r.marks with ranks := ranks.take n ++ List.replicate (n - ranks.length) 0 } }

def withRank (r : TypeRef) (i extra : Nat) : TypeRef :=
  { r with marks := { r.marks with ranks := r.marks.ranks.set i extra } }

def withPointers (r : TypeRef) (depth : UInt32) : TypeRef :=
  { r with marks := { r.marks with pointers := depth } }

def withArrayPointers (r : TypeRef) (depth : UInt32) : TypeRef :=
  { r with marks := { r.marks with arrayPointers := depth } }

def withNullable (r : TypeRef) (on : Bool) : TypeRef :=
  { r with marks := { r.marks with nullable := on } }

def withByRef (r : TypeRef) (on : Bool) : TypeRef :=
  { r with marks := { r.marks with byRef := on } }

def debug (r : TypeRef) : String := "TypeReference(" ++ r.canonical ++ ")"

end TypeRef
end TypeScope
