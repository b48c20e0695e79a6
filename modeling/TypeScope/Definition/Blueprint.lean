import TypeScope.Definition

/-! Types as a reader of source hands them over, and the declared types built from them. A nested
type takes its namespace and the start of its full name from the types around it. -/
namespace TypeScope

structure Blueprint where
  fullName : String
  kind : ClassKind
  modifiers : Modifiers
  typeParameters : List TypeParameter
  base : Option TypeRef
  interfaces : List TypeRef
  members : List Member
  nested : List Blueprint
  location : Location

namespace Blueprint

def bare (fullName : String) (kind : ClassKind) : Blueprint where
  fullName := fullName
  kind := kind
  modifiers := Modifiers.publicBit
  typeParameters := []
  base := none
  interfaces := []
  members := []
  nested := []
  location := Location.unknown

structure Around where
  ns : String
  outer : Option String

mutual
def buildIn (file : Option FileId) (around : Option Around) (stamp : Stamp) :
    Blueprint → Declared
  | ⟨fullName, kind, modifiers, typeParameters, base, interfaces, members, nested, location⟩ =>
      let (ns, name) := Dotted.split fullName
      let place : Around := around.getD ⟨ns, none⟩
      let shell : Body :=
        ⟨place.ns, name, place.outer, kind, modifiers, typeParameters, base, interfaces, [], file,
          location⟩
      let full := shell.fullName
      { stamp := stamp
        body := { shell with members := members.map (fun m => { m with declaring := some full }) }
        nested := buildAll file (some ⟨place.ns, some full⟩) stamp 0 nested
        parts := [] }
  termination_by structural b => b

def buildAll (file : Option FileId) (around : Option Around) (stamp : Stamp) (i : Nat) :
    List Blueprint → List Declared
  | [] => []
  | b :: rest =>
      buildIn file around (stamp.child i) b :: buildAll file around stamp (i + 1) rest
  termination_by structural bs => bs
end

def build (file : Option FileId) (stamp : Stamp) (b : Blueprint) : Declared :=
  buildIn file none stamp b

end Blueprint
end TypeScope
