import TypeScope.Member
import TypeScope.Text.Name

/-! Definitions of types. A declared type comes from source, whole or in partial fragments; an
array type and a placeholder for a type parameter stand in for types nobody wrote down; an
instantiation binds an open type to arguments. -/
namespace TypeScope

def objectName : String := "System.Object"
def arrayRootName : String := "System.Array"
def indexTypeName : String := "System.Int32"
def indexerName : String := "Item"
def listName : String := "System.Collections.Generic.IList"

structure Body where
  ns : String
  name : String
  outer : Option String
  kind : ClassKind
  modifiers : Modifiers
  typeParameters : List TypeParameter
  base : Option TypeRef
  interfaces : List TypeRef
  members : List Member
  file : Option FileId
  location : Location
  deriving Repr

namespace Body

def fullName (b : Body) : String :=
  match b.outer with
  | some outer => outer ++ "." ++ b.name
  | none => Dotted.join b.ns b.name

def arity (b : Body) : Nat := b.typeParameters.length

def bases (b : Body) : List TypeRef := b.base.toList ++ b.interfaces

def ofKind (b : Body) (kind : MemberKind) : List Member := b.members.filter (fun m => m.kind == kind)

def substitute (bindings : Bindings) (b : Body) : Body :=
  { b with
    typeParameters := []
    base := b.base.map (TypeRef.substitute bindings)
    interfaces := b.interfaces.map (TypeRef.substitute bindings)
    members := b.members.map (Member.substitute bindings) }

end Body

structure Declared where
  stamp : Stamp
  body : Body
  nested : List Declared
  parts : List Declared

deriving instance Repr for Declared

namespace Declared

def fullName (d : Declared) : String := d.body.fullName

def name (d : Declared) : String := d.body.name

def ns (d : Declared) : String := d.body.ns

def arity (d : Declared) : Nat := d.body.arity

def decoratedName (d : Declared) : String := Arity.decorate d.fullName d.arity

def isCompound (d : Declared) : Bool := !d.parts.isEmpty

def is (a b : Declared) : Bool := a.stamp == b.stamp

def findAmong (types : List Declared) (rule : CaseRule) (name : String) (arity : Nat) :
    Option Declared :=
  types.find? (fun d => d.arity == arity && Name.same rule d.name name)

def findNested (d : Declared) (rule : CaseRule) (name : String) (arity : Nat) : Option Declared :=
  findAmong d.nested rule name arity

def mainPart? (d : Declared) (main : Nat) : Option Declared := d.parts[min main (d.parts.length - 1)]?

end Declared

structure ArrayType where
  stamp : Stamp
  element : TypeRef
  file : Option FileId
  deriving Repr

namespace ArrayType

def fullName (a : ArrayType) : String := a.element.shown ++ "[]"

def indexer (a : ArrayType) : Member :=
  { Member.indexer indexerName a.element
      [⟨"index", TypeRef.named indexTypeName, ⟨0⟩⟩] with
    modifiers := Modifiers.publicBit
    declaring := some a.fullName }

def body (a : ArrayType) : Body where
  ns := a.element.ns
  name := Dotted.relative a.element.ns a.fullName
  outer := none
  kind := .classType
  modifiers := Modifiers.publicBit
  typeParameters := []
  base := some (TypeRef.named arrayRootName)
  interfaces := [TypeRef.generic listName [a.element]]
  members := [a.indexer]
  file := a.file
  location := Location.unknown

end ArrayType

structure Placeholder where
  stamp : Stamp
  owner : Declared
  parameter : TypeParameter
  file : Option FileId
  location : Location
  deriving Repr

namespace Placeholder

def fullName (p : Placeholder) : String := p.parameter.name

def body (p : Placeholder) : Body where
  ns := ""
  name := p.parameter.name
  outer := none
  kind := .classType
  modifiers := Modifiers.empty
  typeParameters := []
  base := none
  interfaces := p.parameter.constraints
  members := []
  file := p.file
  location := p.location

/-- Shares the start of the owner's instantiation keys, so that both are dropped together. -/
def keyFor (owner parameter : String) : String := owner ++ "[!" ++ parameter ++ "]"

def key (p : Placeholder) : String := keyFor p.owner.fullName p.parameter.name

end Placeholder

inductive OpenType where
  | declared (type : Declared)
  | array (type : ArrayType)
  | placeholder (type : Placeholder)
  deriving Repr

namespace OpenType

def stamp : OpenType → Stamp
  | declared d => d.stamp
  | array a => a.stamp
  | placeholder p => p.stamp

def body : OpenType → Body
  | declared d => d.body
  | array a => a.body
  | placeholder p => p.body

def nested : OpenType → List Declared
  | declared d => d.nested
  | array _ => []
  | placeholder _ => []

def declaring : OpenType → Option String
  | declared d => d.body.outer
  | array _ => none
  | placeholder p => some p.owner.fullName

def element? : OpenType → Option TypeRef
  | array a => some a.element
  | _ => none

def fullName (o : OpenType) : String := o.body.fullName

def arity (o : OpenType) : Nat := o.body.arity

end OpenType

structure Instantiation where
  stamp : Stamp
  openType : OpenType
  arguments : List TypeRef
  body : Body
  deriving Repr

namespace Instantiation

def bindings (o : OpenType) (arguments : List TypeRef) : Bindings :=
  Bindings.ofPairs ((o.body.typeParameters.map TypeParameter.name).zip arguments)

def of (stamp : Stamp) (o : OpenType) (body : Body) (arguments : List TypeRef) : Instantiation :=
  ⟨stamp, o, arguments, body.substitute (bindings o arguments)⟩

/-- The arity of the open type is not part of the key. -/
def keyFor (fullName : String) (arguments : List TypeRef) : String :=
  fullName ++ "[" ++ TypeRef.listed arguments ++ "]"

def key (i : Instantiation) : String := keyFor i.openType.fullName i.arguments

end Instantiation

inductive Definition where
  | unbound (type : OpenType)
  | bound (type : Instantiation)
  deriving Repr

namespace Definition

def ofDeclared (d : Declared) : Definition := unbound (.declared d)

def stamp : Definition → Stamp
  | unbound o => o.stamp
  | bound i => i.stamp

def is (a b : Definition) : Bool := a.stamp == b.stamp

def body : Definition → Body
  | unbound o => o.body
  | bound i => i.body

def openType : Definition → OpenType
  | unbound o => o
  | bound i => i.openType

def nested (d : Definition) : List Declared := d.openType.nested

def declaring (d : Definition) : Option String := d.openType.declaring

def element? (d : Definition) : Option TypeRef := d.openType.element?

def ns (d : Definition) : String := d.body.ns

def name (d : Definition) : String := d.body.name

def fullName (d : Definition) : String := d.openType.fullName

def arity (d : Definition) : Nat := d.openType.arity

def decoratedName (d : Definition) : String := Arity.decorate d.fullName d.arity

def isBound : Definition → Bool
  | bound _ => true
  | unbound _ => false

def compound? : Definition → Option Declared
  | unbound (.declared d) => if d.isCompound then some d else none
  | _ => none

def placeholder? : Definition → Option Placeholder
  | unbound (.placeholder p) => some p
  | _ => none

def findNested (d : Definition) (rule : CaseRule) (name : String) (arity : Nat) : Option Declared :=
  Declared.findAmong d.nested rule name arity

end Definition

namespace TypeRef

def chainOf (ns fullName : String) : TypeRef :=
  match Dotted.segments (Dotted.relative ns fullName) with
  | [] => ofChain ns (TypePart.of "" []) []
  | first :: rest => ofChain ns (TypePart.of first []) (rest.map (fun s => TypePart.of s []))

def forDefinition (d : Definition) : TypeRef :=
  let mention :=
    match d.element? with
    | some element => element.arrayOf
    | none =>
        match d with
        | .bound i => (chainOf i.openType.body.ns i.openType.fullName).withArguments i.arguments
        | .unbound (.placeholder p) => named p.parameter.name
        | .unbound o =>
            (chainOf o.body.ns o.fullName).withArguments
              (o.body.typeParameters.map (fun (p : TypeParameter) => named p.name))
  mention.linkedTo (some d.stamp)

end TypeRef
end TypeScope
