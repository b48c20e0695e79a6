import TypeScope.Modifier
import TypeScope.Place
import TypeScope.Reference.Substitution

/-! Members of types: fields, properties, methods and events. -/
namespace TypeScope

structure TypeParameter where
  name : String
  constraints : List TypeRef
  deriving Repr

structure Parameter where
  name : String
  type : TypeRef
  modifiers : ParameterModifiers
  deriving Repr

inductive MemberKind where
  | field
  | property
  | method
  | event
  deriving DecidableEq, Repr

structure Member where
  name : String
  kind : MemberKind
  modifiers : Modifiers
  type : Option TypeRef
  parameters : List Parameter
  typeParameters : List TypeParameter
  methodModifiers : MethodModifiers
  propertyModifiers : PropertyModifiers
  declaring : Option String
  location : Location
  deriving Repr

namespace Member

def plain (kind : MemberKind) (name : String) (type : Option TypeRef) : Member where
  name := name
  kind := kind
  modifiers := Modifiers.empty
  type := type
  parameters := []
  typeParameters := []
  methodModifiers := MethodModifiers.empty
  propertyModifiers := PropertyModifiers.empty
  declaring := none
  location := Location.unknown

def field (name : String) (type : TypeRef) : Member := plain .field name (some type)

def event (name : String) (type : TypeRef) : Member := plain .event name (some type)

def method (name : String) : Member := plain .method name none

def property (name : String) (type : TypeRef) : Member :=
  { plain .property name (some type) with
    propertyModifiers := PropertyModifiers.hasGet.union PropertyModifiers.hasSet }

def indexer (name : String) (type : TypeRef) (parameters : List Parameter) : Member :=
  let accessor := property name type
  { accessor with
    propertyModifiers := accessor.propertyModifiers.union PropertyModifiers.isIndexer
    parameters := parameters }

def asExtension (m : Member) : Member :=
  { m with methodModifiers := m.methodModifiers.union MethodModifiers.extension }

def isExtension (m : Member) : Bool :=
  m.kind == .method && m.methodModifiers.has MethodModifiers.extension &&
    !m.methodModifiers.has MethodModifiers.wasExtended && !m.parameters.isEmpty

def isIndexer (m : Member) : Bool := m.propertyModifiers.has PropertyModifiers.isIndexer

def isStatic (m : Member) : Bool := m.modifiers.has Modifiers.staticBit

def substitute (b : Bindings) (m : Member) : Member :=
  { m with
    type := m.type.map (TypeRef.substitute b)
    parameters := m.parameters.map (fun p => { p with type := p.type.substitute b }) }

end Member
end TypeScope
