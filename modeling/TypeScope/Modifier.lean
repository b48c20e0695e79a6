import TypeScope.Fault

/-! Flag words of declarations and the accessibility they express. Unknown bits are kept. -/
namespace TypeScope

inductive ClassKind where
  | classType
  | interfaceType
  | structType
  | enumType
  | delegateType
  deriving DecidableEq, Repr

structure Modifiers where
  bits : UInt32
  deriving DecidableEq, Repr

namespace Modifiers

def empty : Modifiers := ⟨0⟩
def privateBit : Modifiers := ⟨0x0001⟩
def internalBit : Modifiers := ⟨0x0002⟩
def protectedBit : Modifiers := ⟨0x0004⟩
def publicBit : Modifiers := ⟨0x0008⟩
def staticBit : Modifiers := ⟨0x0080⟩
def protectedAndInternalBit : Modifiers := ⟨0x8000⟩

def union (a b : Modifiers) : Modifiers := ⟨a.bits ||| b.bits⟩

def has (m flag : Modifiers) : Bool := m.bits &&& flag.bits == flag.bits

def accessBits (m : Modifiers) : UInt32 := m.bits &&& 0x800f

end Modifiers

structure MethodModifiers where
  bits : UInt8
  deriving DecidableEq, Repr

namespace MethodModifiers

def empty : MethodModifiers := ⟨0⟩
def extension : MethodModifiers := ⟨0x04⟩
def wasExtended : MethodModifiers := ⟨0x08⟩

def union (a b : MethodModifiers) : MethodModifiers := ⟨a.bits ||| b.bits⟩

def has (m flag : MethodModifiers) : Bool := m.bits &&& flag.bits == flag.bits

end MethodModifiers

structure PropertyModifiers where
  bits : UInt8
  deriving DecidableEq, Repr

namespace PropertyModifiers

def empty : PropertyModifiers := ⟨0⟩
def hasGet : PropertyModifiers := ⟨0x01⟩
def hasSet : PropertyModifiers := ⟨0x02⟩
def isIndexer : PropertyModifiers := ⟨0x04⟩

def union (a b : PropertyModifiers) : PropertyModifiers := ⟨a.bits ||| b.bits⟩

def has (m flag : PropertyModifiers) : Bool := m.bits &&& flag.bits == flag.bits

end PropertyModifiers

structure ParameterModifiers where
  bits : UInt8
  deriving DecidableEq, Repr

inductive Accessibility where
  | privateAccess
  | internalAccess
  | protectedAccess
  | publicAccess
  | protectedAndInternal
  | protectedOrInternal
  deriving DecidableEq, Repr

namespace Accessibility

def modifiers : Accessibility → Modifiers
  | .privateAccess => Modifiers.privateBit
  | .internalAccess => Modifiers.internalBit
  | .protectedAccess => Modifiers.protectedBit
  | .publicAccess => Modifiers.publicBit
  | .protectedAndInternal => Modifiers.protectedAndInternalBit
  | .protectedOrInternal => Modifiers.protectedBit.union Modifiers.internalBit

def ofMetadata : Nat → Except Fault Accessibility
  | 1 => .ok .privateAccess
  | 2 => .ok .protectedAndInternal
  | 3 => .ok .internalAccess
  | 4 => .ok .protectedAccess
  | 5 => .ok .protectedOrInternal
  | 6 => .ok .publicAccess
  | other => .error (.unsupportedAccessibility other)

end Accessibility

def Modifiers.accessibility (m : Modifiers) : Except Fault Accessibility :=
  match m.accessBits with
  | 0 => .ok .privateAccess
  | 0x0001 => .ok .privateAccess
  | 0x0002 => .ok .internalAccess
  | 0x0004 => .ok .protectedAccess
  | 0x0008 => .ok .publicAccess
  | 0x8000 => .ok .protectedAndInternal
  | 0x0006 => .ok .protectedOrInternal
  | other => .error (.unsupportedAccessibility other.toNat)

theorem Accessibility.modifiersExpress (a : Accessibility) : a.modifiers.accessibility = .ok a := by
  cases a <;> rfl

end TypeScope
