/-! The ways a caller can be wrong. A lookup that finds nothing is no fault. -/
namespace TypeScope

inductive Fault where
  | unsupportedAccessibility (bits : Nat)
  | emptyReference
  | notAnExtension (method : String)
  | unknownScope (uri : String)
  deriving DecidableEq, Repr

def hexadecimal (n : Nat) : String := "0x" ++ String.ofList (Nat.toDigits 16 n)

def Fault.message : Fault → String
  | .unsupportedAccessibility bits => "unsupported accessibility value: " ++ hexadecimal bits
  | .emptyReference => "invalid argument: a type reference needs at least one part"
  | .notAnExtension method =>
      "method '" ++ method ++ "' has no receiver parameter and cannot be bound as an extension"
  | .unknownScope uri => "unknown scope: " ++ uri

end TypeScope
