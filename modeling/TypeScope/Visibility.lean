import TypeScope.Inheritance

/-! Which members of a type code in a calling type may use. -/
namespace TypeScope

def Definition.isInside (inner outer : Definition) : Bool :=
  inner.fullName == outer.fullName || Dotted.isBelow inner.fullName outer.fullName

namespace Workspace

def storesHere (w : Workspace) (id : ScopeId) (d : Definition) : Bool :=
  (w.findType id .shallow .exact d.fullName d.arity).isSome

def sameScope (w : Workspace) (id : ScopeId) (a b : Definition) : Bool :=
  w.storesHere id a && w.storesHere id b

end Workspace

namespace Query

def isDerived (id : ScopeId) (declaring calling : Definition) : Query Bool := do
  if calling.isInside declaring then return true
  else
    let met ← searchAncestry id
      (fun d => return if d.decoratedName == declaring.decoratedName then some () else none) calling
    return met.isSome

def isAccessible (id : ScopeId) (declaring : Definition) (access : Accessibility)
    (calling : Option Definition) : Query Bool := do
  match calling with
  | none => return access == .publicAccess
  | some calling =>
      match access with
      | .publicAccess => return true
      | .privateAccess => return calling.isInside declaring
      | .protectedAccess => isDerived id declaring calling
      | .internalAccess => return (← get).sameScope id declaring calling
      | .protectedOrInternal =>
          if ← isDerived id declaring calling then return true
          else return (← get).sameScope id declaring calling
      | .protectedAndInternal =>
          if ← isDerived id declaring calling then return (← get).sameScope id declaring calling
          else return false

def visibleAmong (id : ScopeId) (declaring : Definition) (calling : Option Definition) :
    List Member → Query (Except Fault (List Member))
  | [] => return .ok []
  | m :: rest => do
      match m.modifiers.accessibility with
      | .error fault => return .error fault
      | .ok access =>
          let visible ← isAccessible id declaring access calling
          match ← visibleAmong id declaring calling rest with
          | .error fault => return .error fault
          | .ok others => return .ok (if visible then m :: others else others)

def visibleMembers (id : ScopeId) (d : Definition) (calling : Option Definition) :
    Query (Except Fault (List Member)) :=
  visibleAmong id d calling d.body.members

end Query
end TypeScope
