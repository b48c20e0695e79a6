import TypeScope.Inheritance

/-! Extension methods: what their type parameters stand for, the method as a member of the type it
extends, and the methods that apply to a receiver. -/
namespace TypeScope

namespace TypeRef

def strip? : Nat → TypeRef → Option TypeRef
  | 0, r => some r
  | n + 1, r => r.element?.bind (strip? n)

def openName? (names : List String) (r : TypeRef) : Option String := r.bareName?.filter names.contains

def bindBare (name : String) (parameter argument : TypeRef) (b : Bindings) : Bindings :=
  if b.contains name then b
  else
    match strip? parameter.marks.ranks.length argument with
    | some bound => b.put name bound
    | none => b

mutual
def infer (names : List String) : TypeRef → TypeRef → Bindings → Bindings
  | ⟨ns, outer, last, marks, link⟩, argument, b =>
      let parameter : TypeRef := ⟨ns, outer, last, marks, link⟩
      match openName? names parameter with
      | some name => bindBare name parameter argument b
      | none => inferPart names last argument b
  termination_by structural p => p

def inferPart (names : List String) : TypePart → TypeRef → Bindings → Bindings
  | ⟨_, parameters⟩, argument, b =>
      if parameters.isEmpty then b
      else if argument.arguments.length = parameters.length then
        inferAll names parameters argument.arguments b
      else if parameters.length = 1 then
        match argument.element? with
        | some element => inferAll names parameters [element] b
        | none => b
      else b
  termination_by structural p => p

def inferAll (names : List String) : List TypeRef → List TypeRef → Bindings → Bindings
  | p :: ps, a :: as, b => inferAll names ps as (infer names p a b)
  | [], _, b => b
  | _ :: _, [], b => b
  termination_by structural ps => ps
end

end TypeRef

def Member.bindGenerics (m : Member) (explicit arguments : List TypeRef) : Bindings :=
  let names := m.typeParameters.map TypeParameter.name
  let given := Bindings.ofPairs (names.zip explicit)
  if m.typeParameters.isEmpty then given
  else TypeRef.inferAll names (m.parameters.map Parameter.type) arguments given

def Definition.receiverArgument (d : Definition) : TypeRef :=
  let element :=
    if d.element?.isSome || "[]".toList.isSuffixOf d.fullName.toList then
      (d.body.bases.find? (fun r => r.fullName == listName)).bind (fun r => r.arguments.head?)
    else none
  match element with
  | some element => element.arrayOf
  | none => TypeRef.forDefinition d

structure BoundMethod where
  method : Member
  source : Member
  extended : Definition
  deriving Repr

namespace BoundMethod

def name (b : BoundMethod) : String := b.method.name

def of (extended : Definition) (source : Member) (explicit arguments : List TypeRef) :
    Except Fault BoundMethod :=
  if source.kind ≠ .method ∨ source.parameters.isEmpty then .error (.notAnExtension source.name)
  else
    let b := source.bindGenerics explicit (extended.receiverArgument :: arguments)
    let placed := source.substitute b
    .ok
      { method :=
          { placed with
            parameters := placed.parameters.tail
            typeParameters := placed.typeParameters.filter (fun p => !b.contains p.name)
            methodModifiers := source.methodModifiers.union MethodModifiers.wasExtended
            declaring := some extended.fullName }
        source := source
        extended := extended }

end BoundMethod

namespace Query

def appliesTo (id : ScopeId) (ancestors : List String) (candidate : Definition) (i : Nat)
    (m : Member) : Query Bool := do
  match m.parameters with
  | [] => return false
  | this :: _ =>
      let own := match this.type.bareName? with
        | some name => m.typeParameters.any (fun p => p.name == name)
        | none => false
      if own then return true
      else
        match ← lookupAt id ⟨candidate.stamp, .receiver i⟩ this.type with
        | some found => return ancestors.contains found.decoratedName
        | none => return false

def bindWhereItApplies (id : ScopeId) (ancestors : List String) (receiver candidate : Definition)
    (i : Nat) (m : Member) : Query (List BoundMethod) := do
  if ← appliesTo id ancestors candidate i m then
    return (BoundMethod.of receiver m [] []).toOption.toList
  else return []

def bindAmong (id : ScopeId) (ancestors : List String) (receiver candidate : Definition)
    (i : Nat) : List Member → Query (List BoundMethod)
  | [] => return []
  | m :: rest => do
      let here ← if m.isExtension then bindWhereItApplies id ancestors receiver candidate i m
        else pure []
      return here ++ (← bindAmong id ancestors receiver candidate (i + 1) rest)

def bindCandidates (id : ScopeId) (ancestors : List String) (receiver : Definition) :
    List Definition → Query (List BoundMethod)
  | [] => return []
  | candidate :: rest => do
      let here ← bindAmong id ancestors receiver candidate 0 candidate.body.members
      return here ++ (← bindCandidates id ancestors receiver rest)

def extensionMethods (id : ScopeId) (receiver : Definition) (candidates : List Definition) :
    Query (List BoundMethod) := do
  let ancestors ← ancestry id receiver
  bindCandidates id (ancestors.map Definition.decoratedName) receiver candidates

end Query
end TypeScope
