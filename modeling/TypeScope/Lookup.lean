import TypeScope.Instances

/-! Direct lookups: by full name, by arity and through references. A reference remembers what it
was found to be and is believed as long as that definition is still the current one. -/
namespace TypeScope

namespace Workspace

def isStored (w : Workspace) (id : ScopeId) (d : Declared) : Bool :=
  match w.findType id .deep .exact d.fullName d.arity with
  | some stored => stored.is d
  | none => false

def isCached (w : Workspace) (id : ScopeId) (key : String) (d : Definition) : Bool :=
  match (w.scope id).cache.get? key with
  | some known => known.is d
  | none => false

def isCurrentOpen (w : Workspace) (id : ScopeId) (o : OpenType) : Bool :=
  match o with
  | .declared d => w.isStored id d
  | .array _ => true
  | .placeholder p => w.isStored id p.owner && w.isCached id p.key (.unbound o)

def isCurrent (w : Workspace) (id : ScopeId) (d : Definition) : Bool :=
  match d with
  | .unbound o => w.isCurrentOpen id o
  | .bound i => w.isCurrentOpen id i.openType && w.isCached id i.key d

end Workspace

namespace TypeRef

def core (r : TypeRef) : TypeRef :=
  if r.marks.ranks.isEmpty then r
  else { r with marks := { r.marks with ranks := [], arrayPointers := 0 }, link := none }

end TypeRef

namespace Query

def getType (id : ScopeId) (depth : Depth) (rule : CaseRule) (name : String)
    (arguments : List TypeRef) : Query (Option Definition) := do
  let (plain, mark) := Arity.strip name
  let arity := if arguments.isEmpty then mark.getD 0 else arguments.length
  match (← get).findType id depth rule plain arity with
  | some found => return some (← instantiate id (.ofDeclared found) arguments)
  | none => return none

def getByArity (id : ScopeId) (depth : Depth) (rule : CaseRule) (name : String) (arity : Nat) :
    Query (Option Definition) :=
  return ((← get).findType id depth rule (Arity.strip name).1 arity).map .ofDeclared

/-- What a reference without ranks names, and the reference with the link it has afterwards. The
arguments of every part are bound, unless what is found is bound already or is a placeholder that
the cache holds under the key of the instantiation. -/
def lookupCore (id : ScopeId) (r : TypeRef) : Query (Option Definition × TypeRef) := do
  let w ← get
  match (w.linked r).filter (w.isCurrent id) with
  | some d => return (some d, r)
  | none =>
      match ← getType id .deep .exact r.decoratedName r.arguments with
      | none => return (none, r.unlinked)
      | some found =>
          let d ← if found.isBound || found.placeholder?.isSome || !r.isGeneric then pure found
            else instantiate id found r.allArguments
          return (some d, ← linkTo r d)

def arrayOf (id : ScopeId) (element : TypeRef) : Query (Definition × TypeRef) := do
  let (found, core) ← lookupCore id element.core
  let file := found.bind (← get).fileOf
  let stamp ← freshStamp
  let linked := if element.marks.ranks.isEmpty then element.linkedTo core.link else element
  return (.unbound (.array ⟨stamp, element, file⟩), linked)

def lookup (id : ScopeId) (r : TypeRef) : Query (Option Definition × TypeRef) := do
  match r.element? with
  | some element => return (some (← arrayOf id element).1, r)
  | none => lookupCore id r

def lookupAt (id : ScopeId) (site : Site) (r : TypeRef) : Query (Option Definition) := do
  let r := (← get).links.current site r
  let (found, after) ← lookup id r
  if after.link ≠ r.link then writeLink site after.link
  return found

/-- The definition that now stands under the name of a possibly outdated one. The chosen fragment of
a compound is chosen again. Placeholders and arrays are not stored and stay as they are. -/
def refetch (id : ScopeId) (d : Definition) : Query Definition := do
  if d.placeholder?.isSome || d.element?.isSome then return d
  else
    let w ← get
    match w.findType id .deep .exact d.fullName d.arity with
    | none => return d
    | some found =>
        let arguments := match d with
          | .bound i => i.currentArguments w.links
          | .unbound _ => []
        let fresh ← instantiate id (.ofDeclared found) arguments
        match d.compound?, fresh.compound? with
        | some old, some new =>
            let record := w.recordOf old
            modify (fun w => (w.chooseMain new record.body.file record.body.location).getD w)
        | _, _ => pure ()
        return fresh

end Query
end TypeScope
