import TypeScope.Definition

/-! Links of references that stand inside definitions. A lookup through such a reference leaves a
link behind, although the definition itself never changes; the links written later are kept
here, by the place of the reference, and stand before the link the reference was built with. -/
namespace TypeScope

inductive Slot where
  | base (i : Nat)
  | receiver (member : Nat)
  | argument (i : Nat)
  deriving DecidableEq, Repr

structure Site where
  holder : Stamp
  slot : Slot
  deriving DecidableEq, Repr

abbrev Links := Table Site (Option Stamp)

def Links.current (links : Links) (site : Site) (r : TypeRef) : TypeRef :=
  match links.get? site with
  | some link => r.linkedTo link
  | none => r

theorem Links.currentUnwritten (site : Site) (r : TypeRef) :
    Links.current Table.empty site r = r := rfl

def Member.settled (links : Links) (site : Site) (m : Member) : Member :=
  match m.parameters with
  | [] => m
  | first :: rest =>
      { m with parameters := { first with type := links.current site first.type } :: rest }

def Body.settled (links : Links) (holder : Stamp) (b : Body) : Body :=
  let offset := b.base.toList.length
  { b with
    base := b.base.map (links.current ⟨holder, .base 0⟩)
    interfaces := b.interfaces.mapIdx (fun i r => links.current ⟨holder, .base (offset + i)⟩ r)
    members := b.members.mapIdx (fun i m => m.settled links ⟨holder, .receiver i⟩) }

mutual
def Declared.settled (links : Links) : Declared → Declared
  | ⟨stamp, body, nested, parts⟩ =>
      ⟨stamp, body.settled links stamp, Declared.settledAll links nested, parts⟩
  termination_by structural d => d

def Declared.settledAll (links : Links) : List Declared → List Declared
  | [] => []
  | d :: rest => Declared.settled links d :: Declared.settledAll links rest
  termination_by structural ds => ds
end

def Instantiation.currentArguments (links : Links) (i : Instantiation) : List TypeRef :=
  i.arguments.mapIdx (fun n r => links.current ⟨i.stamp, .argument n⟩ r)

end TypeScope
