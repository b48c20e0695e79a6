/-! Identity of definitions. Two definitions may agree in every field and still be different
objects; callers see whether a lookup hands out the same one again. -/
namespace TypeScope

/-- Everything built or merged in one event shares its tick; the path tells apart what the
event made. -/
structure Stamp where
  tick : Nat
  path : List Nat
  deriving DecidableEq, Repr

def Stamp.at (tick : Nat) : Stamp := ⟨tick, []⟩

def Stamp.child (s : Stamp) (i : Nat) : Stamp := ⟨s.tick, s.path ++ [i]⟩

end TypeScope
