/-! Character sets given as ascending, disjoint ranges of code points, both ends included. -/
namespace TypeScope.Text

def inRanges : List (Nat × Nat) → Nat → Bool
  | [], _ => false
  | (first, last) :: rest, n =>
      if n < first then false else if n ≤ last then true else inRanges rest n

end TypeScope.Text
