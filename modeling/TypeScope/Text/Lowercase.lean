import TypeScope.Text.Ranges
import TypeScope.Text.CaseTable

/-! Lower case by the Unicode rules, in two forms. A character on its own has one lower form;
in a whole text a sigma that ends a word is written differently. -/
namespace TypeScope.Text

def lowerCode : List (Nat × Nat × Nat × Nat) → Nat → Nat
  | [], n => n
  | (first, last, step, image) :: rest, n =>
      if n < first then n
      else if n ≤ last ∧ (n - first) % step = 0 then image + (n - first)
      else lowerCode rest n

def lowerChar (c : Char) : List Char :=
  if c = 'İ' then ['i', '\u0307'] else [Char.ofNat (lowerCode lowerRuns c.toNat)]

def folded (s : String) : List Char := s.toList.flatMap lowerChar

def meetsCased (cs : List Char) : Bool :=
  match cs.dropWhile (fun c => inRanges caseIgnorableRanges c.toNat) with
  | [] => false
  | c :: _ => inRanges casedRanges c.toNat

def endsWord (before after : List Char) : Bool := meetsCased before && !meetsCased after

def loweredAfter (before : List Char) : List Char → List Char
  | [] => []
  | c :: after =>
      (if c = 'Σ' then [if endsWord before after then 'ς' else 'σ'] else lowerChar c) ++
        loweredAfter (c :: before) after

def lowered (s : String) : String := String.ofList (loweredAfter [] s.toList)

end TypeScope.Text
