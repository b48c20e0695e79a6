import TypeScope.Text.Lowercase

/-! Comparing written names. A lookup either takes case as it is written or ignores it; ignoring it
compares the lower forms of the characters one by one, not of the whole text. -/
namespace TypeScope

inductive CaseRule where
  | exact
  | relaxed
  deriving DecidableEq, Repr

namespace Name
open Text (folded)

def same (rule : CaseRule) (a b : String) : Bool :=
  match rule with
  | .exact => a == b
  | .relaxed => folded a == folded b

theorem sameExact {a b : String} : same .exact a b = true ↔ a = b := by simp [same]

theorem sameRelaxed {a b : String} : same .relaxed a b = true ↔ folded a = folded b := by
  simp [same]

theorem sameOfEq (rule : CaseRule) (a : String) : same rule a a = true := by
  cases rule <;> simp [same]

def cutBytes : Nat → List Char → Option (List Char × List Char)
  | 0, cs => some ([], cs)
  | _ + 1, [] => none
  | n + 1, c :: rest =>
      if c.utf8Size ≤ n + 1 then
        (cutBytes (n + 1 - c.utf8Size) rest).map (fun cut => (c :: cut.1, cut.2))
      else none
  termination_by structural _ cs => cs

def after? (rule : CaseRule) (head name : String) : Option String :=
  match cutBytes head.utf8ByteSize name.toList with
  | some (start, rest) =>
      if same rule (String.ofList start) head then some (String.ofList rest) else none
  | none => none

theorem cutBytesSound {n : Nat} {cs start rest : List Char}
    (h : cutBytes n cs = some (start, rest)) : cs = start ++ rest := by
  induction cs generalizing n start with
  | nil =>
    cases n with
    | zero => simp [cutBytes] at h; simp [h]
    | succ n => simp [cutBytes] at h
  | cons c tail ih =>
    cases n with
    | zero => simp [cutBytes] at h; simp [h]
    | succ n =>
      simp only [cutBytes] at h
      split at h <;> try contradiction
      obtain ⟨⟨s, r⟩, found, last⟩ := Option.map_eq_some_iff.mp h
      cases last
      simp [ih found]

end Name
end TypeScope
