import TypeScope.Reference
import Mathlib.Data.List.Basic

/-! Reading the marks of a written reference back. A text is cut uniquely where one class of
characters ends, so what was written can be told from the characters, piece by piece. -/
namespace TypeScope

def GoesOn (cs : List Char) (text : List Char) : Prop := ∀ c ∈ text.head?, c ∈ cs

section GoesOn
variable {cs more text front : List Char}

theorem goesOnWiden (h : GoesOn cs text) (within : cs.all more.contains = true) :
    GoesOn more text := by
  intro c first
  have listed := List.all_eq_true.mp within c (h c first)
  exact List.contains_iff_mem.mp listed

theorem goesOnAppend (first : GoesOn cs front) (rest : GoesOn cs text) :
    GoesOn cs (front ++ text) := by
  cases front with
  | nil => exact rest
  | cons c later =>
    intro d head
    exact first d head

theorem goesOnReplicate {c : Char} (inside : c ∈ cs) (n : Nat) :
    GoesOn cs (List.replicate n c) := by
  intro d head
  cases n with
  | zero => cases head
  | succ n =>
    cases head
    exact inside

theorem goesOnIf {c : Char} (inside : c ∈ cs) (on : Bool) :
    GoesOn cs (if on then [c] else []) := by
  intro d head
  cases on with
  | false => cases head
  | true =>
    cases head
    exact inside

theorem goesOnCons {c : Char} (inside : c ∈ cs) : GoesOn cs (c :: text) := by
  intro d head
  cases head
  exact inside

end GoesOn

theorem cutUnique {p : Char → Bool} {a b s t : List Char} (all : ∀ c ∈ a, p c = true)
    (all' : ∀ c ∈ b, p c = true) (ends : ∀ c ∈ s.head?, p c = false)
    (ends' : ∀ c ∈ t.head?, p c = false) (h : a ++ s = b ++ t) : a = b ∧ s = t := by
  induction a generalizing b with
  | nil =>
    cases b with
    | nil => exact ⟨rfl, h⟩
    | cons c later =>
      have here : c ∈ s.head? := by
        rw [List.nil_append] at h
        rw [h]
        rfl
      have no := ends c here
      rw [all' c List.mem_cons_self] at no
      cases no
  | cons c later ih =>
    cases b with
    | nil =>
      have here : c ∈ t.head? := by
        rw [List.nil_append] at h
        rw [← h]
        rfl
      have no := ends' c here
      rw [all c List.mem_cons_self] at no
      cases no
    | cons d rest =>
      obtain ⟨same, tails⟩ := List.cons.inj h
      obtain ⟨equal, left⟩ := ih (fun x mem => all x (List.mem_cons_of_mem _ mem))
        (fun x mem => all' x (List.mem_cons_of_mem _ mem)) tails
      exact ⟨by rw [same, equal], left⟩

theorem repeatUnique {c : Char} {cs s t : List Char} {m n : Nat} (other : c ∉ cs)
    (ends : GoesOn cs s) (ends' : GoesOn cs t)
    (h : List.replicate m c ++ s = List.replicate n c ++ t) : m = n ∧ s = t := by
  have stop : ∀ {text : List Char}, GoesOn cs text → ∀ d ∈ text.head?, (d == c) = false := by
    intro text on d head
    have different : d ≠ c := by
      intro same
      exact other (same ▸ on d head)
    simpa using different
  have run : ∀ k, ∀ d ∈ List.replicate k c, (d == c) = true := by
    intro k d mem
    simpa using List.eq_of_mem_replicate mem
  obtain ⟨same, left⟩ := cutUnique (run m) (run n) (stop ends) (stop ends') h
  have lengths := congrArg List.length same
  rw [List.length_replicate, List.length_replicate] at lengths
  exact ⟨lengths, left⟩

theorem flagUnique {c : Char} {cs s t : List Char} {on on' : Bool} (other : c ∉ cs)
    (ends : GoesOn cs s) (ends' : GoesOn cs t)
    (h : (if on then [c] else []) ++ s = (if on' then [c] else []) ++ t) : on = on' ∧ s = t := by
  have counted : ∀ flag : Bool, (if flag then [c] else []) = List.replicate flag.toNat c := by
    intro flag
    cases flag <;> rfl
  rw [counted, counted] at h
  obtain ⟨same, left⟩ := repeatUnique other ends ends' h
  refine ⟨?_, left⟩
  cases on <;> cases on' <;> first | rfl | cases same

namespace Marks

def closers : List Char := [',', '>']

def rankChars (extra : Nat) : List Char := '[' :: (List.replicate extra ',' ++ [']'])

def suffixChars (m : Marks) : List Char :=
  List.replicate m.arrayPointers.toNat '*' ++ if m.byRef then ['&'] else []

def chars (m : Marks) : List Char :=
  (if m.nullable then ['?'] else []) ++ (List.replicate m.pointers.toNat '*' ++
    (m.ranks.flatMap rankChars ++ m.suffixChars))

theorem textChars (m : Marks) : m.text.toList = m.chars := by
  have rank : ∀ extra, (rankText extra).toList = rankChars extra := by
    intro extra
    simp [rankText, rankChars, repeated]
  simp only [text, chars, suffixChars, String.toList_append, String.toList_join, List.flatMap_map,
    repeated, String.toList_ofList, List.append_assoc, rank]
  cases m.nullable <;> cases m.byRef <;> rfl

structure Alike (a b : Marks) : Prop where
  nullable : a.nullable = b.nullable
  byRef : a.byRef = b.byRef
  ranks : a.ranks = b.ranks
  pointers : if a.ranks = [] then
      a.pointers.toNat + a.arrayPointers.toNat = b.pointers.toNat + b.arrayPointers.toNat
    else a.pointers = b.pointers ∧ a.arrayPointers = b.arrayPointers

theorem suffixUnique {m n : Nat} {on on' : Bool} {s t : List Char} (ends : GoesOn closers s)
    (ends' : GoesOn closers t)
    (h : (List.replicate m '*' ++ if on then ['&'] else []) ++ s =
      (List.replicate n '*' ++ if on' then ['&'] else []) ++ t) : m = n ∧ on = on' ∧ s = t := by
  rw [List.append_assoc, List.append_assoc] at h
  have flagged : ∀ {flag : Bool} {text : List Char}, GoesOn closers text →
      GoesOn ['&', ',', '>'] ((if flag then ['&'] else []) ++ text) := by
    intro flag text closed
    exact goesOnAppend (goesOnIf (by decide) flag) (goesOnWiden closed (by decide))
  obtain ⟨same, left⟩ := repeatUnique (by decide) (flagged ends) (flagged ends') h
  obtain ⟨byRef, tails⟩ := flagUnique (by decide) ends ends' left
  exact ⟨same, byRef, tails⟩

theorem ranksUnique {ranks ranks' : List Nat} {s t : List Char}
    (ends : GoesOn ['*', '&', ',', '>'] s) (ends' : GoesOn ['*', '&', ',', '>'] t)
    (h : ranks.flatMap rankChars ++ s = ranks'.flatMap rankChars ++ t) :
    ranks = ranks' ∧ s = t := by
  induction ranks generalizing ranks' with
  | nil =>
    cases ranks' with
    | nil => exact ⟨rfl, h⟩
    | cons extra rest =>
      have first := ends '[' (by
        rw [List.flatMap_nil, List.nil_append] at h
        rw [h]
        rfl)
      exact absurd first (by decide)
  | cons extra rest ih =>
    cases ranks' with
    | nil =>
      have first := ends' '[' (by
        rw [List.flatMap_nil, List.nil_append] at h
        rw [← h]
        rfl)
      exact absurd first (by decide)
    | cons extra' rest' =>
      simp only [List.flatMap_cons, rankChars, List.cons_append, List.append_assoc,
        List.nil_append] at h
      obtain ⟨-, inside⟩ := List.cons.inj h
      have bracket : ∀ {text : List Char}, GoesOn [']'] (']' :: text) :=
        fun {text} => goesOnCons List.mem_cons_self
      obtain ⟨same, left⟩ := repeatUnique (by decide) bracket bracket inside
      obtain ⟨ranks, tails⟩ := ih (List.cons.inj left).2
      exact ⟨by rw [same, ranks], tails⟩

theorem rankTold {m n : Nat} {on : Bool} {s t : List Char} (ends : GoesOn closers s)
    (h : (List.replicate m '*' ++ if on then ['&'] else []) ++ s =
      List.replicate n '*' ++ '[' :: t) : False := by
  rw [List.append_assoc] at h
  have flagged : GoesOn ['&', ',', '>'] ((if on then ['&'] else []) ++ s) :=
    goesOnAppend (goesOnIf (by decide) on) (goesOnWiden ends (by decide))
  have widened : GoesOn ['[', '&', ',', '>'] ((if on then ['&'] else []) ++ s) :=
    goesOnWiden flagged (by decide)
  obtain ⟨-, tails⟩ := repeatUnique (by decide) widened (goesOnCons (by decide)) h
  have first := flagged '[' (by
    rw [tails]
    rfl)
  exact absurd first (by decide)

theorem suffixGoesOn (m : Marks) {s : List Char} (ends : GoesOn closers s) :
    GoesOn ['*', '&', ',', '>'] (m.suffixChars ++ s) := by
  rw [suffixChars, List.append_assoc]
  refine goesOnAppend (goesOnReplicate (by decide) _) ?_
  exact goesOnAppend (goesOnIf (by decide) _) (goesOnWiden ends (by decide))

theorem ranksGoOn (m : Marks) {s : List Char} (ends : GoesOn closers s) :
    GoesOn ['[', '*', '&', ',', '>'] (m.ranks.flatMap rankChars ++ (m.suffixChars ++ s)) := by
  refine goesOnAppend ?_ (goesOnWiden (suffixGoesOn m ends) (by decide))
  cases m.ranks with
  | nil =>
    intro c head
    cases head
  | cons extra rest => exact goesOnCons (by decide)

theorem starsGoOn (m : Marks) {s : List Char} (ends : GoesOn closers s) :
    GoesOn ['[', '*', '&', ',', '>'] (List.replicate m.pointers.toNat '*' ++
      (m.ranks.flatMap rankChars ++ (m.suffixChars ++ s))) :=
  goesOnAppend (goesOnReplicate (by decide) _) (ranksGoOn m ends)

theorem charsGoOn (m : Marks) {s : List Char} (ends : GoesOn closers s) :
    GoesOn ['?', '[', '*', '&', ',', '>'] (m.chars ++ s) := by
  simp only [chars, List.append_assoc]
  exact goesOnAppend (goesOnIf (by decide) _) (goesOnWiden (starsGoOn m ends) (by decide))

theorem bareChars {m : Marks} (bare : m.ranks = []) (s : List Char) :
    List.replicate m.pointers.toNat '*' ++ (m.ranks.flatMap rankChars ++ (m.suffixChars ++ s)) =
      (List.replicate (m.pointers.toNat + m.arrayPointers.toNat) '*' ++
        if m.byRef then ['&'] else []) ++ s := by
  simp only [bare, List.flatMap_nil, List.nil_append, suffixChars, ← List.append_assoc,
    List.replicate_append_replicate]

theorem rankedChars {m : Marks} (some_ : m.ranks ≠ []) (s : List Char) :
    ∃ rest, m.ranks.flatMap rankChars ++ s = '[' :: rest := by
  cases ranks : m.ranks with
  | nil => exact absurd ranks some_
  | cons extra later => exact ⟨_, rfl⟩

theorem charsUnique {a b : Marks} {s t : List Char} (ends : GoesOn closers s)
    (ends' : GoesOn closers t) (h : a.chars ++ s = b.chars ++ t) : Alike a b ∧ s = t := by
  simp only [chars, List.append_assoc] at h
  obtain ⟨nullable, rest⟩ := flagUnique (by decide) (starsGoOn a ends) (starsGoOn b ends') h
  by_cases bare : a.ranks = []
  · rw [bareChars bare] at rest
    by_cases bare' : b.ranks = []
    · rw [bareChars bare'] at rest
      obtain ⟨sum, byRef, tails⟩ := suffixUnique ends ends' rest
      exact ⟨⟨nullable, byRef, bare.trans bare'.symm, by rw [if_pos bare]; exact sum⟩, tails⟩
    · obtain ⟨later, ranked⟩ := rankedChars bare' (b.suffixChars ++ t)
      rw [ranked] at rest
      exact (rankTold ends rest).elim
  · obtain ⟨later, ranked⟩ := rankedChars bare (a.suffixChars ++ s)
    by_cases bare' : b.ranks = []
    · rw [bareChars bare', ranked] at rest
      exact (rankTold ends' rest.symm).elim
    · obtain ⟨later', ranked'⟩ := rankedChars bare' (b.suffixChars ++ t)
      rw [ranked, ranked'] at rest
      have bracket : ∀ {text : List Char}, GoesOn ['['] ('[' :: text) :=
        fun {text} => goesOnCons List.mem_cons_self
      obtain ⟨pointers, rest⟩ := repeatUnique (by decide) bracket bracket rest
      rw [← ranked, ← ranked'] at rest
      obtain ⟨ranks, rest⟩ := ranksUnique (suffixGoesOn a ends) (suffixGoesOn b ends') rest
      obtain ⟨arrayPointers, byRef, tails⟩ := suffixUnique ends ends' rest
      refine ⟨⟨nullable, byRef, ranks, ?_⟩, tails⟩
      rw [if_neg bare]
      exact ⟨UInt32.toNat_inj.mp pointers, UInt32.toNat_inj.mp arrayPointers⟩

theorem charsAlike {a b : Marks} (alike : Alike a b) : a.chars = b.chars := by
  obtain ⟨nullable, byRef, ranks, pointers⟩ := alike
  by_cases bare : a.ranks = []
  · rw [if_pos bare] at pointers
    have left := bareChars bare []
    have right := bareChars (ranks ▸ bare) []
    rw [List.append_nil] at left right
    rw [chars, chars, nullable, left, right, pointers, byRef]
  · rw [if_neg bare] at pointers
    obtain ⟨before, behind⟩ := pointers
    rw [chars, chars, suffixChars, suffixChars, nullable, before, ranks, behind, byRef]

end Marks
end TypeScope
