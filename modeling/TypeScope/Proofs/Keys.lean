import TypeScope.Proofs.UniqueReadability
import TypeScope.Definition

/-! Texts that tell types apart: the decorated name of a type, and the key of an instantiation with
well-formed arguments. -/
namespace TypeScope

def Segmented (xid : Char → Bool) (name : String) : Prop :=
  ∀ s ∈ Dotted.segments name, Identifier xid s

instance (xid : Char → Bool) (s : String) : Decidable (Identifier xid s) :=
  decidable_of_iff (s ≠ "" ∧ s.toList.all (continues xid) = true)
    (and_congr_right fun _ => List.all_eq_true)

instance (xid : Char → Bool) (name : String) : Decidable (Segmented xid name) :=
  inferInstanceAs (Decidable (∀ s ∈ Dotted.segments name, Identifier xid s))

variable {xid : Char → Bool} {name name' : String}

theorem segmentedChars (named : Segmented xid name) {c : Char} (mem : c ∈ name.toList) :
    c = '.' ∨ continues xid c = true := by
  obtain ⟨first, rest, cut, whole⟩ := Dotted.piecesFollowing name.toList
  have piece : ∀ cs ∈ first :: rest, ∀ c ∈ cs, continues xid c = true := by
    intro cs listed c inside
    refine (named (String.ofList cs) (List.mem_map.mpr ⟨cs, cut ▸ listed, rfl⟩)).2 c ?_
    rwa [String.toList_ofList]
  rw [whole] at mem
  rcases List.mem_append.mp mem with early | late
  · exact .inr (piece first List.mem_cons_self c early)
  · obtain ⟨cs, listed, inside⟩ := List.mem_flatMap.mp late
    rcases List.mem_cons.mp inside with dot | inside
    · exact .inl dot
    · exact .inr (piece cs (List.mem_cons_of_mem _ listed) c inside)

theorem segmentedUnmarked (separate : ∀ c ∈ Text.marks, xid c = false)
    (named : Segmented xid name) : '\x60' ∉ name.toList ∧ '[' ∉ name.toList := by
  have absent : ∀ c ∈ Text.marks, c ≠ '.' → c ≠ '_' → c ∉ name.toList := by
    intro c mark dot plain mem
    rcases segmentedChars named mem with same | goes
    · exact dot same
    · simp [continues, plain, separate c mark] at goes
  exact ⟨absent _ (by decide) (by decide) (by decide), absent _ (by decide) (by decide) (by decide)⟩

theorem cutAt {mark : Char} {front front' behind behind' : List Char} (absent : mark ∉ front)
    (absent' : mark ∉ front') (ends : ∀ c ∈ behind.head?, c = mark)
    (ends' : ∀ c ∈ behind'.head?, c = mark) (same : front ++ behind = front' ++ behind') :
    front = front' ∧ behind = behind' := by
  have other : ∀ {cs : List Char}, mark ∉ cs → ∀ c ∈ cs, (c != mark) = true := by
    intro cs absent c mem
    exact bne_iff_ne.mpr fun same => absent (same ▸ mem)
  refine cutUnique (other absent) (other absent') (fun c head => ?_) (fun c head => ?_) same
  · rw [ends c head, bne_self_eq_false]
  · rw [ends' c head, bne_self_eq_false]

theorem decorateChars (name : String) (arity : Nat) : (Arity.decorate name arity).toList =
    name.toList ++ if arity = 0 then [] else '\x60' :: arity.repr.toList := by
  unfold Arity.decorate
  split
  · exact (List.append_nil _).symm
  · simp

theorem reprDigits (n : Nat) : ∀ c ∈ n.repr.toList, c.isDigit = true := by
  intro c mem
  rw [Nat.toList_repr] at mem
  exact Nat.isDigit_of_mem_toDigits (by decide) (by decide) mem

theorem decorateSimple (simple : '.' ∉ name.toList) (arity : Nat) :
    '.' ∉ (Arity.decorate name arity).toList := by
  rw [decorateChars, List.mem_append, not_or]
  refine ⟨simple, ?_⟩
  split
  · exact List.not_mem_nil
  · refine List.not_mem_cons_of_ne_of_not_mem (by decide) fun inside => ?_
    exact absurd (reprDigits arity _ inside) (by decide)

theorem decorateUnique (plain : '\x60' ∉ name.toList) (plain' : '\x60' ∉ name'.toList)
    {arity arity' : Nat} (same : Arity.decorate name arity = Arity.decorate name' arity') :
    name = name' ∧ arity = arity' := by
  have chars := congrArg String.toList same
  rw [decorateChars, decorateChars] at chars
  have ends : ∀ n : Nat, ∀ c ∈ (if n = 0 then [] else '\x60' :: n.repr.toList).head?,
      c = '\x60' := by
    intro n c head
    split at head
    · cases head
    · exact (Option.some.inj head).symm
  obtain ⟨names, counts⟩ := cutAt plain plain' (ends arity) (ends arity') chars
  refine ⟨String.toList_inj.mp names, ?_⟩
  split at counts <;> split at counts
  · omega
  · cases counts
  · cases counts
  · have digits : Nat.toDigits 10 arity = Nat.toDigits 10 arity' := by
      simpa using (List.cons.inj counts).2
    have read := fun n : Nat =>
      @Nat.ofDigitChars_toDigits 10 n (show 1 < 10 by decide) (Nat.le_refl 10)
    rw [← read arity, digits, read]

theorem listedChars {arguments : List TypeRef} (some_ : arguments ≠ []) :
    ',' :: (TypeRef.listed arguments).toList = following ',' (argumentTexts arguments) := by
  cases arguments with
  | nil => exact absurd rfl some_
  | cons first rest =>
    simp [TypeRef.listed, argumentTexts, followingCons, intercalateFollowing, Function.comp_def]

theorem keyChars (name : String) (arguments : List TypeRef) :
    (Instantiation.keyFor name arguments).toList =
      name.toList ++ '[' :: ((TypeRef.listed arguments).toList ++ [']']) := by
  simp [Instantiation.keyFor]

theorem keyCut (plain : '[' ∉ name.toList) (plain' : '[' ∉ name'.toList)
    {arguments arguments' : List TypeRef}
    (same : Instantiation.keyFor name arguments = Instantiation.keyFor name' arguments') :
    name = name' ∧ TypeRef.listed arguments = TypeRef.listed arguments' := by
  have texts := congrArg String.toList same
  rw [keyChars, keyChars] at texts
  have ends : ∀ {rest : List Char}, ∀ c ∈ ('[' :: rest).head?, c = '[' := fun c head =>
    (Option.some.inj head).symm
  obtain ⟨names, behind⟩ := cutAt plain plain' ends ends texts
  have listed := List.append_cancel_right (List.cons.inj behind).2
  exact ⟨String.toList_inj.mp names, String.toList_inj.mp listed⟩

theorem keyUnique (separate : ∀ c ∈ Text.marks, xid c = false) (plain : '[' ∉ name.toList)
    (plain' : '[' ∉ name'.toList) {arguments arguments' : List TypeRef} (some_ : arguments ≠ [])
    (some' : arguments' ≠ []) (formed : ∀ a ∈ arguments, a.WellFormed xid)
    (formed' : ∀ a ∈ arguments', a.WellFormed xid)
    (same : Instantiation.keyFor name arguments = Instantiation.keyFor name' arguments') :
    name = name' ∧ arguments.map TypeRef.canonical = arguments'.map TypeRef.canonical := by
  obtain ⟨names, listed⟩ := keyCut plain plain' same
  have closed : following ',' (argumentTexts arguments) ++ '>' :: [] =
      following ',' (argumentTexts arguments') ++ '>' :: [] := by
    rw [← listedChars some_, ← listedChars some', listed]
  obtain ⟨canonical, -⟩ := laterArgumentsUnique
    (fun a mem => wellFormedReadable separate (formed a mem)) formed' closed
  exact ⟨names, canonical⟩

structure Foreign (xid : Char → Bool) (c : Char) : Prop where
  name : continues xid c = false
  count : c.isDigit = false
  mark : c ∉ Text.marks

section Foreign
variable {c : Char}

theorem Foreign.marksChars (foreign : Foreign xid c) (m : Marks) : c ∉ m.chars := by
  have other : ∀ d ∈ Text.marks, c ≠ d := fun d mem same => foreign.mark (same ▸ mem)
  simp [Marks.chars, Marks.suffixChars, Marks.rankChars, List.mem_replicate,
    other '?' (by decide), other '*' (by decide), other '&' (by decide), other '[' (by decide),
    other ',' (by decide), other ']' (by decide)]

theorem Foreign.partChars (foreign : Foreign xid c) {p : TypePart} (named : Identifier xid p.name)
    (arguments : ∀ a ∈ p.arguments, c ∉ a.canonical.toList) : c ∉ p.chars := by
  have other : ∀ d ∈ Text.marks, c ≠ d := fun d mem same => foreign.mark (same ▸ mem)
  have name : c ∉ p.name.toList := fun mem => by
    have goes := named.2 c mem
    rw [foreign.name] at goes
    cases goes
  have count : c ∉ Nat.toDigits 10 p.arguments.length := fun mem => by
    have digit := Nat.isDigit_of_mem_toDigits (by decide) (by decide) mem
    rw [foreign.count] at digit
    cases digit
  rw [TypePart.chars, TypePart.argumentChars]
  cases list : p.arguments with
  | nil => simpa using name
  | cons first rest =>
    rw [list] at arguments count
    have inner : c ∉ following ',' (rest.map (fun a => a.canonical.toList)) := by
      intro mem
      obtain ⟨text, listed, inside⟩ := List.mem_flatMap.mp mem
      obtain ⟨a, later, rfl⟩ := List.mem_map.mp listed
      rcases List.mem_cons.mp inside with comma | here
      · exact other ',' (by decide) comma
      · exact arguments a (List.mem_cons_of_mem _ later) here
    simp only [List.map_cons, intercalateFollowing, if_neg (List.cons_ne_nil first rest),
      List.mem_append, List.mem_cons, List.not_mem_nil, not_or, or_false]
    exact ⟨name, other _ (by decide), count, other _ (by decide),
      ⟨arguments first List.mem_cons_self, inner⟩, other _ (by decide)⟩

theorem Foreign.canonical (foreign : Foreign xid c) {a : TypeRef} (formed : a.WellFormed xid) :
    c ∉ a.canonical.toList := by
  induction formed with
  | @intro r ns names arguments ih =>
    have whole : TypeRef.WellFormed xid r := .intro ns names arguments
    have segments : ∀ p ∈ r.segments, c ∉ p.chars := by
      intro p mem
      refine foreign.partChars (whole.segment mem).1 fun a inside => ?_
      rcases List.mem_append.mp mem with early | late
      · split at early
        · cases early
        · obtain ⟨segment, -, rfl⟩ := List.mem_map.mp early
          cases inside
      · exact ih p late a inside
    obtain ⟨first, rest, cut, text⟩ := TypeRef.canonicalChars whole.named
    rw [cut] at segments
    rw [text, List.mem_append, List.mem_append, not_or, not_or]
    refine ⟨segments first List.mem_cons_self, fun mem => ?_, foreign.marksChars r.marks⟩
    obtain ⟨chars, listed, inside⟩ := List.mem_flatMap.mp mem
    obtain ⟨p, later, rfl⟩ := List.mem_map.mp listed
    rcases List.mem_cons.mp inside with dot | here
    · rw [dot] at foreign
      exact foreign.mark (by decide)
    · exact segments p (List.mem_cons_of_mem _ later) here

theorem Foreign.key (foreign : Foreign xid c) (named : Segmented xid name)
    {arguments : List TypeRef} (formed : ∀ a ∈ arguments, a.WellFormed xid) :
    c ∉ (Instantiation.keyFor name arguments).toList := by
  have other : ∀ d ∈ Text.marks, c ≠ d := fun d mem same => foreign.mark (same ▸ mem)
  have plain : c ∉ name.toList := fun mem => by
    rcases segmentedChars named mem with dot | goes
    · exact other '.' (by decide) dot
    · rw [foreign.name] at goes
      cases goes
  have listed : c ∉ (TypeRef.listed arguments).toList := by
    cases arguments with
    | nil => simp [TypeRef.listed]
    | cons first rest =>
      have chars := listedChars (List.cons_ne_nil first rest)
      have absent : c ∉ following ',' (argumentTexts (first :: rest)) := by
        intro mem
        obtain ⟨text, inside, here⟩ := List.mem_flatMap.mp mem
        obtain ⟨a, argument, rfl⟩ := List.mem_map.mp inside
        rcases List.mem_cons.mp here with comma | here
        · exact other ',' (by decide) comma
        · exact foreign.canonical (formed a argument) here
      rw [← chars] at absent
      exact fun mem => absent (List.mem_cons_of_mem _ mem)
  rw [keyChars, List.mem_append, List.mem_cons, List.mem_append, List.mem_singleton]
  simp only [not_or]
  exact ⟨plain, other '[' (by decide), listed, other ']' (by decide)⟩

end Foreign
end TypeScope
