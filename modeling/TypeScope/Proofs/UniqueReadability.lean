import TypeScope.Proofs.Reading

/-! Canonical forms read back. The text of a well-formed reference tells its dotted segments, the
canonical forms of their arguments and its marks, and nothing else is in it. -/
namespace TypeScope

def continues (xid : Char → Bool) (c : Char) : Bool := c == '_' || xid c

def Identifier (xid : Char → Bool) (s : String) : Prop :=
  s ≠ "" ∧ ∀ c ∈ s.toList, continues xid c = true

namespace TypeRef

def segments (r : TypeRef) : List TypePart :=
  (if r.ns = "" then [] else (Dotted.segments r.ns).map (fun s => ⟨s, []⟩)) ++ r.parts

inductive WellFormed (xid : Char → Bool) : TypeRef → Prop where
  | intro {r} (ns : r.ns = "" ∨ ∀ s ∈ Dotted.segments r.ns, Identifier xid s)
      (names : ∀ p ∈ r.parts, Identifier xid p.name)
      (arguments : ∀ p ∈ r.parts, ∀ a ∈ p.arguments, WellFormed xid a) : WellFormed xid r

end TypeRef

def following (mark : Char) (texts : List (List Char)) : List Char :=
  texts.flatMap (mark :: ·)

theorem followingCons (mark : Char) (first : List Char) (rest : List (List Char)) :
    following mark (first :: rest) = mark :: (first ++ following mark rest) := rfl

theorem followingAppend (mark : Char) (texts more : List (List Char)) :
    following mark (texts ++ more) = following mark texts ++ following mark more :=
  List.flatMap_append

theorem intercalateFollowing (mark : Char) (first : List Char) (rest : List (List Char)) :
    [mark].intercalate (first :: rest) = first ++ following mark rest := by
  induction rest generalizing first with
  | nil => simp [following, List.intercalate]
  | cons next rest ih =>
    have later := ih next
    simp only [List.intercalate, List.intersperse_cons_cons, List.flatten_cons] at later ⊢
    rw [later]
    simp [following]

namespace Dotted

theorem piecesFollowing (cs : List Char) :
    ∃ first rest, pieces cs = first :: rest ∧ cs = first ++ following '.' rest := by
  induction cs with
  | nil => exact ⟨[], [], rfl, rfl⟩
  | cons c later ih =>
    obtain ⟨first, rest, cut, whole⟩ := ih
    by_cases dot : c = '.'
    · refine ⟨[], first :: rest, ?_, ?_⟩
      · simp [pieces, dot, cut]
      · simp [following, dot, whole]
    · refine ⟨c :: first, rest, ?_, ?_⟩
      · simp [pieces, dot, cut]
      · rw [List.cons_append, ← whole]

theorem piecesSimple {cs : List Char} (simple : '.' ∉ cs) : pieces cs = [cs] := by
  induction cs with
  | nil => rfl
  | cons c rest ih =>
    obtain ⟨other, later⟩ := List.ne_and_not_mem_of_not_mem_cons simple
    rw [pieces, if_neg other.symm, ih later]

theorem piecesAppend (cs later : List Char) :
    pieces (cs ++ '.' :: later) = pieces cs ++ pieces later := by
  induction cs with
  | nil => rfl
  | cons c rest ih =>
    rw [List.cons_append, pieces, pieces, ih]
    split
    · rw [List.cons_append]
    · obtain ⟨first, more, cut, -⟩ := piecesFollowing rest
      rw [cut]
      rfl

theorem joinAllFollowing {outer : String} (some_ : outer ≠ "") (names : List String) :
    (joinAll outer names).toList = outer.toList ++ following '.' (names.map String.toList) := by
  induction names generalizing outer with
  | nil => simp [joinAll, following]
  | cons name rest ih =>
    have joined : join outer name = outer ++ "." ++ name := if_neg some_
    have longer : outer ++ "." ++ name ≠ "" := by
      intro empty
      have chars := congrArg String.toList empty
      simp at chars
    have step : joinAll outer (name :: rest) = joinAll (outer ++ "." ++ name) rest := by
      rw [joinAll, List.foldl_cons, joined]
      rfl
    rw [step, ih longer]
    simp [following]

theorem joinAllStart (name : String) (rest : List String) :
    joinAll "" (name :: rest) = joinAll name rest := by
  rw [joinAll, List.foldl_cons]
  rfl

end Dotted

namespace TypePart

def argumentChars (arguments : List TypeRef) : List Char :=
  if arguments = [] then []
  else
    '\x60' :: (Nat.toDigits 10 arguments.length ++ '<' ::
      ([','].intercalate (arguments.map (fun a => a.canonical.toList)) ++ ['>']))

def chars (p : TypePart) : List Char := p.name.toList ++ argumentChars p.arguments

theorem spellChars (p : TypePart) : (TypeRef.spellPart .canonical p).toList = p.chars := by
  obtain ⟨name, arguments⟩ := p
  cases arguments with
  | nil => simp [TypeRef.spellPart, chars, argumentChars]
  | cons first rest =>
    simp [TypeRef.spellPart, chars, argumentChars, Arity.decorate, Spelling.canonical,
      TypeRef.spellAllMap, TypeRef.canonical, Function.comp_def]

end TypePart

namespace TypeRef
variable {xid : Char → Bool} {r : TypeRef}

theorem spellJoined (s : Spelling) (r : TypeRef) : r.spell s =
    Dotted.joinAll r.ns (r.parts.map (spellPart s)) ++ r.marks.text := by
  obtain ⟨ns, outer, last, marks, link⟩ := r
  rw [spell, spellPartsMap, parts, List.map_append, Dotted.joinAll, Dotted.joinAll,
    List.foldl_append]
  rfl

def Named (r : TypeRef) : Prop := ∀ p ∈ r.parts, p.name ≠ ""

theorem WellFormed.named (h : WellFormed xid r) : r.Named := by
  obtain ⟨-, names, -⟩ := h
  exact fun p mem => (names p mem).1

theorem WellFormed.segment (h : WellFormed xid r) {p : TypePart} (mem : p ∈ r.segments) :
    Identifier xid p.name ∧ ∀ a ∈ p.arguments, WellFormed xid a := by
  obtain ⟨ns, names, arguments⟩ := h
  rcases List.mem_append.mp mem with early | late
  · split at early
    · cases early
    · rename_i some_
      obtain ⟨s, listed, rfl⟩ := List.mem_map.mp early
      refine ⟨ns.resolve_left some_ s listed, fun a mem => ?_⟩
      cases mem
  · exact ⟨names p late, arguments p late⟩

theorem joinedChars {f : TypePart → String} (bare : ∀ s, f ⟨s, []⟩ = s)
    (named : ∀ p ∈ r.parts, f p ≠ "") : ∃ first rest, r.segments = first :: rest ∧
      (Dotted.joinAll r.ns (r.parts.map f)).toList =
        (f first).toList ++ following '.' (rest.map (fun p => (f p).toList)) := by
  rw [segments]
  by_cases outermost : r.ns = ""
  · obtain ⟨first, rest, whole⟩ : ∃ first rest, r.parts = first :: rest := by
      rw [parts]
      cases r.outer with
      | nil => exact ⟨_, _, rfl⟩
      | cons p ps => exact ⟨p, ps ++ [r.last], rfl⟩
    refine ⟨first, rest, by rw [if_pos outermost, whole]; rfl, ?_⟩
    have some_ : f first ≠ "" := named first (by rw [whole]; exact List.mem_cons_self)
    rw [whole, outermost, List.map_cons, Dotted.joinAllStart, Dotted.joinAllFollowing some_,
      List.map_map]
    rfl
  · obtain ⟨first, rest, cut, whole⟩ := Dotted.piecesFollowing r.ns.toList
    refine ⟨⟨String.ofList first, []⟩, rest.map (fun s => ⟨String.ofList s, []⟩) ++ r.parts, ?_, ?_⟩
    · rw [if_neg outermost, Dotted.segments, cut]
      simp
    · rw [Dotted.joinAllFollowing outermost, bare, whole, List.map_append, List.map_map,
        List.map_map, followingAppend]
      simp [Function.comp_def, bare]

theorem canonicalChars (named : r.Named) : ∃ first rest, r.segments = first :: rest ∧
    r.canonical.toList =
      first.chars ++ (following '.' (rest.map TypePart.chars) ++ r.marks.chars) := by
  have spelled : ∀ p ∈ r.parts, spellPart .canonical p ≠ "" := by
    intro p mem empty
    have chars := TypePart.spellChars p
    rw [empty, TypePart.chars] at chars
    exact named p mem (by simpa using (List.append_eq_nil_iff.mp chars.symm).1)
  obtain ⟨first, rest, whole, text⟩ := joinedChars (fun s => by simp [spellPart]) spelled
  refine ⟨first, rest, whole, ?_⟩
  rw [canonical, spellJoined, String.toList_append, Marks.textChars, text, List.append_assoc]
  simp only [TypePart.spellChars]

end TypeRef

section Unique
variable {xid : Char → Bool}

theorem marksEnd (separate : ∀ c ∈ Text.marks, xid c = false) {text : List Char}
    (on : GoesOn Text.marks text) : ∀ c ∈ text.head?, continues xid c = false := by
  intro c head
  have mem := on c head
  have plain : c ≠ '_' := by
    intro same
    rw [same] at mem
    exact absurd mem (by decide)
  simp [continues, plain, separate c mem]

def Readable (xid : Char → Bool) (a : TypeRef) : Prop :=
  ∀ b, TypeRef.WellFormed xid b → ∀ {s t}, GoesOn Marks.closers s → GoesOn Marks.closers t →
    a.canonical.toList ++ s = b.canonical.toList ++ t → a.canonical = b.canonical ∧ s = t

def argumentTexts (arguments : List TypeRef) : List (List Char) :=
  arguments.map (fun a => a.canonical.toList)

theorem argumentsGoOn (arguments : List TypeRef) (s : List Char) :
    GoesOn Marks.closers (following ',' (argumentTexts arguments) ++ '>' :: s) := by
  cases arguments with
  | nil => exact goesOnCons (by decide)
  | cons first rest => exact goesOnCons (by decide)

theorem laterArgumentsUnique {rest rest' : List TypeRef} {s t : List Char}
    (readable : ∀ a ∈ rest, Readable xid a) (formed : ∀ b ∈ rest', TypeRef.WellFormed xid b)
    (h : following ',' (argumentTexts rest) ++ '>' :: s =
      following ',' (argumentTexts rest') ++ '>' :: t) :
    rest.map TypeRef.canonical = rest'.map TypeRef.canonical ∧ s = t := by
  induction rest generalizing rest' with
  | nil =>
    cases rest' with
    | nil => exact ⟨rfl, (List.cons.inj h).2⟩
    | cons b later => exact absurd (List.cons.inj h).1 (by decide)
  | cons a later ih =>
    cases rest' with
    | nil => exact absurd (List.cons.inj h).1 (by decide)
    | cons b later' =>
      simp only [argumentTexts, List.map_cons, followingCons, List.cons_append,
        List.append_assoc] at h
      obtain ⟨-, inner⟩ := List.cons.inj h
      obtain ⟨same, tails⟩ := readable a List.mem_cons_self b (formed b List.mem_cons_self)
        (argumentsGoOn later s) (argumentsGoOn later' t) inner
      obtain ⟨others, left⟩ := ih (fun x mem => readable x (List.mem_cons_of_mem _ mem))
        (fun x mem => formed x (List.mem_cons_of_mem _ mem)) tails
      exact ⟨by rw [List.map_cons, List.map_cons, same, others], left⟩

theorem argumentCharsUnique {arguments arguments' : List TypeRef} {s t : List Char}
    (readable : ∀ a ∈ arguments, Readable xid a)
    (formed : ∀ b ∈ arguments', TypeRef.WellFormed xid b) (ends : '\x60' ∉ s.head?)
    (ends' : '\x60' ∉ t.head?)
    (h : TypePart.argumentChars arguments ++ s = TypePart.argumentChars arguments' ++ t) :
    arguments.map TypeRef.canonical = arguments'.map TypeRef.canonical ∧ s = t := by
  cases arguments with
  | nil =>
    cases arguments' with
    | nil => exact ⟨rfl, h⟩
    | cons b later =>
      refine absurd ?_ ends
      have marked : s = TypePart.argumentChars (b :: later) ++ t := h
      rw [marked]
      rfl
  | cons a later =>
    cases arguments' with
    | nil =>
      refine absurd ?_ ends'
      have marked : TypePart.argumentChars (a :: later) ++ s = t := h
      rw [← marked]
      rfl
    | cons b later' =>
      obtain ⟨-, counted⟩ := List.cons.inj h
      have digits : ∀ n, ∀ c ∈ Nat.toDigits 10 n, c.isDigit = true := fun n c mem =>
        Nat.isDigit_of_mem_toDigits (by decide) (by decide) mem
      have opened : ∀ {text : List Char}, ∀ c ∈ ('<' :: text).head?, c.isDigit = false := by
        intro text c head
        cases head
        decide
      simp only [List.append_eq, List.append_assoc, List.cons_append] at counted
      obtain ⟨-, inner⟩ := cutUnique (digits _) (digits _) opened opened counted
      obtain ⟨-, list⟩ := List.cons.inj inner
      simp only [List.map_cons, intercalateFollowing, List.append_assoc, List.nil_append] at list
      obtain ⟨same, tails⟩ := readable a List.mem_cons_self b (formed b List.mem_cons_self)
        (argumentsGoOn later s) (argumentsGoOn later' t) list
      obtain ⟨others, left⟩ := laterArgumentsUnique
        (fun x mem => readable x (List.mem_cons_of_mem _ mem))
        (fun x mem => formed x (List.mem_cons_of_mem _ mem)) tails
      exact ⟨by rw [List.map_cons, List.map_cons, same, others], left⟩

def stops : List Char := ['.', '?', '[', '*', '&', ',', '>']

theorem partUnique (separate : ∀ c ∈ Text.marks, xid c = false) {p p' : TypePart}
    {s t : List Char} (named : Identifier xid p.name) (named' : Identifier xid p'.name)
    (readable : ∀ a ∈ p.arguments, Readable xid a)
    (formed : ∀ b ∈ p'.arguments, TypeRef.WellFormed xid b) (ends : GoesOn stops s)
    (ends' : GoesOn stops t) (h : p.chars ++ s = p'.chars ++ t) :
    p.name = p'.name ∧
      p.arguments.map TypeRef.canonical = p'.arguments.map TypeRef.canonical ∧ s = t := by
  have unmarked : ∀ {text : List Char}, GoesOn stops text → '\x60' ∉ text.head? := by
    intro text on head
    exact absurd (on _ head) (by decide)
  have behind : ∀ (arguments : List TypeRef) {text : List Char}, GoesOn stops text →
      GoesOn Text.marks (TypePart.argumentChars arguments ++ text) := by
    intro arguments text on
    cases arguments with
    | nil => exact goesOnWiden on (by decide)
    | cons first rest => exact goesOnCons (by decide)
  rw [TypePart.chars, TypePart.chars, List.append_assoc, List.append_assoc] at h
  obtain ⟨names, left⟩ := cutUnique named.2 named'.2 (marksEnd separate (behind _ ends))
    (marksEnd separate (behind _ ends')) h
  obtain ⟨arguments, tails⟩ :=
    argumentCharsUnique readable formed (unmarked ends) (unmarked ends') left
  exact ⟨String.toList_inj.mp names, arguments, tails⟩

def behindSegments : List Char := ['?', '[', '*', '&', ',', '>']

def spelledAlike (ps qs : List TypePart) : Prop :=
  ps.map TypePart.name = qs.map TypePart.name ∧
    ps.map (fun p => p.arguments.map TypeRef.canonical) =
      qs.map (fun q => q.arguments.map TypeRef.canonical)

theorem spelledAlikeCons {p q : TypePart} {ps qs : List TypePart} :
    spelledAlike (p :: ps) (q :: qs) ↔ p.name = q.name ∧
      p.arguments.map TypeRef.canonical = q.arguments.map TypeRef.canonical ∧
      spelledAlike ps qs := by
  simp only [spelledAlike, List.map_cons, List.cons.injEq]
  constructor
  · rintro ⟨⟨name, names⟩, argument, arguments⟩
    exact ⟨name, argument, names, arguments⟩
  · rintro ⟨name, argument, names, arguments⟩
    exact ⟨⟨name, names⟩, argument, arguments⟩

theorem charsOfAlike {p q : TypePart} (name : p.name = q.name)
    (arguments : p.arguments.map TypeRef.canonical = q.arguments.map TypeRef.canonical) :
    p.chars = q.chars := by
  have texts : ∀ r : TypePart, r.arguments.map (fun a => a.canonical.toList) =
      (r.arguments.map TypeRef.canonical).map String.toList := by
    intro r
    rw [List.map_map]
    rfl
  have lengths := congrArg List.length arguments
  rw [List.length_map, List.length_map] at lengths
  have bare : p.arguments = [] ↔ q.arguments = [] := by
    rw [← List.length_eq_zero_iff, ← List.length_eq_zero_iff, lengths]
  simp only [TypePart.chars, TypePart.argumentChars, name, texts, arguments, lengths, bare]

theorem charsOfAllAlike {ps qs : List TypePart} (alike : spelledAlike ps qs) :
    ps.map TypePart.chars = qs.map TypePart.chars := by
  induction ps generalizing qs with
  | nil =>
    cases qs with
    | nil => rfl
    | cons q later => cases alike.1
  | cons p rest ih =>
    cases qs with
    | nil => cases alike.1
    | cons q later =>
      obtain ⟨name, arguments, others⟩ := spelledAlikeCons.mp alike
      rw [List.map_cons, List.map_cons, charsOfAlike name arguments, ih others]

theorem segmentsGoOn {m : List Char} (ends : GoesOn behindSegments m) (ps : List TypePart) :
    GoesOn stops (following '.' (ps.map TypePart.chars) ++ m) := by
  cases ps with
  | nil => exact goesOnWiden ends (by decide)
  | cons p rest => exact goesOnCons (by decide)

def SegmentReadable (xid : Char → Bool) (p : TypePart) : Prop :=
  Identifier xid p.name ∧ ∀ a ∈ p.arguments, Readable xid a

def SegmentFormed (xid : Char → Bool) (p : TypePart) : Prop :=
  Identifier xid p.name ∧ ∀ a ∈ p.arguments, TypeRef.WellFormed xid a

theorem laterSegmentsUnique (separate : ∀ c ∈ Text.marks, xid c = false) {ps qs : List TypePart}
    {m n : List Char} (readable : ∀ p ∈ ps, SegmentReadable xid p)
    (formed : ∀ q ∈ qs, SegmentFormed xid q) (ends : GoesOn behindSegments m)
    (ends' : GoesOn behindSegments n)
    (h : following '.' (ps.map TypePart.chars) ++ m = following '.' (qs.map TypePart.chars) ++ n) :
    spelledAlike ps qs ∧ m = n := by
  induction ps generalizing qs with
  | nil =>
    cases qs with
    | nil => exact ⟨⟨rfl, rfl⟩, h⟩
    | cons q later =>
      have first := ends '.' (by
        rw [List.map_nil] at h
        have whole : m = _ := h
        rw [whole]
        rfl)
      exact absurd first (by decide)
  | cons p rest ih =>
    cases qs with
    | nil =>
      have first := ends' '.' (by
        rw [List.map_nil] at h
        have whole : _ = n := h
        rw [← whole]
        rfl)
      exact absurd first (by decide)
    | cons q later =>
      simp only [List.map_cons, followingCons, List.cons_append, List.append_assoc] at h
      obtain ⟨-, inner⟩ := List.cons.inj h
      obtain ⟨named, arguments⟩ := readable p List.mem_cons_self
      obtain ⟨named', arguments'⟩ := formed q List.mem_cons_self
      obtain ⟨name, same, tails⟩ := partUnique separate named named' arguments arguments'
        (segmentsGoOn ends rest) (segmentsGoOn ends' later) inner
      obtain ⟨others, left⟩ := ih (fun x mem => readable x (List.mem_cons_of_mem _ mem))
        (fun x mem => formed x (List.mem_cons_of_mem _ mem)) tails
      exact ⟨spelledAlikeCons.mpr ⟨name, same, others⟩, left⟩

theorem referenceUnique (separate : ∀ c ∈ Text.marks, xid c = false) {a b : TypeRef}
    {s t : List Char} (wa : TypeRef.WellFormed xid a) (wb : TypeRef.WellFormed xid b)
    (readable : ∀ p ∈ a.segments, ∀ x ∈ p.arguments, Readable xid x)
    (ends : GoesOn Marks.closers s) (ends' : GoesOn Marks.closers t)
    (h : a.canonical.toList ++ s = b.canonical.toList ++ t) :
    spelledAlike a.segments b.segments ∧ Marks.Alike a.marks b.marks ∧ s = t := by
  obtain ⟨first, rest, whole, text⟩ := TypeRef.canonicalChars wa.named
  obtain ⟨first', rest', whole', text'⟩ := TypeRef.canonicalChars wb.named
  have formed : ∀ q ∈ b.segments, SegmentFormed xid q := fun q mem => wb.segment mem
  have read : ∀ p ∈ a.segments, SegmentReadable xid p := fun p mem =>
    ⟨(wa.segment mem).1, readable p mem⟩
  rw [text, text'] at h
  simp only [List.append_assoc] at h
  rw [whole] at read ⊢
  rw [whole'] at formed ⊢
  obtain ⟨named, arguments⟩ := read first List.mem_cons_self
  obtain ⟨named', arguments'⟩ := formed first' List.mem_cons_self
  have marks := Marks.charsGoOn a.marks ends
  have marks' := Marks.charsGoOn b.marks ends'
  obtain ⟨name, same, tails⟩ := partUnique separate named named' arguments arguments'
    (segmentsGoOn marks rest) (segmentsGoOn marks' rest') h
  obtain ⟨others, left⟩ := laterSegmentsUnique separate
    (fun x mem => read x (List.mem_cons_of_mem _ mem))
    (fun x mem => formed x (List.mem_cons_of_mem _ mem)) marks marks' tails
  obtain ⟨alike, closed⟩ := Marks.charsUnique ends ends' left
  exact ⟨spelledAlikeCons.mpr ⟨name, same, others⟩, alike, closed⟩

theorem canonicalOfNamed {a b : TypeRef} (named : a.Named) (named' : b.Named)
    (segments : spelledAlike a.segments b.segments) (marks : Marks.Alike a.marks b.marks) :
    a.canonical = b.canonical := by
  obtain ⟨first, rest, whole, text⟩ := TypeRef.canonicalChars named
  obtain ⟨first', rest', whole', text'⟩ := TypeRef.canonicalChars named'
  rw [whole, whole'] at segments
  obtain ⟨name, arguments, others⟩ := spelledAlikeCons.mp segments
  refine String.toList_inj.mp ?_
  rw [text, text', charsOfAlike name arguments, charsOfAllAlike others, Marks.charsAlike marks]

theorem canonicalOfAlike {a b : TypeRef} (wa : TypeRef.WellFormed xid a)
    (wb : TypeRef.WellFormed xid b) (segments : spelledAlike a.segments b.segments)
    (marks : Marks.Alike a.marks b.marks) : a.canonical = b.canonical :=
  canonicalOfNamed wa.named wb.named segments marks

theorem wellFormedReadable (separate : ∀ c ∈ Text.marks, xid c = false) {a : TypeRef}
    (wa : TypeRef.WellFormed xid a) : Readable xid a := by
  induction wa with
  | @intro r ns names arguments ih =>
    intro b wb s t ends ends' h
    have wr : TypeRef.WellFormed xid r := .intro ns names arguments
    have readable : ∀ p ∈ r.segments, ∀ x ∈ p.arguments, Readable xid x := by
      intro p mem x inside
      rcases List.mem_append.mp mem with early | late
      · split at early
        · cases early
        · obtain ⟨segment, -, rfl⟩ := List.mem_map.mp early
          cases inside
      · exact ih p late x inside
    obtain ⟨segments, marks, tails⟩ := referenceUnique separate wr wb readable ends ends' h
    exact ⟨canonicalOfAlike wr wb segments marks, tails⟩

/-- Canonical forms are equal exactly when they spell the same segments, with arguments of equal
canonical form, and the same marks. -/
theorem canonicalReadable (separate : ∀ c ∈ Text.marks, xid c = false) {a b : TypeRef}
    (wa : TypeRef.WellFormed xid a) (wb : TypeRef.WellFormed xid b) :
    a.canonical = b.canonical ↔
      a.segments.map TypePart.name = b.segments.map TypePart.name ∧
      a.segments.map (fun p => p.arguments.map TypeRef.canonical) =
        b.segments.map (fun p => p.arguments.map TypeRef.canonical) ∧
      a.marks.nullable = b.marks.nullable ∧ a.marks.byRef = b.marks.byRef ∧
      a.marks.ranks = b.marks.ranks ∧
      if a.marks.ranks = [] then
        a.marks.pointers.toNat + a.marks.arrayPointers.toNat =
          b.marks.pointers.toNat + b.marks.arrayPointers.toNat
      else a.marks.pointers = b.marks.pointers ∧ a.marks.arrayPointers = b.marks.arrayPointers := by
  constructor
  · intro same
    have ended : GoesOn Marks.closers [] := fun c head => by cases head
    have readable : ∀ p ∈ a.segments, ∀ x ∈ p.arguments, Readable xid x := fun p mem x inside =>
      wellFormedReadable separate ((wa.segment mem).2 x inside)
    obtain ⟨⟨names, arguments⟩, ⟨nullable, byRef, ranks, pointers⟩, -⟩ :=
      referenceUnique separate wa wb readable ended ended (by rw [same])
    exact ⟨names, arguments, nullable, byRef, ranks, pointers⟩
  · rintro ⟨names, arguments, nullable, byRef, ranks, pointers⟩
    exact canonicalOfAlike wa wb ⟨names, arguments⟩ ⟨nullable, byRef, ranks, pointers⟩

end Unique

def pointerTo (before behind : UInt32) : TypeRef :=
  ⟨"", [], ⟨"int", []⟩, ⟨[], before, behind, false, false⟩, none⟩

def mapIn (ns : String) (outer : List TypePart) (first second : TypeRef) : TypeRef :=
  ⟨ns, outer, ⟨"Map", [first, second]⟩, ⟨[1], 0, 1, true, false⟩, none⟩

def tabled (c : Char) : Bool := Text.inRanges Text.identifierRanges c.toNat

theorem tabledMarks : ∀ c ∈ Text.marks, tabled c = false := by
  intro c mem
  have plain := Text.marksSeparate mem
  rw [Text.isIdentifierChar, Bool.or_eq_false_iff] at plain
  exact plain.2

theorem tabledIdentifier {s : String} (some_ : s ≠ "")
    (all : s.toList.all (continues tabled) = true) : Identifier tabled s :=
  ⟨some_, List.all_eq_true.mp all⟩

theorem bareFormed {xid : Char → Bool} {r : TypeRef} (bare : Identifier xid (r.bareName?.getD "")) :
    r.WellFormed xid := by
  unfold TypeRef.bareName? at bare
  split at bare
  · rename_i alone
    obtain ⟨ns, outer, none_⟩ := alone
    have parts : r.parts = [r.last] := by
      rw [TypeRef.parts, List.isEmpty_iff.mp outer, List.nil_append]
    refine .intro (.inl ns) (fun p mem => ?_) fun p mem a inside => ?_
    · rw [parts] at mem
      rw [List.mem_singleton.mp mem]
      exact bare
    · rw [parts] at mem
      rw [List.mem_singleton.mp mem, List.isEmpty_iff.mp none_] at inside
      cases inside
  · exact absurd rfl bare.1

theorem pointerFormed (before behind : UInt32) :
    TypeRef.WellFormed tabled (pointerTo before behind) := by
  have name : Identifier tabled "int" := tabledIdentifier (by decide) (by decide)
  refine .intro (.inl rfl) (fun p mem => ?_) fun p mem a inside => ?_
  · rw [List.mem_singleton.mp mem]
    exact name
  · rw [List.mem_singleton.mp mem] at inside
    cases inside

theorem mapFormed {ns : String} {outer : List TypePart} {first second : TypeRef}
    (segments : ∀ s ∈ Dotted.segments ns, Identifier tabled s)
    (names : ∀ p ∈ outer, Identifier tabled p.name ∧ p.arguments = [])
    (formed : ∀ a ∈ [first, second], TypeRef.WellFormed tabled a) :
    TypeRef.WellFormed tabled (mapIn ns outer first second) := by
  have name : Identifier tabled "Map" := tabledIdentifier (by decide) (by decide)
  refine .intro (.inr segments) (fun p mem => ?_) fun p mem a inside => ?_
  · rcases List.mem_append.mp mem with early | late
    · exact (names p early).1
    · rw [List.mem_singleton.mp late]
      exact name
  · rcases List.mem_append.mp mem with early | late
    · rw [(names p early).2] at inside
      cases inside
    · rw [List.mem_singleton.mp late] at inside
      exact formed a inside

theorem canonicalReadableMap :
    (mapIn "N.M" [] (pointerTo 1 0) (pointerTo 0 2)).canonical =
      (mapIn "N" [⟨"M", []⟩] (pointerTo 0 1) (pointerTo 1 1)).canonical := by
  have n : Identifier tabled "N" := tabledIdentifier (by decide) (by decide)
  have m : Identifier tabled "M" := tabledIdentifier (by decide) (by decide)
  have both : ∀ {a b c d}, ∀ r ∈ [pointerTo a b, pointerTo c d], TypeRef.WellFormed tabled r := by
    intro a b c d r mem
    rcases List.mem_pair.mp mem with rfl | rfl <;> exact pointerFormed ..
  have whole : TypeRef.WellFormed tabled (mapIn "N.M" [] (pointerTo 1 0) (pointerTo 0 2)) := by
    refine mapFormed (fun s mem => ?_) (fun p inside => by cases inside) both
    have cut : Dotted.segments "N.M" = ["N", "M"] := by decide
    rw [cut] at mem
    rcases List.mem_pair.mp mem with rfl | rfl
    · exact n
    · exact m
  have split : TypeRef.WellFormed tabled
      (mapIn "N" [⟨"M", []⟩] (pointerTo 0 1) (pointerTo 1 1)) := by
    refine mapFormed (fun s mem => ?_) (fun p mem => ?_) both
    · have cut : Dotted.segments "N" = ["N"] := by decide
      rw [cut] at mem
      rw [List.mem_singleton.mp mem]
      exact n
    · rw [List.mem_singleton.mp mem]
      exact ⟨m, rfl⟩
  exact (canonicalReadable tabledMarks whole split).mpr
    ⟨by decide, by decide, rfl, rfl, rfl, by decide⟩

end TypeScope
