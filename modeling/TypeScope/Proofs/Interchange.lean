import TypeScope.Proofs.BaseNames

/-! What canonical forms decide. References that are made of identifiers and record pointers behind
ranks only where there are ranks can differ in where the namespace ends, and in nothing else, when
their canonical forms are equal; every operation on references leads them to equal forms again. -/
namespace TypeScope

namespace TypeRef

inductive Upright : TypeRef → Prop where
  | intro {r} (marks : r.marks.ranks = [] → r.marks.arrayPointers = 0)
      (arguments : ∀ p ∈ r.parts, ∀ a ∈ p.arguments, Upright a) : Upright r

structure Twins (a b : TypeRef) : Prop where
  named : a.Named
  named' : b.Named
  segments : spelledAlike a.segments b.segments
  marks : a.marks = b.marks

end TypeRef

def TypePart.Related (P : TypeRef → TypeRef → Prop) (p q : TypePart) : Prop :=
  p.name = q.name ∧ List.Forall₂ P p.arguments q.arguments

section Twins
open TypeRef
variable {xid : Char → Bool} {a b : TypeRef}

theorem Marks.alikeRefl (m : Marks) : Marks.Alike m m :=
  ⟨rfl, rfl, rfl, by split <;> simp⟩

theorem relatedOfMap {α β γ : Type} {f : α → γ} {g : β → γ} {R : α → β → Prop} {l : List α}
    {l' : List β} (same : l.map f = l'.map g)
    (related : ∀ x ∈ l, ∀ y ∈ l', f x = g y → R x y) : List.Forall₂ R l l' := by
  induction l generalizing l' with
  | nil =>
    cases l' with
    | nil => exact .nil
    | cons y later => cases same
  | cons x rest ih =>
    cases l' with
    | nil => cases same
    | cons y later =>
      obtain ⟨first, others⟩ := List.cons.inj same
      refine .cons (related x List.mem_cons_self y List.mem_cons_self first) ?_
      exact ih others fun x' mem y' mem' =>
        related x' (List.mem_cons_of_mem _ mem) y' (List.mem_cons_of_mem _ mem')

theorem mapOfRelated {α β γ : Type} {f : α → γ} {g : β → γ} {R : α → β → Prop} {l : List α}
    {l' : List β} (related : List.Forall₂ R l l') (told : ∀ x y, R x y → f x = g y) :
    l.map f = l'.map g := by
  induction related with
  | nil => rfl
  | cons first _ ih => rw [List.map_cons, List.map_cons, told _ _ first, ih]

theorem relatedEmpty {α β : Type} {R : α → β → Prop} {l : List α} {l' : List β}
    (related : List.Forall₂ R l l') : l.isEmpty = l'.isEmpty := by
  cases related <;> rfl

theorem relatedOfAlike {R : TypePart → TypePart → Prop} {ps qs : List TypePart}
    (alike : spelledAlike ps qs) (related : ∀ p ∈ ps, ∀ q ∈ qs, p.name = q.name →
      p.arguments.map canonical = q.arguments.map canonical → R p q) :
    List.Forall₂ R ps qs := by
  induction ps generalizing qs with
  | nil =>
    cases qs with
    | nil => exact .nil
    | cons q later => cases alike.1
  | cons p rest ih =>
    cases qs with
    | nil => cases alike.1
    | cons q later =>
      obtain ⟨name, arguments, others⟩ := spelledAlikeCons.mp alike
      refine .cons (related p List.mem_cons_self q List.mem_cons_self name arguments) ?_
      exact ih others fun x mem y mem' =>
        related x (List.mem_cons_of_mem _ mem) y (List.mem_cons_of_mem _ mem')

theorem TypeRef.Twins.marked (twins : Twins a b) (m : Marks) (link link' : Option Stamp) :
    canonical { a with marks := m, link := link } =
      canonical { b with marks := m, link := link' } :=
  canonicalOfNamed (a := { a with marks := m, link := link })
    (b := { b with marks := m, link := link' }) twins.named twins.named' twins.segments
    (Marks.alikeRefl m)

theorem TypeRef.Twins.canonical (twins : Twins a b) : a.canonical = b.canonical :=
  canonicalOfNamed twins.named twins.named' twins.segments (twins.marks ▸ Marks.alikeRefl a.marks)

theorem TypeRef.Upright.marksSame (ua : a.Upright) (ub : b.Upright)
    (alike : Marks.Alike a.marks b.marks) : a.marks = b.marks := by
  obtain ⟨behind, -⟩ := ua
  obtain ⟨behind', -⟩ := ub
  obtain ⟨nullable, byRef, ranks, pointers⟩ := alike
  have both : a.marks.pointers = b.marks.pointers ∧
      a.marks.arrayPointers = b.marks.arrayPointers := by
    by_cases bare : a.marks.ranks = []
    · rw [if_pos bare] at pointers
      have zero := behind bare
      have zero' := behind' (ranks ▸ bare)
      rw [zero, zero'] at pointers
      exact ⟨UInt32.toNat_inj.mp (Nat.add_right_cancel pointers), zero.trans zero'.symm⟩
    · rwa [if_neg bare] at pointers
  obtain ⟨ns, outer, last, ⟨r, p, ap, n, br⟩, link⟩ := a
  obtain ⟨ns', outer', last', ⟨r', p', ap', n', br'⟩, link'⟩ := b
  obtain ⟨before, after⟩ := both
  cases nullable
  cases byRef
  cases ranks
  cases before
  cases after
  rfl

theorem twinsOfSame (separate : ∀ c ∈ Text.marks, xid c = false) (wa : a.WellFormed xid)
    (wb : b.WellFormed xid) (ua : a.Upright) (ub : b.Upright)
    (same : a.canonical = b.canonical) : Twins a b := by
  obtain ⟨names, arguments, nullable, byRef, ranks, pointers⟩ :=
    (canonicalReadable separate wa wb).mp same
  exact ⟨wa.named, wb.named, ⟨names, arguments⟩,
    ua.marksSame ub ⟨nullable, byRef, ranks, pointers⟩⟩

theorem TypeRef.Upright.segment (upright : a.Upright) {p : TypePart} (mem : p ∈ a.segments) :
    ∀ x ∈ p.arguments, x.Upright := by
  obtain ⟨-, arguments⟩ := upright
  rcases List.mem_append.mp mem with early | late
  · split at early
    · cases early
    · obtain ⟨s, -, rfl⟩ := List.mem_map.mp early
      intro x inside
      cases inside
  · exact arguments p late

theorem twinInduction {P : TypeRef → TypeRef → Prop}
    (separate : ∀ c ∈ Text.marks, xid c = false)
    (step : ∀ {a b : TypeRef}, Twins a b →
      List.Forall₂ (TypePart.Related P) a.segments b.segments → P a b)
    (wa : a.WellFormed xid) (wb : b.WellFormed xid) (ua : a.Upright) (ub : b.Upright)
    (same : a.canonical = b.canonical) : P a b := by
  induction wa generalizing b with
  | @intro r ns names arguments ih =>
    have wr : r.WellFormed xid := .intro ns names arguments
    have twins := twinsOfSame separate wr wb ua ub same
    refine step twins (relatedOfAlike twins.segments fun p mem q mem' name given => ⟨name, ?_⟩)
    refine relatedOfMap given fun x inside y inside' here => ?_
    have part : p ∈ r.parts := by
      rcases List.mem_append.mp mem with early | late
      · split at early
        · cases early
        · obtain ⟨s, -, rfl⟩ := List.mem_map.mp early
          cases inside
      · exact late
    exact ih p part x inside ((wb.segment mem').2 y inside') (ua.segment mem x inside)
      (ub.segment mem' y inside') here

end Twins

section Names
open TypeRef
variable {a b : TypeRef}

theorem joinedSame {f : TypePart → String} (bare : ∀ s, f ⟨s, []⟩ = s)
    (filled : ∀ p : TypePart, p.name ≠ "" → f p ≠ "") (named : a.Named) (named' : b.Named)
    (same : a.segments.map f = b.segments.map f) :
    Dotted.joinAll a.ns (a.parts.map f) = Dotted.joinAll b.ns (b.parts.map f) := by
  obtain ⟨first, rest, whole, text⟩ := joinedChars bare fun p mem => filled p (named p mem)
  obtain ⟨first', rest', whole', text'⟩ := joinedChars bare fun p mem => filled p (named' p mem)
  rw [whole, whole'] at same
  obtain ⟨one, others⟩ := List.cons.inj same
  have texts := congrArg (List.map String.toList) others
  rw [List.map_map, List.map_map] at texts
  refine String.toList_inj.mp ?_
  rw [text, text', one]
  exact congrArg (fun l => (f first').toList ++ following '.' l) texts

theorem TypeRef.Twins.decoratedName (twins : Twins a b) : a.decoratedName = b.decoratedName := by
  refine joinedSame (f := TypePart.decorated) (fun s => rfl) (fun p some_ empty => some_ ?_)
    twins.named twins.named' (mapOfRelated (R := fun p q => p.decorated = q.decorated)
      (relatedOfAlike twins.segments fun p _ q _ name arguments => ?_) fun _ _ same => same)
  · have chars := congrArg String.toList empty
    rw [TypePart.decorated, decorateChars] at chars
    simpa using (List.append_eq_nil_iff.mp chars).1
  · have counts := congrArg List.length arguments
    rw [List.length_map, List.length_map] at counts
    rw [TypePart.decorated, TypePart.decorated, name, counts]

theorem spellRelated {style : Spelling} {p q : TypePart}
    (alike : TypePart.Related (fun x y => x.spell style = y.spell style) p q) :
    spellPart style p = spellPart style q := by
  obtain ⟨name, given⟩ := p
  obtain ⟨name', given'⟩ := q
  obtain ⟨names, arguments⟩ := alike
  have texts : given.map (spell style) = given'.map (spell style) :=
    mapOfRelated arguments fun _ _ same => same
  have counts : given.length = given'.length := arguments.length_eq
  have empty : given.isEmpty = given'.isEmpty := relatedEmpty arguments
  cases names
  rw [spellPart, spellPart, spellAllMap, spellAllMap, texts, counts, empty]

theorem shownStep (twins : Twins a b)
    (related : List.Forall₂ (TypePart.Related fun x y => x.shown = y.shown) a.segments b.segments) :
    a.shown = b.shown := by
  have parts : a.segments.map (spellPart .source) = b.segments.map (spellPart .source) :=
    mapOfRelated related fun _ _ => spellRelated
  have filled : ∀ p : TypePart, p.name ≠ "" → spellPart .source p ≠ "" := by
    rintro ⟨name, given⟩ some_ empty
    refine some_ ?_
    rw [spellPart] at empty
    split at empty
    · exact empty
    · have chars := congrArg String.toList empty
      simp [Spelling.source] at chars
  have bare : ∀ s, spellPart .source ⟨s, []⟩ = s := fun s => by simp [spellPart]
  rw [shown, shown, spellJoined, spellJoined, twins.marks,
    joinedSame bare filled twins.named twins.named' parts]

theorem shownSame {xid : Char → Bool} (separate : ∀ c ∈ Text.marks, xid c = false)
    (wa : a.WellFormed xid) (wb : b.WellFormed xid) (ua : a.Upright) (ub : b.Upright)
    (same : a.canonical = b.canonical) : a.shown = b.shown :=
  twinInduction separate shownStep wa wb ua ub same

end Names

section Operations
open TypeRef
variable {a b : TypeRef}

theorem arrayOfTwins (twins : Twins a b) : a.arrayOf.canonical = b.arrayOf.canonical := by
  have marked := twins.marked { a.marks with ranks := a.marks.ranks ++ [0] } none none
  rw [arrayOf, arrayOf, ← twins.marks]
  exact marked

theorem elementTwins (twins : Twins a b) :
    a.element?.map canonical = b.element?.map canonical := by
  rw [element?, element?, ← twins.marks]
  cases a.marks.ranks with
  | nil => rfl
  | cons first rest =>
    have marked := twins.marked { a.marks with ranks := rest, arrayPointers := 0 } none none
    exact congrArg some marked

theorem bareSegment (r : TypeRef) : r.bareName? =
    match r.segments with
    | [p] => if p.arguments.isEmpty then some p.name else none
    | _ => none := by
  obtain ⟨ns, outer, last, marks, link⟩ := r
  by_cases outermost : ns = ""
  · subst outermost
    cases outer with
    | nil =>
      by_cases empty : last.arguments.isEmpty = true <;>
        simp [bareName?, segments, parts, empty]
    | cons p rest =>
      cases rest <;> simp [bareName?, segments, parts]
  · obtain ⟨first, rest, cut, -⟩ := Dotted.piecesFollowing ns.toList
    have none_ : bareName? ⟨ns, outer, last, marks, link⟩ = none := if_neg fun all => outermost all.1
    rw [none_, segments, if_neg outermost, Dotted.segments, cut]
    cases rest <;> cases outer <;> simp [parts]

theorem TypeRef.Twins.bareName (twins : Twins a b) : a.bareName? = b.bareName? := by
  rw [bareSegment, bareSegment]
  have alike := relatedOfAlike (R := fun p q => p.name = q.name ∧
    p.arguments.isEmpty = q.arguments.isEmpty) twins.segments
    fun p _ q _ name arguments => ⟨name, by
      have counts := congrArg List.length arguments
      rw [List.length_map, List.length_map] at counts
      rw [Bool.eq_iff_iff, List.isEmpty_iff_length_eq_zero, List.isEmpty_iff_length_eq_zero,
        counts]⟩
  revert alike
  generalize a.segments = ps
  generalize b.segments = qs
  intro alike
  cases alike with
  | nil => rfl
  | cons first others =>
    cases others with
    | nil =>
      dsimp only
      rw [first.1, first.2]
    | cons second later => rfl

theorem replaceFree {β : Bindings} {r : TypeRef} (free : r.bound? β = none) :
    (r.replace β).segments = r.segments.map (replacePart β) ∧ (r.replace β).marks = r.marks ∧
      (r.Named → (r.replace β).Named) := by
  obtain ⟨ns, outer, last, marks, link⟩ := r
  have whole : replace β ⟨ns, outer, last, marks, link⟩ =
      ⟨ns, replaceParts β outer, replacePart β last, marks, none⟩ := by rw [replace, free]
  have parts : (replace β ⟨ns, outer, last, marks, link⟩).parts =
      (TypeRef.parts ⟨ns, outer, last, marks, link⟩).map (replacePart β) := by
    rw [whole, TypeRef.parts, TypeRef.parts, List.map_append, replacePartsMap]
    rfl
  refine ⟨?_, by rw [whole], fun named p mem => ?_⟩
  · rw [segments, segments, parts, List.map_append, whole]
    by_cases outermost : ns = ""
    · simp [outermost]
    · simp [outermost, Function.comp_def, replacePartEq]
  · rw [parts] at mem
    obtain ⟨q, listed, rfl⟩ := List.mem_map.mp mem
    rw [replacePartEq]
    exact named q listed

theorem replaceStep (β : Bindings) (twins : Twins a b) (related : List.Forall₂ (TypePart.Related
    fun x y => (x.replace β).canonical = (y.replace β).canonical) a.segments b.segments) :
    (a.replace β).canonical = (b.replace β).canonical := by
  have bounds : a.bound? β = b.bound? β := by rw [bound?, bound?, twins.bareName]
  cases found : a.bound? β with
  | some argument =>
    -- the argument takes over the marks, which are the same
    have put : ∀ r : TypeRef, r.bound? β = some argument → r.replace β = argument.inPlaceOf r := by
      rintro ⟨ns, outer, last, marks, link⟩ here
      rw [replace, here]
    rw [put a found, put b (bounds ▸ found), inPlaceOf, inPlaceOf, twins.marks]
  | none =>
    obtain ⟨segments, marks, named⟩ := replaceFree found
    obtain ⟨segments', marks', named'⟩ := replaceFree (bounds ▸ found)
    refine canonicalOfNamed (named twins.named) (named' twins.named') ?_
      (by rw [marks, marks', twins.marks]; exact Marks.alikeRefl _)
    rw [segments, segments']
    constructor
    · rw [List.map_map, List.map_map]
      refine mapOfRelated related fun p q alike => ?_
      simpa [replacePartEq] using alike.1
    · rw [List.map_map, List.map_map]
      refine mapOfRelated related fun p q alike => ?_
      simpa [replacePartEq, Function.comp_def] using mapOfRelated alike.2 fun _ _ same => same

theorem substituteSame {xid : Char → Bool} (separate : ∀ c ∈ Text.marks, xid c = false)
    (wa : a.WellFormed xid) (wb : b.WellFormed xid) (ua : a.Upright) (ub : b.Upright)
    (same : a.canonical = b.canonical) (β : Bindings) :
    (a.substitute β).canonical = (b.substitute β).canonical := by
  rw [substitute, substitute]
  split
  · exact same
  · exact twinInduction (P := fun a b => (a.replace β).canonical = (b.replace β).canonical)
      separate (replaceStep β) wa wb ua ub same

end Operations

section Arguments
open TypeRef

def Bindings.Twins (β γ : Bindings) : Prop :=
  ∀ name, Option.Rel TypeRef.Twins (β.get? name) (γ.get? name)

theorem bindingsTwins (names : List String) {xs ys : List TypeRef}
    (twins : List.Forall₂ TypeRef.Twins xs ys) :
    Bindings.Twins (.ofPairs (names.zip xs)) (.ofPairs (names.zip ys)) := by
  have folded : ∀ {β γ : Bindings}, β.Twins γ → Bindings.Twins
      ((names.zip xs).foldl (fun b p => b.put p.1 p.2) β)
      ((names.zip ys).foldl (fun b p => b.put p.1 p.2) γ) := by
    induction twins generalizing names with
    | nil =>
      intro β γ alike
      simpa using alike
    | @cons x y xs ys first others ih =>
      cases names with
      | nil => exact fun alike => alike
      | cons name rest =>
        intro β γ alike
        refine ih rest fun other => ?_
        rw [Table.getPut, Table.getPut]
        split
        · exact .some first
        · exact alike other
  exact folded fun name => .none

theorem Bindings.Twins.empty {β γ : Bindings} (twins : β.Twins γ) :
    β.entries.isEmpty = γ.entries.isEmpty := by
  obtain ⟨entries⟩ := β
  obtain ⟨entries'⟩ := γ
  cases entries with
  | nil =>
    cases entries' with
    | nil => rfl
    | cons e rest =>
      have first := twins e.1
      simp [Table.get?, Table.find] at first
  | cons e rest =>
    cases entries' with
    | nil =>
      have first := twins e.1
      simp [Table.get?, Table.find] at first
    | cons e' rest' => rfl

mutual
theorem replaceTwins {β γ : Bindings} (twins : β.Twins γ) (r : TypeRef) :
    (r.replace β).canonical = (r.replace γ).canonical := by
  obtain ⟨ns, outer, last, marks, link⟩ := r
  have values : Option.Rel TypeRef.Twins (bound? β ⟨ns, outer, last, marks, link⟩)
      (bound? γ ⟨ns, outer, last, marks, link⟩) := by
    rw [bound?, bound?]
    cases bareName? ⟨ns, outer, last, marks, link⟩ with
    | none => exact .none
    | some name => exact twins name
  rw [replace, replace]
  cases left : bound? β ⟨ns, outer, last, marks, link⟩ with
  | none =>
    cases right : bound? γ ⟨ns, outer, last, marks, link⟩ with
    | some y =>
      rw [left, right] at values
      cases values
    | none =>
      dsimp only
      rw [canonical, canonical, spell, spell, replacePartsTwins twins outer,
        replacePartTwins twins last]
  | some x =>
    cases right : bound? γ ⟨ns, outer, last, marks, link⟩ with
    | none =>
      rw [left, right] at values
      cases values
    | some y =>
      rw [left, right] at values
      obtain ⟨both⟩ := values
      dsimp only
      rw [inPlaceOf, inPlaceOf, both.marks]
      exact both.marked _ none none

theorem replacePartTwins {β γ : Bindings} (twins : β.Twins γ) (p : TypePart) :
    spellPart .canonical (replacePart β p) = spellPart .canonical (replacePart γ p) := by
  obtain ⟨name, arguments⟩ := p
  rw [replacePart, replacePart, spellPart, spellPart, replaceAllTwins twins arguments]
  rw [replaceAllMap, replaceAllMap]
  simp

theorem replacePartsTwins {β γ : Bindings} (twins : β.Twins γ) (ps : List TypePart) :
    spellParts .canonical (replaceParts β ps) = spellParts .canonical (replaceParts γ ps) := by
  cases ps with
  | nil => rfl
  | cons p rest =>
    rw [replaceParts, replaceParts, spellParts, spellParts, replacePartTwins twins p,
      replacePartsTwins twins rest]

theorem replaceAllTwins {β γ : Bindings} (twins : β.Twins γ) (rs : List TypeRef) :
    spellAll .canonical (replaceAll β rs) = spellAll .canonical (replaceAll γ rs) := by
  cases rs with
  | nil => rfl
  | cons r rest =>
    have first := replaceTwins twins r
    rw [canonical, canonical] at first
    rw [replaceAll, replaceAll, spellAll, spellAll, first, replaceAllTwins twins rest]
end

theorem substituteTwins {β γ : Bindings} (twins : β.Twins γ) (r : TypeRef) :
    (r.substitute β).canonical = (r.substitute γ).canonical := by
  rw [substitute, substitute, twins.empty]
  split
  · rfl
  · exact replaceTwins twins r

structure Member.Alike (m n : Member) : Prop where
  rest : { m with type := none, parameters := [] } = { n with type := none, parameters := [] }
  type : m.type.map canonical = n.type.map canonical
  parameters : m.parameters.map (fun p => (p.name, p.type.canonical, p.modifiers)) =
    n.parameters.map (fun p => (p.name, p.type.canonical, p.modifiers))

theorem memberTwins {β γ : Bindings} (twins : β.Twins γ) (m : Member) :
    (m.substitute β).Alike (m.substitute γ) where
  rest := rfl
  type := by
    rw [Member.substitute, Member.substitute, Option.map_map, Option.map_map]
    exact congrArg (fun f => m.type.map f) (funext (substituteTwins twins))
  parameters := by
    rw [Member.substitute, Member.substitute, List.map_map, List.map_map]
    exact List.map_congr_left fun p _ => by
      simp only [Function.comp_apply, substituteTwins twins p.type]

end Arguments
end TypeScope
