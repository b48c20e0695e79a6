import TypeScope.Proofs.Erasure
import TypeScope.Proofs.Interchange

/-! What putting arguments in the place of names comes to. Two substitutions in a row are one; and
what a reference becomes is told, without bindings, by what each name it mentions stands for. -/
namespace TypeScope

theorem Marks.behindAssoc (a b c : Marks) : (a.behind b).behind c = a.behind (b.behind c) := by
  simp only [behind, List.append_assoc, UInt32.add_assoc, Bool.or_assoc]

def Bindings.andThen (first second : Bindings) : Bindings :=
  ⟨(first.mapped (TypeRef.substitute second)).entries ++
    (second.keep (fun name => !first.contains name)).entries⟩

namespace Table
variable {κ α : Type}

theorem keepAll {t : Table κ α} {p : κ → Bool} (all : ∀ k, p k = true) : t.keep p = t := by
  rw [keep, List.filter_eq_self.mpr fun e _ => all e.1]

theorem emptyEntries {t : Table κ α} (none_ : t.entries.isEmpty = true) : t = empty :=
  congrArg Table.mk (List.isEmpty_iff.mp none_)

theorem findAppend [DecidableEq κ] (before after : List (κ × α)) (k : κ) :
    find (before ++ after) k = (find before k).or (find after k) := by
  induction before with
  | nil => rfl
  | cons e rest ih =>
    rw [List.cons_append, find, find]
    split
    · rfl
    · exact ih

end Table

namespace Bindings

theorem andThenGet (first second : Bindings) (name : String) :
    (first.andThen second).get? name =
      ((first.get? name).map (TypeRef.substitute second)).or (second.get? name) := by
  have kept := Table.getKeep (t := second) (p := fun name => !first.contains name) (j := name)
  have mapped := Table.getMapped (TypeRef.substitute second) first name
  rw [Table.get?] at kept mapped ⊢
  rw [andThen, Table.findAppend, kept, mapped, Table.contains]
  cases first.get? name <;> rfl

theorem emptyAndThen (second : Bindings) : Bindings.andThen Table.empty second = second := by
  rw [andThen, Table.keepAll fun name => by rfl]
  rfl

theorem andThenEmpty (first : Bindings) : first.andThen Table.empty = first := by
  have same : first.mapped (TypeRef.substitute Table.empty) = first := by
    rw [Table.mapped, List.map_congr_left fun e _ => by rw [TypeRef.substituteNone], List.map_id']
  rw [andThen, same]
  exact congrArg Table.mk (List.append_nil first.entries)

end Bindings

namespace TypeRef

mutual
theorem byParts {P : TypeRef → Prop}
    (step : ∀ r : TypeRef, (∀ p ∈ r.parts, ∀ a ∈ p.arguments, P a) → P r) : ∀ r, P r
  | ⟨ns, outer, last, marks, link⟩ => by
    refine step _ fun p mem => ?_
    rcases List.mem_append.mp mem with early | late
    · exact byOuter step outer p early
    · rw [List.mem_singleton.mp late]
      exact byPart step last

theorem byPart {P : TypeRef → Prop}
    (step : ∀ r : TypeRef, (∀ p ∈ r.parts, ∀ a ∈ p.arguments, P a) → P r) :
    ∀ p : TypePart, ∀ a ∈ p.arguments, P a
  | ⟨_, arguments⟩ => byArguments step arguments

theorem byOuter {P : TypeRef → Prop}
    (step : ∀ r : TypeRef, (∀ p ∈ r.parts, ∀ a ∈ p.arguments, P a) → P r) :
    ∀ ps : List TypePart, ∀ p ∈ ps, ∀ a ∈ p.arguments, P a
  | [] => by simp
  | p :: rest => List.forall_mem_cons.mpr ⟨byPart step p, byOuter step rest⟩

theorem byArguments {P : TypeRef → Prop}
    (step : ∀ r : TypeRef, (∀ p ∈ r.parts, ∀ a ∈ p.arguments, P a) → P r) :
    ∀ rs : List TypeRef, ∀ a ∈ rs, P a
  | [] => by simp
  | r :: rest => List.forall_mem_cons.mpr ⟨byParts step r, byArguments step rest⟩
end

def inside (b : Bindings) (r : TypeRef) : TypeRef :=
  ⟨r.ns, r.outer.map (replacePart b), replacePart b r.last, r.marks, none⟩

theorem replaceEq (b : Bindings) (r : TypeRef) :
    r.replace b = ((r.bound? b).map (fun a => a.inPlaceOf r)).getD (r.inside b) := by
  obtain ⟨ns, outer, last, marks, link⟩ := r
  rw [replace, inside, replacePartsMap]
  cases bound? b ⟨ns, outer, last, marks, link⟩ <;> rfl

theorem replaceBound {b : Bindings} {r a : TypeRef} (found : r.bound? b = some a) :
    r.replace b = a.inPlaceOf r := by
  rw [replaceEq, found]
  rfl

theorem replaceFree {b : Bindings} {r : TypeRef} (free : r.bound? b = none) :
    r.replace b = r.inside b := by
  rw [replaceEq, free]
  rfl

theorem insideParts (b : Bindings) (r : TypeRef) :
    (r.inside b).parts = r.parts.map (replacePart b) := by
  rw [parts, parts, List.map_append]
  rfl

theorem insideBare (b : Bindings) (r : TypeRef) : (r.inside b).bareName? = r.bareName? := by
  have arguments : (replacePart b r.last).arguments.isEmpty = r.last.arguments.isEmpty := by
    rw [replacePartEq, List.isEmpty_map]
  have name : (replacePart b r.last).name = r.last.name := by rw [replacePartEq]
  rw [bareName?, bareName?, inside]
  dsimp only
  rw [arguments, name, List.isEmpty_map]

theorem boundInPlace (b : Bindings) (a r : TypeRef) : (a.inPlaceOf r).bound? b = a.bound? b := rfl

theorem inPlaceTwice (x a r : TypeRef) :
    x.inPlaceOf (a.inPlaceOf r) = (x.inPlaceOf a).inPlaceOf r := by
  rw [inPlaceOf, inPlaceOf, inPlaceOf, inPlaceOf]
  dsimp only
  rw [Marks.behindAssoc]

theorem replaceInPlace (b : Bindings) (a r : TypeRef) :
    (a.inPlaceOf r).replace b = (a.replace b).inPlaceOf r := by
  cases found : a.bound? b with
  | some x =>
    rw [replaceBound found, replaceBound ((boundInPlace b a r).trans found), inPlaceTwice]
  | none =>
    rw [replaceFree found, replaceFree ((boundInPlace b a r).trans found)]
    rfl

section Twice
variable {first second both : Bindings}

theorem insideTwice {r : TypeRef}
    (arguments : ∀ p ∈ r.parts, ∀ a ∈ p.arguments,
      (a.replace first).replace second = a.replace both) :
    (r.inside first).inside second = r.inside both := by
  have part : ∀ p ∈ r.parts, replacePart second (replacePart first p) = replacePart both p := by
    intro p mem
    rw [replacePartEq, replacePartEq, replacePartEq, List.map_map]
    exact congrArg (TypePart.mk p.name) (List.map_congr_left (arguments p mem))
  have outer : (r.outer.map (replacePart first)).map (replacePart second) =
      r.outer.map (replacePart both) := by
    rw [List.map_map]
    exact List.map_congr_left fun p mem => part p (List.mem_append_left _ mem)
  rw [inside, inside, inside]
  dsimp only
  rw [outer, part r.last (List.mem_append_right _ List.mem_cons_self)]

theorem replaceTwice
    (composed : ∀ name,
      both.get? name = ((first.get? name).map (replace second)).or (second.get? name)) :
    ∀ r : TypeRef, (r.replace first).replace second = r.replace both := by
  refine byParts fun r arguments => ?_
  have there : r.bound? both = ((r.bound? first).map (replace second)).or (r.bound? second) := by
    rw [bound?, bound?, bound?]
    cases r.bareName? with
    | none => rfl
    | some name => exact composed name
  cases here : r.bound? first with
  | some a =>
    rw [here] at there
    rw [replaceBound here, replaceInPlace, replaceBound there]
  | none =>
    rw [here, Option.map_none, Option.none_or] at there
    have next : (r.inside first).bound? second = r.bound? second := by
      rw [bound?, insideBare, bound?]
    rw [replaceFree here]
    cases found : r.bound? second with
    | some x =>
      rw [found] at next there
      rw [replaceBound next, replaceBound there]
      rfl
    | none =>
      rw [found] at next there
      rw [replaceFree next, replaceFree there, insideTwice arguments]

end Twice

theorem substituteFilled {b : Bindings} (filled : b.entries.isEmpty = false) :
    substitute b = replace b := by
  funext r
  rw [substitute, filled, if_neg Bool.false_ne_true]

theorem substituteBound {b : Bindings} {r a : TypeRef} {name : String}
    (bare : r.bareName? = some name) (bound : b.get? name = some a) :
    r.substitute b = ⟨a.ns, a.outer, a.last, a.marks.behind r.marks, none⟩ := by
  have found : r.bound? b = some a := by rw [bound?, bare, Option.bind_some, bound]
  have filled : b.entries.isEmpty = false := by
    cases entries : b.entries with
    | nil =>
      rw [Table.get?, entries] at bound
      cases bound
    | cons e rest => rfl
  rw [substituteFilled filled, replaceBound found, inPlaceOf]

theorem substituteBoundPointer :
    ({ named "T" with marks := ⟨[], 1, 0, true, false⟩ } : TypeRef).substitute
        (.ofPairs [("T", (named "Lib.X").arrayOf)]) =
      { named "Lib.X" with marks := ⟨[0], 1, 0, true, false⟩ } := by
  have bound : (Bindings.ofPairs [("T", (named "Lib.X").arrayOf)]).get? "T" =
      some (named "Lib.X").arrayOf := rfl
  exact (substituteBound rfl bound).trans rfl

/-- Substituting twice is substituting once, with the second bindings put into the arguments of
the first: marks, pointer depths and links come out the same. -/
theorem substituteTwice (first second : Bindings) :
    (∀ name, (first.andThen second).get? name =
      ((first.get? name).map (substitute second)).or (second.get? name)) ∧
    ∀ r : TypeRef,
      (r.substitute first).substitute second = r.substitute (first.andThen second) := by
  refine ⟨first.andThenGet second, fun r => ?_⟩
  cases some_ : first.entries.isEmpty with
  | true => rw [Table.emptyEntries some_, substituteNone, Bindings.emptyAndThen]
  | false =>
    cases more : second.entries.isEmpty with
    | true => rw [Table.emptyEntries more, substituteNone, Bindings.andThenEmpty]
    | false =>
      have filled : (first.andThen second).entries.isEmpty = false := by
        cases split : first.entries with
        | nil => rw [split] at some_; cases some_
        | cons e rest => rw [Bindings.andThen, Table.mapped, split]; rfl
      rw [substituteFilled some_, substituteFilled more, substituteFilled filled]
      refine replaceTwice (fun name => ?_) r
      rw [first.andThenGet, substituteFilled more]

end TypeRef

section Becoming

mutual
inductive TypeRef.Becomes (stands : String → Option TypeRef) : TypeRef → TypeRef → Prop
  | mention {r a : TypeRef} (known : r.bareName?.bind stands = some a) :
      TypeRef.Becomes stands r (a.inPlaceOf r)
  | rest {r s : TypeRef} (unknown : r.bareName?.bind stands = none) (ns : s.ns = r.ns)
      (marks : s.marks = r.marks) (parts : List.Forall₂ (TypePart.Becomes stands) r.parts s.parts) :
      TypeRef.Becomes stands r s

inductive TypePart.Becomes (stands : String → Option TypeRef) : TypePart → TypePart → Prop
  | intro {p q : TypePart} (name : q.name = p.name)
      (arguments : List.Forall₂ (TypeRef.Becomes stands) p.arguments q.arguments) :
      TypePart.Becomes stands p q
end

namespace TypeRef

mutual
def mentioned : TypeRef → List String
  | ⟨ns, outer, last, marks, link⟩ =>
      (bareName? ⟨ns, outer, last, marks, link⟩).toList ++ mentionedInParts outer ++
        mentionedInPart last
  termination_by structural r => r

def mentionedInPart : TypePart → List String
  | ⟨_, arguments⟩ => mentionedInAll arguments
  termination_by structural p => p

def mentionedInParts : List TypePart → List String
  | [] => []
  | p :: ps => mentionedInPart p ++ mentionedInParts ps
  termination_by structural ps => ps

def mentionedInAll : List TypeRef → List String
  | [] => []
  | r :: rs => mentioned r ++ mentionedInAll rs
  termination_by structural rs => rs
end

theorem memMentioned {r : TypeRef} {name : String} : name ∈ r.mentioned ↔
    r.bareName? = some name ∨ ∃ p ∈ r.parts, ∃ a ∈ p.arguments, name ∈ a.mentioned := by
  have all : ∀ rs : List TypeRef, mentionedInAll rs = rs.flatMap mentioned := by
    intro rs
    induction rs with
    | nil => rfl
    | cons r rest ih => rw [mentionedInAll, ih, List.flatMap_cons]
  have part : ∀ p : TypePart, mentionedInPart p = p.arguments.flatMap mentioned := fun p => by
    obtain ⟨name, arguments⟩ := p
    exact all arguments
  have parts_ : ∀ ps : List TypePart,
      mentionedInParts ps = ps.flatMap (fun p => p.arguments.flatMap mentioned) := by
    intro ps
    induction ps with
    | nil => rfl
    | cons p rest ih => rw [mentionedInParts, ih, part, List.flatMap_cons]
  obtain ⟨ns, outer, last, marks, link⟩ := r
  simp only [mentioned, parts_, part, parts, List.mem_append, List.mem_flatMap, Option.mem_toList,
    List.mem_singleton, or_and_right, exists_or, exists_eq_left, or_assoc]

variable {stands other : String → Option TypeRef} {r s : TypeRef}

theorem bareMentioned {name : String} (bare : r.bareName? = some name) : name ∈ r.mentioned :=
  memMentioned.mpr (.inl bare)

theorem argumentMentioned {p : TypePart} {a : TypeRef} (part : p ∈ r.parts)
    (argument : a ∈ p.arguments) {name : String} (there : name ∈ a.mentioned) :
    name ∈ r.mentioned :=
  memMentioned.mpr (.inr ⟨p, part, a, argument, there⟩)

theorem becomesLinked {link : Option Stamp} (becomes : (r.linkedTo link).Becomes stands s) :
    r.Becomes stands s := by
  cases becomes with
  | @mention _ a known => exact @Becomes.mention stands r a known
  | rest unknown ns marks parts => exact .rest unknown ns marks parts

theorem becomesAgree : ∀ r : TypeRef, ∀ {s}, (∀ name ∈ r.mentioned, stands name = other name) →
    r.Becomes stands s → r.Becomes other s := by
  refine byParts fun r arguments s agree becomes => ?_
  have here : r.bareName?.bind stands = r.bareName?.bind other := by
    cases bare : r.bareName? with
    | none => rfl
    | some name => exact agree name (bareMentioned bare)
  cases becomes with
  | mention known => exact .mention (here ▸ known)
  | rest unknown ns marks parts =>
    refine .rest (here ▸ unknown) ns marks (forall₂Within parts ?_)
    rintro p part q ⟨name, inner⟩
    refine ⟨name, forall₂Within inner fun a argument c becomes => ?_⟩
    exact arguments p part a argument
      (fun name there => agree name (argumentMentioned part argument there)) becomes

theorem becomesSelf : ∀ r : TypeRef, (∀ name ∈ r.mentioned, stands name = none) →
    r.Becomes stands r := by
  refine byParts fun r arguments silent => ?_
  have here : r.bareName?.bind stands = none := by
    cases bare : r.bareName? with
    | none => rfl
    | some name => exact silent name (bareMentioned bare)
  refine .rest here rfl rfl (List.forall₂_same.mpr fun p part => ⟨rfl, ?_⟩)
  exact List.forall₂_same.mpr fun a argument => arguments p part a argument fun name there =>
    silent name (argumentMentioned part argument there)

theorem becomesUnique : ∀ r : TypeRef, ∀ {s t}, r.Becomes stands s → r.Becomes stands t →
    s.canonical = t.canonical := by
  refine byParts fun r arguments s t first second => ?_
  cases first with
  | @mention _ a known =>
    cases second with
    | @mention _ b known' =>
      rw [Option.some.inj (known.symm.trans known')]
    | rest unknown _ _ _ => cases known.symm.trans unknown
  | rest unknown ns marks parts =>
    cases second with
    | mention known => cases known.symm.trans unknown
    | rest _ ns' marks' parts' =>
      have related : List.Forall₂ (TypePart.Related fun a b => a.canonical = b.canonical)
          s.parts t.parts := by
        refine forall₂Join parts parts' ?_
        rintro p part q q' ⟨name, inner⟩ ⟨name', inner'⟩
        refine ⟨name.trans name'.symm, forall₂Join inner inner' fun a argument b b' => ?_⟩
        exact arguments p part a argument
      have spelled : s.parts.map (spellPart .canonical) = t.parts.map (spellPart .canonical) :=
        mapOfRelated related fun _ _ => spellRelated
      rw [canonical, canonical, spellJoined, spellJoined, ns, ns', marks, marks', spelled]

theorem becomesReplace (b : Bindings) : ∀ r : TypeRef, r.Becomes b.get? (r.replace b) := by
  refine byParts fun r arguments => ?_
  cases found : r.bound? b with
  | some a =>
    rw [replaceBound found]
    exact .mention found
  | none =>
    rw [replaceFree found]
    refine .rest found rfl rfl ?_
    rw [insideParts, List.forall₂_map_right_iff]
    refine List.forall₂_same.mpr fun p part => ?_
    rw [replacePartEq]
    refine ⟨rfl, ?_⟩
    rw [List.forall₂_map_right_iff]
    exact List.forall₂_same.mpr fun a argument => arguments p part a argument

theorem becomesSubstitute (b : Bindings) (r : TypeRef) : r.Becomes b.get? (r.substitute b) := by
  cases filled : b.entries.isEmpty with
  | true =>
    rw [Table.emptyEntries filled, substituteNone]
    exact becomesSelf r fun name _ => rfl
  | false =>
    rw [substituteFilled filled]
    exact becomesReplace b r

end TypeRef

def OpenType.stands (o : OpenType) (arguments : List TypeRef) (name : String) : Option TypeRef :=
  ((o.body.typeParameters.map TypeParameter.name).zip arguments).reverse.lookup name

theorem Bindings.ofPairsGet (pairs : List (String × TypeRef)) (name : String) :
    (ofPairs pairs).get? name = pairs.reverse.lookup name := by
  have folded : ∀ (pairs : List (String × TypeRef)) (b : Bindings),
      (pairs.foldl (fun b p => b.put p.1 p.2) b).get? name =
        (pairs.reverse.lookup name).or (b.get? name) := by
    intro pairs
    induction pairs with
    | nil => exact fun b => rfl
    | cons p rest ih =>
      intro b
      rw [List.foldl_cons, ih, List.reverse_cons, List.lookup_append, Option.or_assoc, Table.getPut]
      refine congrArg (Option.or _) ?_
      by_cases same : p.1 = name
      · rw [if_pos same, ← same, List.lookup_cons_self]
        rfl
      · rw [if_neg same, List.lookup_cons, beq_eq_false_iff_ne.mpr fun e => same e.symm]
        rfl
  rw [ofPairs, folded]
  exact Option.or_none

theorem Instantiation.bindingsGet (o : OpenType) (arguments : List TypeRef) :
    (bindings o arguments).get? = o.stands arguments :=
  funext fun name => Bindings.ofPairsGet _ name

end Becoming
end TypeScope
