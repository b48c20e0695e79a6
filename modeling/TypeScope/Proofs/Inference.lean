import TypeScope.Extension
import TypeScope.Proofs.ArrayReferences
import TypeScope.Proofs.InstanceMembers

/-! What inference makes of arguments that were made by substitution. It comes to the mentions of a
type parameter in the order they are written and keeps the first; what it reads off there still has
the marks of the mention, except for as many ranks as the mention has, taken from the front. -/
namespace TypeScope

def Marks.shed (n : Nat) (m : Marks) : Marks :=
  if n = 0 then m else { m with ranks := m.ranks.drop n, arrayPointers := 0 }

def Marks.inferred (argument mention : Marks) : Marks :=
  (argument.behind mention).shed mention.ranks.length

structure Marks.Returns (argument mention : Marks) : Prop where
  nullable : mention.nullable = true → argument.nullable = true
  byRef : mention.byRef = true → argument.byRef = true
  ranks : (argument.ranks ++ mention.ranks).drop mention.ranks.length = argument.ranks
  pointers : if argument.ranks = [] then
      (argument.pointers + mention.pointers).toNat +
        (if mention.ranks = [] then argument.arrayPointers + mention.arrayPointers else 0).toNat =
          argument.pointers.toNat + argument.arrayPointers.toNat
    else mention.pointers = 0 ∧
      if mention.ranks = [] then mention.arrayPointers = 0 else argument.arrayPointers = 0

namespace Marks

theorem shedNone (m : Marks) : m.shed 0 = m := if_pos rfl

theorem shedSucc (n : Nat) (m : Marks) :
    m.shed (n + 1) = Marks.shed n { m with ranks := m.ranks.tail, arrayPointers := 0 } := by
  rw [shed, shed, if_neg n.succ_ne_zero]
  split
  · rename_i zero
    rw [zero, List.drop_one]
  · dsimp only
    rw [List.drop_tail]

theorem shedAlike {a b : Marks} {n : Nat} (there : n ≤ a.ranks.length) (alike : Alike a b) :
    Alike (a.shed n) (b.shed n) := by
  rw [shed, shed]
  split
  · exact alike
  · rename_i some_
    obtain ⟨nullable, byRef, ranks, pointers⟩ := alike
    have ranked : a.ranks ≠ [] := fun bare => by
      rw [bare] at there
      exact some_ (Nat.le_zero.mp there)
    rw [if_neg ranked] at pointers
    refine ⟨nullable, byRef, congrArg (List.drop n) ranks, ?_⟩
    dsimp only
    rw [pointers.1]
    split
    · rfl
    · exact ⟨rfl, rfl⟩

theorem inferredEq (argument mention : Marks) : argument.inferred mention =
    { argument.behind mention with
      ranks := (argument.ranks ++ mention.ranks).drop mention.ranks.length
      arrayPointers := if mention.ranks = [] then argument.arrayPointers + mention.arrayPointers
        else 0 } := by
  rw [inferred, shed]
  by_cases bare : mention.ranks = []
  · have none_ : mention.ranks.length = 0 := congrArg List.length bare
    rw [if_pos none_, if_pos bare, none_, List.drop_zero]
    rfl
  · rw [if_neg fun none_ => bare (List.length_eq_zero_iff.mp none_), if_neg bare]
    rfl

theorem inferredAlike (argument mention : Marks) :
    Alike (argument.inferred mention) argument ↔ argument.Returns mention := by
  have flag : ∀ old new : Bool, (old || new) = old ↔ (new = true → old = true) := by decide
  have behind_ :
      (if mention.ranks = [] then argument.arrayPointers + mention.arrayPointers else 0) =
        argument.arrayPointers ↔
      if mention.ranks = [] then mention.arrayPointers = 0 else argument.arrayPointers = 0 := by
    split
    · exact UInt32.add_eq_left
    · exact eq_comm
  rw [inferredEq]
  constructor
  · rintro ⟨nullable, byRef, ranks, pointers⟩
    dsimp only at ranks pointers
    rw [ranks] at pointers
    refine ⟨(flag _ _).mp nullable, (flag _ _).mp byRef, ranks, ?_⟩
    by_cases bare : argument.ranks = []
    · rw [if_pos bare] at pointers ⊢
      exact pointers
    · rw [if_neg bare] at pointers ⊢
      exact ⟨UInt32.add_eq_left.mp pointers.1, behind_.mp pointers.2⟩
  · rintro ⟨nullable, byRef, ranks, pointers⟩
    refine ⟨(flag _ _).mpr nullable, (flag _ _).mpr byRef, ranks, ?_⟩
    dsimp only
    rw [ranks]
    by_cases bare : argument.ranks = []
    · rw [if_pos bare] at pointers ⊢
      exact pointers
    · rw [if_neg bare] at pointers ⊢
      exact ⟨UInt32.add_eq_left.mpr pointers.1, behind_.mpr pointers.2⟩

theorem returnsUnmarked (argument : Marks) : argument.Returns Marks.none where
  nullable := nofun
  byRef := nofun
  ranks := by rw [Marks.none, List.append_nil, List.length_nil, List.drop_zero]
  pointers := by
    split
    · simp [Marks.none]
    · exact ⟨rfl, rfl⟩

theorem returnsStacked {argument mention : Marks} (single : ∀ extra ∈ argument.ranks, extra = 0)
    (stops : argument.arrayPointers = 0)
    (plain : mention = { Marks.none with ranks := List.replicate mention.ranks.length 0 }) :
    argument.Returns mention := by
  have all : argument.ranks = List.replicate argument.ranks.length 0 :=
    List.eq_replicate_iff.mpr ⟨rfl, single⟩
  rw [plain]
  refine ⟨nofun, nofun, ?_, ?_⟩
  · rw [all]
    simp
  · rw [stops]
    simp [Marks.none]

end Marks

namespace TypeRef

def readOff (argument mention : TypeRef) : TypeRef :=
  { argument with marks := argument.marks.inferred mention.marks, link := none }

mutual
def met : TypeRef → List TypeRef
  | ⟨ns, outer, last, marks, link⟩ =>
      match bareName? ⟨ns, outer, last, marks, link⟩ with
      | some _ => [⟨ns, outer, last, marks, link⟩]
      | none => metInPart last
  termination_by structural r => r

def metInPart : TypePart → List TypeRef
  | ⟨_, arguments⟩ => metInAll arguments
  termination_by structural p => p

def metInAll : List TypeRef → List TypeRef
  | [] => []
  | r :: rs => met r ++ metInAll rs
  termination_by structural rs => rs
end

theorem metAll (rs : List TypeRef) : metInAll rs = rs.flatMap met := by
  induction rs with
  | nil => rfl
  | cons r rest ih => rw [metInAll, ih, List.flatMap_cons]

theorem metBare {r : TypeRef} {name : String} (bare : r.bareName? = some name) : r.met = [r] := by
  obtain ⟨ns, outer, last, marks, link⟩ := r
  rw [met, bare]

theorem metArguments {r : TypeRef} (whole : r.bareName? = none) :
    r.met = r.arguments.flatMap met := by
  obtain ⟨ns, outer, ⟨name, given⟩, marks, link⟩ := r
  rw [met, whole]
  exact metAll given

theorem stripMarked {r : TypeRef} {n : Nat} (there : n ≤ r.marks.ranks.length) :
    ∃ link, strip? n r = some { r with marks := r.marks.shed n, link := link } := by
  induction n generalizing r with
  | zero =>
    cases r
    exact ⟨_, by rw [Marks.shedNone]; rfl⟩
  | succ n ih =>
    obtain ⟨ns, outer, last, ⟨ranks, pointers, arrayPointers, nullable, byRef⟩, own⟩ := r
    cases ranks with
    | nil => cases there
    | cons first rest =>
      obtain ⟨link, taken⟩ := @ih
        ⟨ns, outer, last, ⟨rest, pointers, 0, nullable, byRef⟩, none⟩ (Nat.le_of_succ_le_succ there)
      exact ⟨link, by rw [Marks.shedSucc]; exact taken⟩

section Reading
variable {xid : Char → Bool} {a b : TypeRef}

theorem shedSame (separate : ∀ c ∈ Text.marks, xid c = false) (wa : a.WellFormed xid)
    (wb : b.WellFormed xid) (same : a.canonical = b.canonical) {n : Nat}
    (there : n ≤ a.marks.ranks.length) (link link' : Option Stamp) :
    canonical { a with marks := a.marks.shed n, link := link } =
      canonical { b with marks := b.marks.shed n, link := link' } := by
  obtain ⟨names, arguments, nullable, byRef, ranks, pointers⟩ :=
    (canonicalReadable separate wa wb).mp same
  exact canonicalOfNamed (a := { a with marks := a.marks.shed n, link := link })
    (b := { b with marks := b.marks.shed n, link := link' }) wa.named wb.named ⟨names, arguments⟩
    (Marks.shedAlike there ⟨nullable, byRef, ranks, pointers⟩)

end Reading
end TypeRef

def mentionOf? (name : String) (met : List TypeRef) : Option TypeRef :=
  met.find? (fun r => r.bareName? == some name)

def Learns (names : List String) (s : Bindings) (met : List TypeRef) (before after : Bindings) :
    Prop :=
  ∀ name ∈ names, ∀ t, s.get? name = some t →
    match before.get? name, mentionOf? name met with
    | some known, _ => after.get? name = some known
    | none, none => after.get? name = none
    | none, some mention =>
        ∃ bound, after.get? name = some bound ∧ bound.canonical = (t.readOff mention).canonical

section Learns
variable {names : List String} {s before between after : Bindings} {met more : List TypeRef}

theorem learnsNothing (silent : ∀ name ∈ names, mentionOf? name met = none) :
    Learns names s met before before := by
  intro name open_ t _
  rw [silent name open_]
  cases before.get? name <;> rfl

theorem Learns.andThen (first : Learns names s met before between)
    (next : Learns names s more between after) : Learns names s (met ++ more) before after := by
  intro name open_ t stands
  have here := first name open_ t stands
  have there := next name open_ t stands
  have joined : mentionOf? name (met ++ more) = (mentionOf? name met).or (mentionOf? name more) :=
    List.find?_append
  rw [joined]
  cases known : before.get? name with
  | some r =>
    rw [known] at here
    rw [here] at there
    exact there
  | none =>
    rw [known] at here
    cases mention : mentionOf? name met with
    | none =>
      rw [mention] at here
      rw [here] at there
      exact there
    | some r =>
      rw [mention] at here
      obtain ⟨bound, told, same⟩ := here
      rw [told] at there
      exact ⟨bound, there, same⟩

theorem mentionBare {r : TypeRef} {other : String} (bare : r.bareName? = some other)
    (name : String) :
    mentionOf? name [r] = if other = name then some r else none := by
  rw [mentionOf?, List.find?_singleton, bare]
  by_cases same : other = name
  · rw [if_pos same, if_pos (beq_iff_eq.mpr (congrArg some same))]
  · rw [if_neg same, if_neg fun equal => same (Option.some.inj (beq_iff_eq.mp equal))]

variable {xid : Char → Bool} {a r t : TypeRef} {name : String}

theorem learnsBare (separate : ∀ c ∈ Text.marks, xid c = false) (wa : a.WellFormed xid)
    (wt : t.WellFormed xid) (bare : r.bareName? = some name) (stands : s.get? name = some t)
    (same : a.canonical = (t.inPlaceOf r).canonical) :
    Learns names s [r] before (TypeRef.bindBare name r a before) := by
  intro other _ u stands'
  rw [mentionBare bare]
  by_cases here : name = other
  · subst here
    cases Option.some.inj (stands.symm.trans stands')
    rw [if_pos rfl, TypeRef.bindBare]
    cases known : before.get? name with
    | some first =>
      have kept : before.contains name = true := by rw [Table.contains, known]; rfl
      rw [if_pos kept]
      exact known
    | none =>
      have fresh : before.contains name ≠ true := by
        rw [Table.contains, known]
        exact Bool.false_ne_true
      have placed : (t.inPlaceOf r).WellFormed xid := by
        obtain ⟨ns, names, arguments⟩ := wt
        exact .intro ns names arguments
      have ranks := ((canonicalReadable separate wa placed).mp same).2.2.2.2.1
      have there : r.marks.ranks.length ≤ a.marks.ranks.length := by
        rw [ranks]
        exact (Nat.le_add_left _ _).trans_eq List.length_append.symm
      obtain ⟨link, taken⟩ := TypeRef.stripMarked there
      rw [if_neg fresh, taken]
      exact ⟨_, Table.getPut.trans (if_pos rfl),
        TypeRef.shedSame separate wa placed same there link none⟩
  · rw [if_neg here]
    have kept : (TypeRef.bindBare name r a before).get? other = before.get? other := by
      rw [TypeRef.bindBare]
      split
      · rfl
      · split
        · rw [Table.getPut, if_neg here]
        · rfl
    rw [kept]
    cases before.get? other <;> rfl

end Learns

namespace TypeRef
variable {xid : Char → Bool} {names : List String} {s before : Bindings}

theorem inferBare {r : TypeRef} {name : String} (bare : r.bareName? = some name) (a : TypeRef)
    (b : Bindings) : infer names r a b = if name ∈ names then bindBare name r a b else b := by
  obtain ⟨ns, outer, ⟨last, given⟩, marks, link⟩ := r
  have alone : given = [] := by
    rw [bareName?] at bare
    split at bare
    · rename_i all
      exact List.isEmpty_iff.mp all.2.2
    · cases bare
  subst alone
  rw [infer, openName?, bare]
  by_cases open_ : name ∈ names
  · rw [if_pos open_, Option.filter_some_pos (List.contains_iff_mem.mpr open_)]
  · rw [if_neg open_, Option.filter_some_neg (Bool.eq_false_iff.mpr fun there =>
      open_ (List.contains_iff_mem.mp there))]
    rfl

theorem inferWhole {r : TypeRef} (whole : r.bareName? = none) (a : TypeRef) (b : Bindings) :
    infer names r a b = inferPart names r.last a b := by
  obtain ⟨ns, outer, last, marks, link⟩ := r
  rw [infer, openName?, whole]
  rfl

theorem inferArguments {r a : TypeRef} (whole : r.bareName? = none)
    (count : a.arguments.length = r.arguments.length) (b : Bindings) :
    infer names r a b = inferAll names r.arguments a.arguments b := by
  obtain ⟨ns, outer, ⟨last, given⟩, marks, link⟩ := r
  rw [inferWhole whole]
  show inferPart names ⟨last, given⟩ a b = inferAll names given a.arguments b
  rw [inferPart]
  cases given with
  | nil => rfl
  | cons first rest => exact if_pos count

theorem lastSegment (r : TypeRef) : r.segments.getLast? = some r.last := by
  rw [segments, parts, ← List.append_assoc, List.getLast?_concat]

theorem learnsAll {ps as : List TypeRef} (each : List.Forall₂
      (fun p a => ∀ b, Learns names s p.met b (infer names p a b)) ps as) :
    ∀ b, Learns names s (ps.flatMap met) b (inferAll names ps as b) := by
  induction each with
  | nil => exact fun b => learnsNothing fun _ _ => rfl
  | cons first _ ih =>
    intro b
    rw [List.flatMap_cons, inferAll]
    exact (first b).andThen (ih _)

theorem learnsInfer (separate : ∀ c ∈ Text.marks, xid c = false)
    (total : ∀ name ∈ names, s.contains name = true)
    (values : ∀ name t, s.get? name = some t → t.WellFormed xid) :
    ∀ r : TypeRef, ∀ a, r.WellFormed xid → a.WellFormed xid →
      a.canonical = (r.replace s).canonical → ∀ b, Learns names s r.met b (infer names r a b) := by
  refine byParts fun r arguments a wr wa same b => ?_
  cases bare : r.bareName? with
  | some name =>
    rw [metBare bare, inferBare bare]
    by_cases open_ : name ∈ names
    · obtain ⟨t, stands⟩ := Option.isSome_iff_exists.mp (total name open_)
      rw [replaceBound (a := t) (by rw [bound?, bare]; exact stands)] at same
      rw [if_pos open_]
      exact learnsBare separate wa (values name t stands) bare stands same
    · rw [if_neg open_]
      refine learnsNothing fun other mem => ?_
      have apart : name ≠ other := by
        rintro rfl
        exact open_ mem
      rw [mentionBare bare, if_neg apart]
  | none =>
    have inner : r.replace s = r.inside s := replaceFree (by rw [bound?, bare]; rfl)
    have wi : (r.inside s).WellFormed xid := inner ▸ replaceFormed values wr
    rw [inner] at same
    have lasts := congrArg List.getLast? ((canonicalReadable separate wa wi).mp same).2.1
    rw [List.getLast?_map, List.getLast?_map, lastSegment, lastSegment] at lasts
    have texts : r.arguments.map (fun x => (x.replace s).canonical) =
        a.arguments.map canonical := by
      refine Eq.trans ?_ (Option.some.inj lasts).symm
      rw [inside, replacePartEq]
      exact List.map_map.symm
    have count := congrArg List.length texts
    rw [List.length_map, List.length_map] at count
    obtain ⟨-, -, formed⟩ := wr
    obtain ⟨-, -, formed'⟩ := wa
    have last : r.last ∈ r.parts := List.mem_append_right _ List.mem_cons_self
    have last' : a.last ∈ a.parts := List.mem_append_right _ List.mem_cons_self
    rw [metArguments bare, inferArguments bare count.symm]
    refine learnsAll (relatedOfMap texts fun x mem y mem' told => ?_) b
    exact arguments r.last last x mem y (formed r.last last x mem) (formed' a.last last' y mem')
      told.symm

end TypeRef

namespace Member

def firstMention? (m : Member) (name : String) : Option TypeRef :=
  mentionOf? name (m.parameters.flatMap (fun p => p.type.met))

structure CalledAt (xid : Char → Bool) (m : Member) (s : Bindings) (given : List TypeRef) :
    Prop where
  total : ∀ name ∈ m.own, s.contains name = true
  values : ∀ name t, s.get? name = some t → t.WellFormed xid
  parameters : ∀ p ∈ m.parameters, p.type.WellFormed xid
  arguments : List.Forall₂ (fun p a => a.WellFormed xid ∧ a.same (p.type.substitute s) = true)
    m.parameters given

/-- A type parameter that inference does not come to stays unbound. Any other is bound to what is
read off at its first mention, and that is what it stood for exactly if the marks return. -/
theorem inferenceReadsOff {xid : Char → Bool} (separate : ∀ c ∈ Text.marks, xid c = false)
    {m : Member} {s : Bindings} {given : List TypeRef} (called : m.CalledAt xid s given) :
    ∀ name ∈ m.own, ∀ t, s.get? name = some t →
      match m.firstMention? name with
      | none => (m.bindGenerics [] given).get? name = none
      | some mention => ∃ bound, (m.bindGenerics [] given).get? name = some bound ∧
          bound.same (t.readOff mention) = true ∧
          (bound.same t = true ↔ t.marks.Returns mention.marks) := by
  intro name own t stands
  have open_ : m.typeParameters.isEmpty = false := by
    cases listed : m.typeParameters with
    | nil =>
      rw [Member.own, listed] at own
      cases own
    | cons first rest => rfl
  have filled : s.entries.isEmpty = false := by
    cases listed : s.entries with
    | nil =>
      rw [Table.get?, listed] at stands
      cases stands
    | cons first rest => rfl
  have learns : Learns m.own s (m.parameters.flatMap (fun p => p.type.met)) Table.empty
      (m.bindGenerics [] given) := by
    have nothing : Bindings.ofPairs (m.own.zip []) = Table.empty := by
      rw [List.zip_nil_right]
      rfl
    rw [bindGenerics, open_, if_neg Bool.false_ne_true, ← Member.own, nothing,
      ← List.flatMap_map (f := Parameter.type) (g := TypeRef.met)]
    refine TypeRef.learnsAll ?_ Table.empty
    rw [List.forall₂_map_left_iff]
    refine forall₂Within called.arguments fun p mem a equal => ?_
    have same := beq_iff_eq.mp equal.2
    rw [TypeRef.substituteFilled filled] at same
    exact TypeRef.learnsInfer separate called.total called.values p.type a
      (called.parameters p mem) equal.1 same
  have told := learns name own t stands
  rw [show (Table.empty : Bindings).get? name = none from rfl] at told
  rw [firstMention?]
  cases mention : mentionOf? name (m.parameters.flatMap (fun p => p.type.met)) with
  | none =>
    rw [mention] at told
    exact told
  | some r =>
    rw [mention] at told
    obtain ⟨bound, here, same⟩ := told
    refine ⟨bound, here, beq_iff_eq.mpr same, ?_⟩
    rw [TypeRef.same, beq_iff_eq, same]
    exact (TypeRef.spellMarked (a := t.readOff r) (b := t) .canonical rfl rfl).trans
      (Marks.inferredAlike t.marks r.marks)

section Calls

def marked (ranks : List Nat) (nullable : Bool) (r : TypeRef) : TypeRef :=
  { r with marks := { r.marks with ranks := ranks, nullable := nullable } }

def fill : Member :=
  { Member.method "Fill" with
    typeParameters := [⟨"T", []⟩, ⟨"U", []⟩]
    parameters := [⟨"source", TypeRef.generic "IList" [TypeRef.named "T"], ⟨0⟩⟩,
      ⟨"extra", marked [0] false (TypeRef.named "U"), ⟨0⟩⟩] }

def nullableItem : TypeRef := marked [] true (TypeRef.named "Item")
def itemArray : TypeRef := marked [0] false (TypeRef.named "Item")

def fillings : Bindings := Bindings.ofPairs [("T", nullableItem), ("U", itemArray)]

theorem formedPlain {xid : Char → Bool} {name : String} {arguments : List TypeRef} {m : Marks}
    {link : Option Stamp} (identifier : Identifier xid name)
    (formed : ∀ a ∈ arguments, a.WellFormed xid) :
    TypeRef.WellFormed xid ⟨"", [], ⟨name, arguments⟩, m, link⟩ := by
  refine .intro (.inl rfl) (fun p mem => ?_) fun p mem a inside => ?_
  · rw [List.mem_singleton.mp mem]
    exact identifier
  · rw [List.mem_singleton.mp mem] at inside
    exact formed a inside

theorem fillCalled : fill.CalledAt tabled fillings
    [TypeRef.generic "IList" [nullableItem], marked [0, 0] false (TypeRef.named "Item")] := by
  have bare : ∀ name ∈ ["T", "U", "Item"], ∀ m,
      TypeRef.WellFormed tabled ⟨"", [], ⟨name, []⟩, m, none⟩ := by
    intro name mem m
    have identifier : ∀ name ∈ ["T", "U", "Item"],
        name ≠ "" ∧ name.toList.all (continues tabled) = true := by decide +kernel
    exact formedPlain (tabledIdentifier (identifier name mem).1 (identifier name mem).2) nofun
  have list : Identifier tabled "IList" := tabledIdentifier (by decide) (by decide +kernel)
  have item : ∀ t ∈ fillings.values, t.WellFormed tabled := by
    intro t mem
    rcases List.mem_pair.mp mem with rfl | rfl
    · exact bare "Item" (by decide) _
    · exact bare "Item" (by decide) _
  refine ⟨?_, fun name t stands => ?_, ?_, ?_⟩
  · decide
  · exact item t (Table.valueOfGet stands)
  · intro p mem
    rcases List.mem_pair.mp mem with rfl | rfl
    · exact formedPlain list (List.forall_mem_singleton.mpr (bare "T" (by decide) _))
    · exact bare "U" (by decide) _
  · refine .cons ⟨formedPlain list (List.forall_mem_singleton.mpr (bare "Item" (by decide) _)), ?_⟩
      (.cons ⟨bare "Item" (by decide) _, ?_⟩ .nil)
    · decide +kernel
    · decide +kernel

theorem inferenceReadsOffFill : fill.own = ["T", "U"] ∧ ∀ name ∈ fill.own, ∃ t bound,
    fillings.get? name = some t ∧
    (fill.bindGenerics [] [TypeRef.generic "IList" [nullableItem],
      marked [0, 0] false (TypeRef.named "Item")]).get? name = some bound ∧
    bound.same t = true := by
  have told := inferenceReadsOff tabledMarks fillCalled
  refine ⟨rfl, fun name mem => ?_⟩
  rcases List.mem_pair.mp mem with rfl | rfl
  · obtain ⟨bound, here, -, returns⟩ := told "T" mem nullableItem rfl
    exact ⟨nullableItem, bound, rfl, here, returns.mpr (Marks.returnsUnmarked _)⟩
  · obtain ⟨bound, here, -, returns⟩ := told "U" mem itemArray rfl
    refine ⟨itemArray, bound, rfl, here, returns.mpr (Marks.returnsStacked ?_ rfl rfl)⟩
    decide

def first (source : TypeRef) : Member :=
  { Member.method "First" with
    typeParameters := [⟨"T", []⟩]
    parameters := [⟨"source", source, ⟨0⟩⟩] }

def inferredFor (source t : TypeRef) : Option String :=
  (((first source).bindGenerics [] [source.substitute (Bindings.ofPairs [("T", t)])]).get? "T").map
    TypeRef.canonical

theorem inferenceKeepsMarks :
    (numbers [1] 0).mentioned = [] ∧ (numbers [1] 0).canonical = "System.Int32[,]" ∧
    inferredFor (marked [0] false (TypeRef.named "T")) (numbers [1] 0) = some "System.Int32[]" ∧
    (numbers [] 0).mentioned = [] ∧ (numbers [] 0).canonical = "System.Int32" ∧
    inferredFor (marked [] true (TypeRef.named "T")) (numbers [] 0) = some "System.Int32?" := by
  decide +kernel

end Calls
end Member
end TypeScope
