import TypeScope.Proofs.Sources

/-! What an alias does to names that do not mention it. As a whole name it is compared, so it does
nothing; at the start of a name it is cut off as text, whether or not a segment ends there. Then the
rest of the segment is read behind the target. -/
namespace TypeScope

section Dots

theorem lowerCodeImage {runs : List (Nat × Nat × Nat × Nat)} {bound n : Nat}
    (above : ∀ r ∈ runs, bound < r.2.2.2) :
    Text.lowerCode runs n = n ∨ bound < Text.lowerCode runs n := by
  induction runs with
  | nil => exact .inl rfl
  | cons r rest ih =>
    obtain ⟨first, last, step, image⟩ := r
    have here : bound < image := above _ List.mem_cons_self
    rw [Text.lowerCode]
    split
    · exact .inl rfl
    · split
      · exact .inr (Nat.lt_add_right _ here)
      · exact ih fun r mem => above r (List.mem_cons_of_mem _ mem)

theorem codeOfDot {n : Nat} (dot : Char.ofNat n = '.') : n = 46 := by
  have code := congrArg Char.toNat dot
  by_cases valid : n.isValidChar
  · have here : (Char.ofNat n).toNat = n := by
      rw [Char.ofNat, dif_pos valid]
      rfl
    exact here.symm.trans code
  · have here : (Char.ofNat n).toNat = 0 := by
      rw [Char.ofNat, dif_neg valid]
      rfl
    cases here.symm.trans code

theorem loweredDot (c : Char) : '.' ∈ Text.lowerChar c ↔ c = '.' := by
  have above : ∀ r ∈ Text.lowerRuns, 46 < r.2.2.2 := by decide +kernel
  constructor
  · intro mem
    rw [Text.lowerChar] at mem
    split at mem
    · simp at mem
    · have dot := codeOfDot (List.mem_singleton.mp mem).symm
      rcases lowerCodeImage above with kept | beyond
      · exact Char.toNat_inj.mp (kept.symm.trans dot)
      · omega
  · rintro rfl
    decide +kernel

namespace Name

theorem sameSymm {rule : CaseRule} {a b : String} : same rule a b = same rule b a := by
  cases rule <;> simp [same, Bool.beq_comm]

theorem sameDotted {rule : CaseRule} {a b : String} (alike : same rule a b = true) :
    '.' ∈ a.toList ↔ '.' ∈ b.toList := by
  cases rule with
  | exact => rw [sameExact.mp alike]
  | relaxed =>
    have lowered : ∀ s : String, '.' ∈ Text.folded s ↔ '.' ∈ s.toList := by
      intro s
      simp [Text.folded, List.mem_flatMap, loweredDot]
    rw [← lowered a, ← lowered b, sameRelaxed.mp alike]

end Name
end Dots

section Segments
variable {rule : CaseRule} {known name rest : String}

theorem afterWithin (simple : '.' ∉ known.toList)
    (other : ∀ first, (Dotted.segments name).head? = some first → Name.same rule first known = false)
    (follows : Name.after? rule known name = some rest) :
    rest ≠ "" ∧ rest.toList.head? ≠ some '.' := by
  unfold Name.after? at follows
  split at follows <;> try contradiction
  rename_i start tail cut
  split at follows <;> try contradiction
  rename_i alike
  obtain rfl := Option.some.inj follows
  have undotted : '.' ∉ start := by
    have dots := Name.sameDotted alike
    rw [String.toList_ofList] at dots
    exact fun mem => simple (dots.mp mem)
  have whole := Name.cutBytesSound cut
  have segments : ∀ more, Dotted.pieces name.toList = start :: more → False := by
    intro more cut
    have first := other (String.ofList start) (by rw [Dotted.segments, cut]; rfl)
    rw [alike] at first
    cases first
  constructor
  · intro empty
    have ends : tail = [] := by simpa using congrArg String.toList empty
    rw [ends, List.append_nil] at whole
    exact segments [] (by rw [whole, Dotted.piecesSimple undotted])
  · intro dot
    rw [String.toList_ofList] at dot
    obtain ⟨later, rfl⟩ := List.head?_eq_some_iff.mp dot
    refine segments (Dotted.pieces later) ?_
    rw [whole, Dotted.piecesAppend, Dotted.piecesSimple undotted]
    rfl

theorem otherName (simple : '.' ∉ known.toList)
    (other : ∀ first, (Dotted.segments name).head? = some first →
      Name.same rule first known = false) : Name.same rule known name = false := by
  refine Bool.eq_false_iff.mpr fun alike => ?_
  have undotted : '.' ∉ name.toList := fun mem => simple ((Name.sameDotted alike).mpr mem)
  have whole : (Dotted.segments name).head? = some name := by
    rw [Dotted.segments, Dotted.piecesSimple undotted]
    simp
  have apart := other name whole
  rw [Name.sameSymm, alike] at apart
  cases apart

end Segments

def UsingDirective.aliasing (known : String) (target : TypeRef) (location : Location) :
    UsingDirective :=
  { empty.withAlias known target with location := location }

def Request.below (q : Request) (u : CompilationUnit) (usings : List UsingDirective) : Request :=
  { q with unit := some { u with usings := usings } }

namespace Query

section Inserted
variable {α β : Type} {f : β → Query (Option α)} {before after : List β} {b : β} {w : Workspace}

theorem findFirstInserted (silent : Silent (f b)) :
    (findFirst f (before ++ b :: after)).run w = (findFirst f (before ++ after)).run w ∨
      ∃ missed d, (findFirst f before).run w = (none, missed) ∧ ((f b).run missed).1 = some d ∧
        (findFirst f (before ++ b :: after)).run w = (f b).run missed := by
  induction before generalizing w with
  | nil =>
    cases answer : ((f b).run w).1 with
    | none =>
      refine .inl ?_
      rw [List.nil_append, List.nil_append, findFirst, runThrough (silent.kept w answer)]
    | some d =>
      refine .inr ⟨w, d, rfl, answer, ?_⟩
      rw [List.nil_append, findFirst, runThrough (Prod.ext answer rfl : (f b).run w = (some d, _))]
      exact Prod.ext answer.symm rfl
  | cons first rest ih =>
    simp only [List.cons_append, findFirst, StateT.run_bind]
    cases (f first).run w with
    | mk answer between =>
      cases answer with
      | some d => exact .inl rfl
      | none => exact ih

theorem firstOfInserted (silent : Silent (f b)) (queries : List (Query (Option α))) :
    (firstOf (queries ++ [findFirst f (before ++ b :: after)])).run w =
        (firstOf (queries ++ [findFirst f (before ++ after)])).run w ∨
      ∃ missed d, (firstOf (queries ++ [findFirst f before])).run w = (none, missed) ∧
        ((f b).run missed).1 = some d ∧
        (firstOf (queries ++ [findFirst f (before ++ b :: after)])).run w = (f b).run missed := by
  have single : ∀ q : Query (Option α), firstOf [q] = q := findFirstSingle id
  induction queries generalizing w with
  | nil =>
    simp only [List.nil_append, single]
    exact findFirstInserted silent
  | cons q rest ih =>
    simp only [List.cons_append, firstOf, StateT.run_bind]
    cases q.run w with
    | mk answer between =>
      cases answer with
      | some d => exact .inl rfl
      | none => exact ih

theorem firstOfExchanged {x y : Query (Option α)} {queries later : List (Query (Option α))}
    (passes : ∀ v, (x.run v).1 = none → y.run v = x.run v)
    (missed : ((firstOf (queries ++ x :: later)).run w).1 = none) :
    (firstOf (queries ++ y :: later)).run w = (firstOf (queries ++ x :: later)).run w := by
  induction queries generalizing w with
  | nil =>
    simp only [List.nil_append, firstOf, StateT.run_bind] at missed ⊢
    cases run : x.run w with
    | mk answer after =>
      rw [run] at missed
      cases answer with
      | some d => cases missed
      | none => rw [passes w (congrArg Prod.fst run), run]
  | cons q rest ih =>
    simp only [List.cons_append, firstOf, StateT.run_bind] at missed ⊢
    cases run : q.run w with
    | mk answer between =>
      rw [run] at missed
      cases answer with
      | some d => cases missed
      | none => exact ih missed

end Inserted

section Directives
variable {id : ScopeId} {q : Request} {u : CompilationUnit} {calling : Option Definition}
  {before after : List UsingDirective} {known : String} {target : TypeRef} {location : Location}

theorem namedAliasing (some_ : known ≠ "") :
    (UsingDirective.aliasing known target location).namedAliases = [(known, target)] := by
  have entries : (UsingDirective.aliasing known target location).aliases.entries =
      [(known, target)] := rfl
  rw [UsingDirective.namedAliases, entries, List.filter_cons_of_pos (by simp [some_])]
  rfl

theorem candidatesAliasing (some_ : known ≠ "") (name : String) :
    UsingDirective.candidates q.rule name (UsingDirective.aliasing known target location) =
      ((Name.after? q.rule known name).map (fun rest => target.fullName ++ rest)).toList := by
  have unmarked : (UsingDirective.aliasing known target location).ownNamespace? = none :=
    if_neg some_
  rw [UsingDirective.candidates, unmarked, namedAliasing some_]
  cases follows : Name.after? q.rule known name <;>
    simp [follows, UsingDirective.aliasing, UsingDirective.withAlias, UsingDirective.empty]

theorem aliasAmong (some_ : known ≠ "") (apart : Name.same q.rule known q.name = false) :
    UsingDirective.findAlias q.rule q.name
        (before ++ UsingDirective.aliasing known target location :: after) =
      UsingDirective.findAlias q.rule q.name (before ++ after) := by
  simp only [UsingDirective.findAlias, List.flatMap_append, List.flatMap_cons,
    namedAliasing some_, List.find?_append, List.find?_singleton, apart]
  simp

theorem nearSame {usings others : List UsingDirective}
    (same : UsingDirective.findAlias q.rule q.name usings =
      UsingDirective.findAlias q.rule q.name others) :
    nearSources id (q.below u usings) calling = nearSources id (q.below u others) calling := by
  simp only [nearSources, fromAlias, Request.below, Option.bind_some, same]
  rfl

theorem fewerAliases (v : Workspace)
    (missed : ((fromAlias id (q.below u (before ++ after))).run v).1 = none) :
    (fromAlias id (q.below u before)).run v =
      (fromAlias id (q.below u (before ++ after))).run v := by
  cases found : UsingDirective.findAlias q.rule q.name before with
  | none =>
    rw [(aliasSilent ..).kept v missed]
    simp only [fromAlias, Request.below, Option.bind_some, found]
    rfl
  | some target =>
    have first : UsingDirective.findAlias q.rule q.name (before ++ after) = some target := by
      obtain ⟨a, here, rfl⟩ := Option.map_eq_some_iff.mp found
      rw [UsingDirective.findAlias, List.flatMap_append, List.find?_append, here]
      rfl
    simp only [fromAlias, Request.below, Option.bind_some, found, first]
    rfl

theorem fewerSources (later : List (Query (Option Definition))) {v : Workspace}
    (missed : ((firstOf (nearSources id (q.below u (before ++ after)) calling ++ later)).run v).1 =
      none) :
    (firstOf (nearSources id (q.below u before) calling ++ later)).run v =
      (firstOf (nearSources id (q.below u (before ++ after)) calling ++ later)).run v := by
  have split : ∀ usings, nearSources id (q.below u usings) calling ++ later =
      [fromParameters id q calling, fromKnown id q, fromNested id q calling] ++
        fromAlias id (q.below u usings) :: fromEnclosing id q calling :: later := fun _ => rfl
  rw [split] at missed
  rw [split, split]
  exact firstOfExchanged fewerAliases missed

end Directives

/-- An alias leaves the names alone whose first segment is another one, unless it stands within that
segment at the start. Then what nothing before it has an answer for may come to be a type of the
target's name with the rest of the name behind it, and nothing else changes. -/
theorem aliasesElsewhere (w : Workspace) (id : ScopeId) (q : Request) (u : CompilationUnit)
    (before after : List UsingDirective) {known : String} (target : TypeRef) (location : Location)
    (some_ : known ≠ "") (simple : '.' ∉ known.toList)
    (other : ∀ first, (Dotted.segments q.name).head? = some first →
      Name.same q.rule first known = false) :
    let with_ := q.below u (before ++ UsingDirective.aliasing known target location :: after)
    (resolve id with_).run w = (resolve id (q.below u (before ++ after))).run w ∨
      ∃ rest missed t, Name.after? q.rule known q.name = some rest ∧ rest ≠ "" ∧
        rest.toList.head? ≠ some '.' ∧ (resolve id (q.below u before)).run w = (none, missed) ∧
        missed.findType id q.depth q.rule (Arity.strip (target.fullName ++ rest)).1
          (askedArity (target.fullName ++ rest) q.arguments) = some t ∧
        (resolve id with_).run w = ((some <$> instantiate id (.ofDeclared t) q.arguments).run missed)
    := by
  intro with_
  by_cases unnamed : q.name = ""
  · have nothing : ∀ usings, resolve id (q.below u usings) = pure none :=
      fun _ => resolveUnnamed id unnamed
    exact .inl (by rw [nothing, nothing])
  cases fetching : (q.calling.mapM (refetch id)).run w with
  | mk calling fetched =>
    let read := fun name => lookupFor id q name q.arguments
    have run : ∀ usings, (resolve id (q.below u usings)).run w =
        (firstOf (nearSources id (q.below u usings) calling ++
          [findFirst read (usings.flatMap (UsingDirective.candidates q.rule q.name))])).run
            fetched := fun usings => resolveSources unnamed fetching
    have near : nearSources id with_ calling = nearSources id (q.below u (before ++ after)) calling :=
      nearSame (aliasAmong some_ (otherName simple other))
    rw [run, run, near, List.flatMap_append, List.flatMap_append, List.flatMap_cons,
      candidatesAliasing some_]
    cases follows : Name.after? q.rule known q.name with
    | none => exact .inl rfl
    | some rest =>
      obtain ⟨more, within⟩ := afterWithin simple other follows
      have silent : Silent (read (target.fullName ++ rest)) := getTypeSilent ..
      rcases firstOfInserted silent (nearSources id (q.below u (before ++ after)) calling) with
        same | ⟨missed, d, unanswered, hit, inserted⟩
      · exact .inl same
      · have earlier : (resolve id (q.below u before)).run w = (none, missed) := by
          rw [run, fewerSources _ (by rw [unanswered]), unanswered]
        cases known : missed.findType id q.depth q.rule (Arity.strip (target.fullName ++ rest)).1
            (askedArity (target.fullName ++ rest) q.arguments) with
        | none =>
          have nothing : (read (target.fullName ++ rest)).run missed = (none, missed) :=
            getTypeMissed known
          rw [nothing] at hit
          cases hit
        | some t =>
          exact .inr ⟨rest, missed, t, rfl, more, within, earlier, known,
            inserted.trans (getTypeRun known)⟩

def dataLibrary : Workspace :=
  (Session.run [.opens "app", .writes (rowSource 0 [("System.DataSet", none)]),
    .ingests 0 0]).workspace

def dataSetBelow (usings : List UsingDirective) : Request :=
  (Request.named "DataSet").below ⟨⟨1⟩, "", [], []⟩ usings

def systemAlias (known : String) : UsingDirective :=
  UsingDirective.aliasing known (TypeRef.named ("System." ++ known)) Location.unknown

theorem aliasesElsewhereUnmentioned : "IO" ≠ "" ∧ '.' ∉ "IO".toList ∧
    (∀ first, (Dotted.segments "DataSet").head? = some first →
      Name.same .exact first "IO" = false) ∧
    (resolve 0 (dataSetBelow [systemAlias "IO"])).run dataLibrary =
      (resolve 0 (dataSetBelow [])).run dataLibrary := by
  have other : ∀ first, (Dotted.segments "DataSet").head? = some first →
      Name.same .exact first "IO" = false := by
    have cut : (Dotted.segments "DataSet").head? = some "DataSet" := by decide
    intro first head
    cases Option.some.inj (cut.symm.trans head)
    decide
  refine ⟨by decide, by decide, other, ?_⟩
  rcases aliasesElsewhere dataLibrary 0 (Request.named "DataSet") ⟨⟨1⟩, "", [], []⟩ [] []
    (TypeRef.named ("System." ++ "IO")) Location.unknown (by decide) (by decide) other with
    same | ⟨rest, _, _, follows, _⟩
  · exact same
  · have apart : Name.after? .exact "IO" "DataSet" = none := by decide
    cases apart.symm.trans follows

theorem aliasIntrudes : Dotted.segments "DataSet" = ["DataSet"] ∧
    ((resolve 0 (dataSetBelow [])).run dataLibrary).1.isNone = true ∧
    ((resolve 0 (dataSetBelow [systemAlias "Data"])).run dataLibrary).1.map Definition.fullName =
      some "System.DataSet" := by decide +kernel

end Query
end TypeScope
