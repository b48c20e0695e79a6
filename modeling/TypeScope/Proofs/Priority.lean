import TypeScope.Proofs.Sources
import TypeScope.Proofs.Traces

/-! The order in which a name is resolved. What a name may stand for is written down as a list, cut
from the names around it and from the using directives in the order of the source; resolving the
name asks for one after the other and takes the first that is found. -/
namespace TypeScope

inductive Candidate where
  | parameter
  | written (name : String) (arguments : List TypeRef)
  | nested

def Candidate.ask (id : ScopeId) (q : Request) (calling : Option Definition) :
    Candidate → Query (Option Definition)
  | parameter => match calling with
      | some c => Query.outerParameter id q.rule q.name c
      | none => return none
  | written name arguments => Query.getType id q.depth q.rule name arguments
  | nested => Query.fromNested id q calling

inductive FirstHit (ask : Candidate → Query (Option Definition)) :
    List Candidate → Workspace → Option Definition → Workspace → Prop where
  | over {w} : FirstHit ask [] w none w
  | hits {c rest w d after} (run : (ask c).run w = (some d, after)) :
      FirstHit ask (c :: rest) w (some d) after
  | misses {c rest w between answer after} (run : (ask c).run w = (none, between))
      (later : FirstHit ask rest between answer after) : FirstHit ask (c :: rest) w answer after

section Readings

structure Dotted.Outwards (s : String) (outers : List String) : Prop where
  cut : ∀ outer, outer ∈ outers ↔ ∃ inner, s = outer ++ "." ++ inner
  longest : outers.Pairwise (fun p q => q.length < p.length)

inductive FirstAlias (name : String) (aliases : List (String × TypeRef)) :
    Option TypeRef → Prop where
  | missing (unnamed : ∀ a ∈ aliases, a.1 ≠ name) : FirstAlias name aliases none
  | first {before target after} (split : aliases = before ++ (name, target) :: after)
      (unnamed : ∀ a ∈ before, a.1 ≠ name) : FirstAlias name aliases (some target)

inductive SpelledOut (name : String) : List (String × TypeRef) → List String → Prop where
  | nil : SpelledOut name [] []
  | starts {known target rest aliases names} (some_ : known ≠ "") (whole : name = known ++ rest)
      (later : SpelledOut name aliases names) :
      SpelledOut name ((known, target) :: aliases) ((target.fullName ++ rest) :: names)
  | passes {known target aliases names} (other : known = "" ∨ ∀ rest, name ≠ known ++ rest)
      (later : SpelledOut name aliases names) : SpelledOut name ((known, target) :: aliases) names

inductive UsingDirective.StandsIn (u : UsingDirective) : List String → Prop where
  | nowhere (unmarked : u.aliases.get? "" = none) : StandsIn u []
  | inside {own around} (marked : u.aliases.get? "" = some own)
      (outer : Dotted.Outwards own.fullName around) : StandsIn u (own.fullName :: around)

inductive UsingDirective.Gives (name : String) (u : UsingDirective) : List String → Prop where
  | inOrder {around spelled} (place : u.StandsIn around)
      (aliased : SpelledOut name u.aliases.entries spelled) :
      Gives name u (u.namespaces.map (fun ns => ns ++ "." ++ name) ++
        around.map (fun ns => Dotted.join ns name) ++ spelled)

inductive Definition.Outwards : Option Definition → List String → Prop where
  | outside : Outwards none []
  | inside {c around} (outer : Dotted.Outwards c.fullName around) : Outwards (some c) around

def Request.directives (q : Request) : List UsingDirective :=
  q.unit.elim [] CompilationUnit.usings

inductive Request.Tries (q : Request) (calling : Option Definition) : List Candidate → Prop where
  | inOrder {target around given}
      (aliased : FirstAlias q.name (q.directives.flatMap (fun u => u.aliases.entries)) target)
      (outer : Definition.Outwards calling around)
      (imported : List.Forall₂ (UsingDirective.Gives q.name) q.directives given) :
      Tries q calling
        ((if calling.isSome ∧ q.arguments = [] then [.parameter] else []) ++
          [.written q.name q.arguments] ++
          (if calling.isSome then [.nested] else []) ++
          target.toList.map (fun t => .written t.fullName t.arguments) ++
          around.map (fun outer => .written (outer ++ "." ++ q.name) q.arguments) ++
          given.flatten.map (fun name => .written name q.arguments))

end Readings

section Unique
variable {s name : String} {q : Request} {calling : Option Definition}

theorem Dotted.outwardsUnique {ps qs : List String} (first : Dotted.Outwards s ps)
    (second : Dotted.Outwards s qs) : ps = qs := by
  have once : ∀ {l : List String}, Dotted.Outwards s l → l.Nodup := fun out =>
    out.longest.imp fun less same => by simp [same] at less
  have members := (List.perm_ext_iff_of_nodup (once first) (once second)).mpr fun p =>
    (first.cut p).trans (second.cut p).symm
  exact members.eq_of_pairwise (fun _ _ _ _ less more => absurd less (Nat.lt_asymm more))
    first.longest second.longest

theorem firstAliasUnique {aliases : List (String × TypeRef)} {a b : Option TypeRef}
    (first : FirstAlias name aliases a) (second : FirstAlias name aliases b) : a = b := by
  have told : ∀ {c}, FirstAlias name aliases c →
      c = (aliases.find? (fun a => a.1 == name)).map Prod.snd := by
    intro c alias_
    cases alias_ with
    | missing unnamed =>
      have none_ : aliases.find? (fun a => a.1 == name) = none := by simpa using unnamed
      rw [none_, Option.map_none]
    | @first before target after split unnamed =>
      have here : aliases.find? (fun a => a.1 == name) = some (name, target) :=
        List.find?_eq_some_iff_append.mpr
          ⟨beq_self_eq_true name, before, after, split, by simpa using unnamed⟩
      rw [here, Option.map_some]
  exact (told first).trans (told second).symm

theorem spelledOutUnique {aliases : List (String × TypeRef)} {ps qs : List String}
    (first : SpelledOut name aliases ps) (second : SpelledOut name aliases qs) : ps = qs := by
  induction first generalizing qs with
  | nil =>
    cases second
    rfl
  | starts some_ whole later ih =>
    cases second with
    | starts some_' whole' later' =>
      have same := String.append_right_inj _ |>.mp (whole.symm.trans whole')
      rw [same, ih later']
    | passes other later' =>
      rcases other with empty | apart
      · exact absurd empty some_
      · exact absurd whole (apart _)
  | passes other later ih =>
    cases second with
    | starts some_ whole later' =>
      rcases other with empty | apart
      · exact absurd empty some_
      · exact absurd whole (apart _)
    | passes other' later' => exact ih later'

theorem UsingDirective.givesUnique {u : UsingDirective} {ps qs : List String}
    (first : u.Gives name ps) (second : u.Gives name qs) : ps = qs := by
  obtain ⟨place, aliased⟩ := first
  obtain ⟨place', aliased'⟩ := second
  rw [spelledOutUnique aliased aliased']
  cases place with
  | nowhere unmarked =>
    cases place' with
    | nowhere => rfl
    | inside marked => simp [unmarked] at marked
  | inside marked outer =>
    cases place' with
    | nowhere unmarked => simp [unmarked] at marked
    | inside marked' outer' =>
      cases Option.some.inj (marked.symm.trans marked')
      rw [Dotted.outwardsUnique outer outer']

theorem triesUnique {first second : List Candidate} (tries : q.Tries calling first)
    (tries' : q.Tries calling second) : first = second := by
  obtain ⟨aliased, outer, imported⟩ := tries
  obtain ⟨aliased', outer', imported'⟩ := tries'
  have around : ∀ {ps qs}, Definition.Outwards calling ps → Definition.Outwards calling qs →
      ps = qs := by
    intro ps qs left right
    cases left with
    | outside =>
      cases right
      rfl
    | inside outer =>
      cases right with
      | inside outer' => exact Dotted.outwardsUnique outer outer'
  have given : ∀ {us : List UsingDirective} {ps qs},
      List.Forall₂ (UsingDirective.Gives q.name) us ps →
        List.Forall₂ (UsingDirective.Gives q.name) us qs → ps = qs := by
    intro us ps qs left
    induction left generalizing qs with
    | nil =>
      intro right
      cases right
      rfl
    | cons gives _ ih =>
      intro right
      cases right with
      | cons gives' later' => rw [UsingDirective.givesUnique gives gives', ih later']
  rw [firstAliasUnique aliased aliased', around outer outer', given imported imported']

end Unique

section Exists
variable {name : String}

theorem aliasFirst (some_ : name ≠ "") (usings : List UsingDirective) :
    FirstAlias name (usings.flatMap (fun u => u.aliases.entries))
      (UsingDirective.findAlias .exact name usings) := by
  have named : usings.flatMap UsingDirective.namedAliases =
      (usings.flatMap (fun u => u.aliases.entries)).filter (fun a => a.1 != "") := by
    rw [List.filter_flatMap]
    rfl
  have asked : (fun a : String × TypeRef => a.1 != "" && Name.same .exact a.1 name) =
      fun a => a.1 == name := by
    funext a
    by_cases same : a.1 = name <;> simp [Name.same, same, some_]
  rw [UsingDirective.findAlias, named, List.find?_filter]
  simp only [Bool.decide_and, Bool.decide_eq_true, asked]
  cases found : (usings.flatMap (fun u => u.aliases.entries)).find? (fun a => a.1 == name) with
  | none =>
    exact .missing fun a mem same => List.find?_eq_none.mp found a mem (beq_iff_eq.mpr same)
  | some a =>
    obtain ⟨same, before, after, split, unnamed⟩ := List.find?_eq_some_iff_append.mp found
    obtain ⟨known, target⟩ := a
    obtain rfl : known = name := eq_of_beq same
    exact .first split (by simpa using unnamed)

theorem startsLonger (cs : List Char) :
    (Dotted.starts cs).Pairwise (fun p q => p.length < q.length) := by
  induction cs with
  | nil => exact .nil
  | cons c rest ih =>
    have longer : ((Dotted.starts rest).map (c :: ·)).Pairwise
        (fun p q => p.length < q.length) := by
      refine List.pairwise_map.mpr (ih.imp fun less => ?_)
      simpa using less
    rw [Dotted.starts]
    split
    · exact List.pairwise_cons.mpr ⟨by simp, longer⟩
    · exact longer

theorem Dotted.enclosingOutwards (s : String) : Dotted.Outwards s (Dotted.enclosing s) where
  cut outer := by
    rw [memEnclosing]
    constructor
    · rintro ⟨tail, whole⟩
      exact ⟨String.ofList tail, String.ext_iff.mpr (by simp [whole])⟩
    · rintro ⟨inner, rfl⟩
      exact ⟨inner.toList, by simp⟩
  longest := by
    refine List.pairwise_map.mpr (List.pairwise_reverse.mpr ((startsLonger s.toList).imp ?_))
    intro p q less
    simpa using less

theorem Name.cutBytesWhole (start rest : List Char) :
    Name.cutBytes (String.ofList start).utf8ByteSize (start ++ rest) = some (start, rest) := by
  induction start with
  | nil => cases rest <;> rfl
  | cons c start ih =>
    have sized : (String.ofList (c :: start)).utf8ByteSize =
        c.utf8Size + (String.ofList start).utf8ByteSize := by
      simp [String.ofList_cons]
    obtain ⟨n, next⟩ : ∃ n, c.utf8Size + (String.ofList start).utf8ByteSize = n + 1 :=
      Nat.exists_eq_succ_of_ne_zero (by have := Char.utf8Size_pos c; omega)
    have left : n + 1 - c.utf8Size = (String.ofList start).utf8ByteSize := by omega
    rw [sized, next, List.cons_append, Name.cutBytes, if_pos (by omega), left, ih]
    rfl

theorem Name.afterExact {known rest : String} :
    Name.after? .exact known name = some rest ↔ name = known ++ rest := by
  constructor
  · intro follows
    unfold Name.after? at follows
    split at follows <;> try contradiction
    rename_i start tail cut
    split at follows <;> try contradiction
    rename_i same
    obtain rfl := Option.some.inj follows
    rw [← Name.sameExact.mp same]
    exact String.ext_iff.mpr (by simp [Name.cutBytesSound cut])
  · rintro rfl
    have cut := Name.cutBytesWhole known.toList rest.toList
    rw [String.ofList_toList, ← String.toList_append] at cut
    rw [Name.after?, cut]
    simp [Name.same]

theorem spelledOutOf (aliases : List (String × TypeRef)) :
    SpelledOut name aliases ((aliases.filter (fun a => a.1 != "")).filterMap (fun a =>
      (Name.after? .exact a.1 name).map (fun rest => a.2.fullName ++ rest))) := by
  induction aliases with
  | nil => exact .nil
  | cons a aliases ih =>
    obtain ⟨known, target⟩ := a
    by_cases empty : known = ""
    · rw [List.filter_cons_of_neg (by simp [empty])]
      exact .passes (.inl empty) ih
    · rw [List.filter_cons_of_pos (by simp [empty])]
      cases follows : Name.after? .exact known name with
      | none =>
        rw [List.filterMap_cons_none (by simp [follows])]
        refine .passes (.inr fun rest whole => ?_) ih
        rw [Name.afterExact.mpr whole] at follows
        cases follows
      | some rest =>
        rw [List.filterMap_cons_some (by rw [follows]; rfl)]
        exact .starts empty (Name.afterExact.mp follows) ih

def UsingDirective.own (u : UsingDirective) : List String :=
  (u.ownNamespace?.map TypeRef.fullName).elim [] (fun s => s :: Dotted.enclosing s)

def UsingDirective.readings (name : String) (u : UsingDirective) : List String :=
  u.namespaces.map (fun ns => ns ++ "." ++ name) ++
    u.own.map (fun ns => Dotted.join ns name) ++
    u.namedAliases.filterMap (fun a =>
      (Name.after? .exact a.1 name).map (fun rest => a.2.fullName ++ rest))

theorem UsingDirective.givesReadings (u : UsingDirective) : u.Gives name (u.readings name) := by
  refine .inOrder ?_ (spelledOutOf _)
  unfold own
  cases marked : u.ownNamespace? with
  | none => exact .nowhere marked
  | some own => exact .inside marked (Dotted.enclosingOutwards _)

theorem UsingDirective.ownLongest (u : UsingDirective) :
    u.own.Pairwise (fun p q => q.length < p.length) := by
  unfold own
  cases u.ownNamespace? with
  | none => exact .nil
  | some own =>
    have outer := Dotted.enclosingOutwards own.fullName
    refine List.pairwise_cons.mpr ⟨fun p mem => ?_, outer.longest⟩
    obtain ⟨inner, whole⟩ := (outer.cut p).mp mem
    have dot : ".".length = 1 := rfl
    rw [whole, String.length_append, String.length_append, dot]
    omega

theorem UsingDirective.readingsKept (u : UsingDirective) :
    (u.readings name).filter (· != name) =
      (UsingDirective.candidates .exact name u).filter (· != name) := by
  have outwards : ∀ {l : List String}, l.Pairwise (fun p q => q.length < p.length) →
      (l.map (fun ns => Dotted.join ns name)).filter (· != name) =
        ((l.takeWhile (· != "")).map (fun ns => ns ++ "." ++ name)).filter (· != name) := by
    intro l longest
    induction longest with
    | nil => rfl
    | @cons ns rest shorter _ ih =>
      by_cases empty : ns = ""
      · have last : rest = [] := List.eq_nil_iff_forall_not_mem.mpr fun p mem => by
          have less := shorter p mem
          simp [empty] at less
        simp [empty, last, Dotted.join]
      · rw [List.takeWhile_cons_of_pos (by simp [empty]), List.map_cons, List.map_cons,
          List.filter_cons, List.filter_cons, ih, Dotted.join, if_neg empty]
  have own : (u.ownNamespace?.map TypeRef.fullName).elim [] Dotted.selfAndEnclosing =
      u.own.takeWhile (· != "") := by
    unfold UsingDirective.own
    cases u.ownNamespace? <;> rfl
  rw [readings, candidates, own]
  simp only [List.filter_append, outwards u.ownLongest]

namespace Request

def partsFor (q : Request) (calling : Option Definition) : List (List Candidate) :=
  [if calling.isSome ∧ q.arguments = [] then [.parameter] else [],
    [.written q.name q.arguments],
    if calling.isSome then [.nested] else [],
    (UsingDirective.findAlias .exact q.name q.directives).toList.map
      (fun t => .written t.fullName t.arguments),
    (calling.elim [] (fun c => Dotted.enclosing c.fullName)).map
      (fun outer => .written (outer ++ "." ++ q.name) q.arguments)]

def imports (q : Request) : List Candidate :=
  (q.directives.map (UsingDirective.readings q.name)).flatten.map (.written · q.arguments)

theorem triesParts (q : Request) (calling : Option Definition) (some_ : q.name ≠ "") :
    q.Tries calling (q.partsFor calling ++ [q.imports]).flatten := by
  have around : Definition.Outwards calling
      (calling.elim [] (fun c => Dotted.enclosing c.fullName)) := by
    cases calling with
    | none => exact .outside
    | some c => exact .inside (Dotted.enclosingOutwards _)
  have imported : List.Forall₂ (UsingDirective.Gives q.name) q.directives
      (q.directives.map (UsingDirective.readings q.name)) :=
    List.forall₂_map_right_iff.mpr
      (List.forall₂_same.mpr fun u _ => UsingDirective.givesReadings u)
  have tries := Tries.inOrder (aliasFirst some_ _) around imported
  simpa [partsFor, imports] using tries

end Request
end Exists

namespace Query

section Order
variable {id : ScopeId} {q : Request} {calling : Option Definition} {w : Workspace}

theorem firstHit (ask : Candidate → Query (Option Definition)) (candidates : List Candidate)
    (w : Workspace) : FirstHit ask candidates w ((findFirst ask candidates).run w).1
      ((findFirst ask candidates).run w).2 := by
  induction candidates generalizing w with
  | nil => exact .over
  | cons c rest ih =>
    rw [findFirst, StateT.run_bind]
    cases run : (ask c).run w with
    | mk answer after =>
      cases answer with
      | some d => exact .hits run
      | none => exact .misses run (ih after)

theorem askedWritten (names : List String) (arguments : List TypeRef) :
    findFirst (Candidate.ask id q calling) (names.map (.written · arguments)) =
      findFirst (fun name => lookupFor id q name arguments) names :=
  findFirstMap _ _ _

theorem sourcesAsked (exact_ : q.rule = .exact) :
    nearSources id q calling = (q.partsFor calling).map (findFirst (Candidate.ask id q calling)) := by
  have single := findFirstSingle (Candidate.ask id q calling)
  have parameters : fromParameters id q calling = findFirst (Candidate.ask id q calling)
      (if calling.isSome ∧ q.arguments = [] then [.parameter] else []) := by
    unfold fromParameters
    cases calling with
    | none => rfl
    | some c =>
      by_cases bare : q.arguments = []
      · simp [bare, single, Candidate.ask]
      · simp [bare, findFirst]
  have nested : fromNested id q calling = findFirst (Candidate.ask id q calling)
      (if calling.isSome then [.nested] else []) := by
    cases calling with
    | none => rfl
    | some c => exact (single .nested).symm
  have aliases : fromAlias id q = findFirst (Candidate.ask id q calling)
      (((UsingDirective.findAlias .exact q.name q.directives).toList).map
        (fun t => .written t.fullName t.arguments)) := by
    have asked : q.unit.bind (fun u => UsingDirective.findAlias q.rule q.name u.usings) =
        UsingDirective.findAlias .exact q.name q.directives := by
      rw [exact_, Request.directives]
      cases q.unit <;> rfl
    rw [fromAlias, asked]
    cases UsingDirective.findAlias .exact q.name q.directives with
    | none => rfl
    | some target => exact (single (.written target.fullName target.arguments)).symm
  have enclosing : fromEnclosing id q calling = findFirst (Candidate.ask id q calling)
      ((calling.elim [] (fun c => Dotted.enclosing c.fullName)).map
        (fun outer => .written (outer ++ "." ++ q.name) q.arguments)) := by
    rw [findFirstMap]
    rfl
  rw [nearSources, parameters, nested, aliases, enclosing, fromKnown]
  simp only [Request.partsFor, List.map_cons, List.map_nil, single, Candidate.ask, lookupFor]

theorem usingsAsked (exact_ : q.rule = .exact)
    (unknown : w.findType id q.depth .exact (Arity.strip q.name).1
      (askedArity q.name q.arguments) = none) :
    (fromUsings id q).run w = (findFirst (Candidate.ask id q calling) q.imports).run w := by
  have silent : ∀ name, Silent (lookupFor id q name q.arguments) := fun _ => getTypeSilent ..
  have missed : ∀ name, (name != q.name) = false →
      ((lookupFor id q name q.arguments).run w).1 = none := by
    intro name same
    obtain rfl : name = q.name := by simpa using same
    rw [lookupFor, exact_, getTypeMissed unknown]
  have candidates : q.unit.elim [] (fun u =>
      u.usings.flatMap (UsingDirective.candidates q.rule q.name)) =
        q.directives.flatMap (UsingDirective.candidates .exact q.name) := by
    rw [exact_, Request.directives]
    cases q.unit <;> rfl
  rw [fromUsings, candidates, Request.imports, askedWritten, ← List.flatMap_def,
    findFirstFilter silent _ missed, findFirstFilter silent (q.directives.flatMap _) missed,
    List.filter_flatMap, List.filter_flatMap]
  simp only [UsingDirective.readingsKept]

theorem candidatesAsked (exact_ : q.rule = .exact) :
    (firstOf (nearSources id q calling ++ [fromUsings id q])).run w =
      (findFirst (Candidate.ask id q calling)
        (q.partsFor calling ++ [q.imports]).flatten).run w := by
  rw [← firstOfParts, List.map_append, ← sourcesAsked exact_, List.map_singleton]
  cases known : w.findType id q.depth .exact (Arity.strip q.name).1
      (askedArity q.name q.arguments) with
  | some t =>
    -- the name itself is known, so what comes last is not asked
    have hit : ((fromKnown id q).run w).1.isSome = true := by
      rw [fromKnown, lookupFor, exact_, getTypeRun known]
      rfl
    simp only [nearSources, List.cons_append, firstOfCons (parametersSilent id q calling),
      firstOfCons (knownSilent id q), if_pos hit]
  | none =>
    refine firstOfLast (I := fun v => v.lasting = w.lasting) (fun source mem => ?_)
      (fun v same => usingsAsked exact_ ?_) rfl
    · have frame := lastingFrame w
      simp only [nearSources, List.mem_cons, List.not_mem_nil, or_false] at mem
      rcases mem with rfl | rfl | rfl | rfl | rfl
      · exact frame.fromParameters id q calling
      · exact frame.lookupFor id q _ _
      · exact frame.fromNested id q calling (.inr fun _ => trivial)
      · exact frame.fromAlias id q
      · exact leavesFindFirst fun _ => frame.lookupFor id q _ _
    · rw [Workspace.findTypeLasting same]
      exact known

/-- A name resolves to the first of its candidates that is found. They are settled by the request
and the calling type as it is now. -/
theorem resolvedInOrder (w : Workspace) (id : ScopeId) (q : Request) (exact_ : q.rule = .exact)
    (some_ : q.name ≠ "") : ∃ calling fetched candidates,
      (q.calling.mapM (refetch id)).run w = (calling, fetched) ∧ q.Tries calling candidates ∧
      (∀ others, q.Tries calling others → others = candidates) ∧
      FirstHit (Candidate.ask id q calling) candidates fetched ((resolve id q).run w).1
        ((resolve id q).run w).2 := by
  cases fetching : (q.calling.mapM (refetch id)).run w with
  | mk calling fetched =>
    have tries := q.triesParts calling some_
    refine ⟨calling, fetched, _, rfl, tries, fun others more => triesUnique more tries, ?_⟩
    rw [resolveSources some_ fetching, candidatesAsked exact_]
    exact firstHit _ _ _

end Order

def nearAndFar : Workspace :=
  (Session.run [.opens "app", .writes (rowSource 0
    [("App.Views.Page", none), ("App.Item", none), ("Lib.Item", none)]), .ingests 0 0]).workspace

def importing (ns : String) : CompilationUnit :=
  ⟨⟨1⟩, "", [UsingDirective.empty.withNamespace ns], []⟩

theorem resolvedInOrderNear : ∃ page calling fetched candidates,
    nearAndFar.findType 0 .shallow .exact "App.Views.Page" 0 = some page ∧
      let q := Request.within "Item" page (some (importing "Lib")) .shallow
      q.name ≠ "" ∧ (q.calling.mapM (refetch 0)).run nearAndFar = (calling, fetched) ∧
        q.Tries calling candidates ∧
        FirstHit (Candidate.ask 0 q calling) candidates fetched
          ((resolve 0 q).run nearAndFar).1 ((resolve 0 q).run nearAndFar).2 ∧
        ((resolve 0 q).run nearAndFar).1.map Definition.fullName = some "App.Item" := by
  have found : (nearAndFar.findType 0 .shallow .exact "App.Views.Page" 0).any (fun page =>
      ((resolve 0 (.within "Item" page (some (importing "Lib")) .shallow)).run nearAndFar).1.map
        Definition.fullName == some "App.Item") := by decide +kernel
  have some_ : "Item" ≠ "" := by decide
  obtain ⟨page, stored, named⟩ := (Option.any_eq_true _ _).mp found
  obtain ⟨calling, fetched, candidates, fetching, tries, -, hit⟩ :=
    resolvedInOrder nearAndFar 0 (.within "Item" page (some (importing "Lib")) .shallow) rfl
      some_
  exact ⟨page, calling, fetched, candidates, stored, some_, fetching, tries, hit,
    eq_of_beq named⟩

end Query
end TypeScope
