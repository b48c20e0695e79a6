import TypeScope.Proofs.BaseLookups

/-! Bases resolved in the context of their types, one after the other. -/
namespace TypeScope

section Contexts
open Query
variable {xid : Char → Bool} {u w : Workspace} {id : ScopeId} {t : Declared}
  {hosts : List Definition}

theorem recordFile {t : Declared} {i : Nat} {p : Declared → Bool}
    (chosen : t.parts.findIdx? p = some i) : ∃ part, t.mainPart? i = some part ∧ p part = true := by
  obtain ⟨inside, holds, -⟩ := List.findIdx?_eq_some_iff_getElem.mp chosen
  refine ⟨t.parts[i], ?_, holds⟩
  rw [Declared.mainPart?, Nat.min_eq_left (Nat.le_sub_one_of_lt inside)]
  exact List.getElem?_eq_getElem inside

theorem chosenCoherent (charted : u.Charted xid id) (coherent : Coherent xid u id hosts w)
    (own : u.Own id t) {file : Option FileId} {location : Location}
    (placed : (∃ part ∈ t.parts, part.body.file = file ∧ part.body.location = location) →
      file = (u.recordOf t).body.file ∧ location = (u.recordOf t).body.location) :
    Coherent xid u id hosts ((w.chooseMain t file location).getD w) ∧
      Later id w ((w.chooseMain t file location).getD w) := by
  unfold Workspace.chooseMain
  cases chosen : t.parts.findIdx? (fun p => p.body.file == file && p.body.location == location) with
  | none => exact ⟨coherent, Later.refl id w⟩
  | some i =>
    obtain ⟨part, main, holds⟩ := recordFile chosen
    rw [Bool.and_eq_true, beq_iff_eq, beq_iff_eq] at holds
    obtain ⟨inFile, there⟩ := placed ⟨part, List.mem_of_getElem? main, holds⟩
    refine ⟨⟨coherent.lasting, coherent.clock, fun t' own' => ?_, fun stamp other => ?_,
      coherent.cached, coherent.once, coherent.sites, coherent.targets, coherent.links,
      coherent.receivers, coherent.index⟩, Later.refl id w⟩
    · rw [← (coherent.records t' own').1, ← (coherent.records t' own').2]
      have index : ∀ w', Workspace.recordOf w' t' =
          (t'.mainPart? ((w'.mainParts.get? t'.stamp).getD 0)).getD t' := fun _ => rfl
      rw [Option.map_some, Option.getD_some, index, index w, Table.getPut]
      split
      · rename_i same
        cases charted.apart t t' own own' same
        rw [Option.getD_some, main, Option.getD_some, ← index, (coherent.records t own).1,
          (coherent.records t own).2]
        exact ⟨holds.1.trans inFile, holds.2.trans there⟩
      · exact ⟨rfl, rfl⟩
    · rw [Option.map_some, Option.getD_some, Table.getPut, if_neg (other t own)]
      exact coherent.elsewhere stamp other

theorem refetchTold (charted : u.Charted xid id) (coherent : Coherent xid u id hosts w)
    (own : u.Own id t) :
    Told xid u id hosts w (refetch id (.ofDeclared t)) (fun _ d => d = .ofDeclared t) := by
  have found : w.findType id .deep .exact t.fullName t.arity = some t := by
    rw [Workspace.findTypeLasting coherent.lasting]
    exact own
  unfold Told
  rw [refetchRun, found, Option.elim_some, rechosen]
  split
  · obtain ⟨coherent', later⟩ := chosenCoherent charted coherent own fun _ =>
      coherent.records t own
    exact ⟨coherent', later, rfl⟩
  · exact ⟨coherent, Later.refl id w, rfl⟩

theorem ownFetched (charted : u.Charted xid id) (coherent : Coherent xid u id hosts w)
    (own : u.Own id t) :
    Told xid u id hosts w (refetch id (.ofDeclared t)) (fun w' e => Known u id w' e t) :=
  toldWiden (refetchTold charted coherent own) fun w' e _ same =>
    show Known u id w' e t from same ▸ knownOwn own

theorem outwardLasting (same : w.lasting = u.lasting) (d : Definition) :
    w.outward id d = u.outward id d :=
  Workspace.outwardFromLasting same id (Workspace.outwardBound d) d

theorem parameterMissing {d : Definition} {name : String} (none_ : ¬ d.HasParameter name) :
    parameterNamed id d .exact name = pure none := by
  unfold parameterNamed
  cases open_ : d.openType with
  | array a => rfl
  | placeholder p => rfl
  | declared owner =>
    cases found : owner.body.typeParameters.find? (fun p => Name.same .exact p.name name) with
    | none => simp only [found]
    | some p => exact absurd ⟨owner, open_, by rw [found]; rfl⟩ none_

theorem outerParameterTold (coherent : Coherent xid u id hosts w) {name : String}
    (none_ : ¬ u.ParameterAround id t name) :
    Told xid u id hosts w (outerParameter id .exact name (.ofDeclared t))
      (fun _ answer => answer = none) := by
  refine toldGet ?_
  rw [outwardLasting coherent.lasting]
  have missing : ∀ d ∈ u.outward id (.ofDeclared t), ¬ d.HasParameter name :=
    fun d mem has => none_ ⟨d, mem, has⟩
  have nothing : ∀ ds : List Definition, (∀ d ∈ ds, ¬ d.HasParameter name) →
      (findFirst (fun d => parameterNamed id d .exact name) ds).run w = (none, w) := by
    intro ds
    induction ds with
    | nil => exact fun _ => rfl
    | cons d rest ih =>
      intro each
      rw [findFirst, parameterMissing (each d List.mem_cons_self), pure_bind]
      exact ih fun e mem => each e (List.mem_cons_of_mem _ mem)
  unfold Told
  rw [nothing _ missing]
  exact ⟨coherent, Later.refl id w, rfl⟩

theorem toldFirstOf {queries : List (Query (Option Definition))} {named : List (Option Declared)}
    (each : List.Forall₂ (fun q n => ∀ w', Coherent xid u id hosts w' →
      Told xid u id hosts w' q (Answered u id n)) queries named)
    (coherent : Coherent xid u id hosts w) :
    Told xid u id hosts w (firstOf queries) (Answered u id (named.findSome? (fun n => n))) := by
  induction each generalizing w with
  | nil => exact toldPure coherent (.inl ⟨rfl, rfl⟩)
  | cons first _ ih =>
    refine toldBind (first w coherent) fun answer w' coherent' _ answered => ?_
    rcases answered with ⟨rfl, rfl⟩ | ⟨d, t, rfl, rfl, known⟩
    · rw [List.findSome?_cons]
      exact ih coherent'
    · rw [List.findSome?_cons]
      exact toldPure coherent' (.inr ⟨d, t, rfl, rfl, known⟩)

theorem aliasFormed (charted : u.Charted xid id) {rule : CaseRule} {name : String}
    {target : TypeRef}
    (found : UsingDirective.findAlias rule name (u.directivesOf id t) = some target) :
    ∀ a ∈ target.arguments, a.WellFormed xid := by
  obtain ⟨⟨alias_, written⟩, first, rfl⟩ := Option.map_eq_some_iff.mp found
  obtain ⟨usings, listed, mem⟩ := List.mem_flatMap.mp (List.mem_of_find?_eq_some first)
  have value : written ∈ usings.aliases.values :=
    List.mem_map.mpr ⟨(alias_, written), (List.mem_filter.mp mem).1, rfl⟩
  unfold Workspace.directivesOf at listed
  cases unit : u.unitOf id (.ofDeclared t) with
  | none =>
    rw [unit] at listed
    cases listed
  | some unit_ =>
    rw [unit] at listed
    obtain ⟨file, -, kept⟩ := Option.bind_eq_some_iff.mp unit
    exact charted.aliases unit_ (Table.valueOfGet kept) usings listed written value

theorem inContextSources {name : String} (some_ : name ≠ "") (count : Nat) :
    u.inContext id t name count =
      [none, u.offered id name count, none,
        (UsingDirective.findAlias .exact name (u.directivesOf id t)).bind
          (fun target => u.offered id target.fullName target.arguments.length),
        (Dotted.enclosing t.fullName).findSome?
          (fun outer => u.offered id (outer ++ "." ++ name) count),
        ((u.directivesOf id t).flatMap (UsingDirective.candidates .exact name)).findSome?
          (fun full => u.offered id full count)].findSome? (fun n => n) := by
  have first : ∀ (a : Option Declared) (rest : List (Option Declared)),
      (a :: rest).findSome? (fun n => n) = a.or (rest.findSome? (fun n => n)) := by
    rintro (_ | a) rest <;> rfl
  rw [Workspace.inContext, if_neg some_, Workspace.readings]
  simp only [List.findSome?_append, List.findSome?_map, Function.comp_def, first, Option.or_none,
    Option.none_or, Option.or_assoc, List.findSome?_singleton, List.findSome?_nil]
  cases UsingDirective.findAlias .exact name (u.directivesOf id t) <;> simp

def Workspace.baseRequest (w : Workspace) (id : ScopeId) (t : Declared) (r : TypeRef) : Request :=
  { Request.ofReference r with
    calling := some (.ofDeclared t), unit := w.unitOf id (.ofDeclared t), depth := .deep }

theorem typedTold (charted : u.Charted xid id) (coherent : Coherent xid u id hosts w)
    (name : String) {arguments : List TypeRef} (formed : ∀ a ∈ arguments, a.WellFormed xid) :
    Told xid u id hosts w (getType id .deep .exact name arguments)
      (Answered u id (u.offered id name arguments.length)) :=
  toldWiden (getTypeTold charted coherent name formed) fun _ _ _ answered => answered.1

theorem answeredNone : Answered u id none w none := .inl ⟨rfl, rfl⟩

theorem fromParametersTold (charted : u.Charted xid id) (coherent : Coherent xid u id hosts w)
    (own : u.Own id t) {base r : TypeRef} (written : base ∈ t.body.bases)
    (echoes : base.Echoes xid r) (named : r.fullName ≠ "")
    (absent : u.offeredTo id base = none) :
    Told xid u id hosts w (fromParameters id (u.baseRequest id t r) (some (.ofDeclared t)))
      (Answered u id none) := by
  unfold fromParameters
  dsimp only
  split
  · rename_i bare
    have none_ : base.arguments = [] := by
      rw [← List.length_eq_zero_iff, ← echoes.count, List.length_eq_zero_iff]
      exact List.isEmpty_iff.mp bare
    have foreign := charted.meant t own base written absent (echoes.fullName ▸ named) none_
    rw [← echoes.fullName] at foreign
    exact toldWiden (outerParameterTold coherent foreign) fun _ _ _ same => .inl ⟨same, rfl⟩
  · exact toldPure coherent answeredNone

theorem fromAliasTold (charted : u.Charted xid id) (coherent : Coherent xid u id hosts w)
    (r : TypeRef) :
    Told xid u id hosts w (fromAlias id (u.baseRequest id t r)) (Answered u id
      ((UsingDirective.findAlias .exact r.fullName (u.directivesOf id t)).bind
        (fun target => u.offered id target.fullName target.arguments.length))) := by
  unfold fromAlias
  simp only [Workspace.baseRequest, Request.ofReference, Request.named, aliasIn]
  rw [← Workspace.directivesOf]
  cases found : UsingDirective.findAlias .exact r.fullName (u.directivesOf id t) with
  | none => exact toldPure coherent answeredNone
  | some target => exact typedTold charted coherent _ (aliasFormed charted found)

theorem fromUsingsTold (charted : u.Charted xid id) (coherent : Coherent xid u id hosts w)
    {r : TypeRef} (formed : ∀ a ∈ r.arguments, a.WellFormed xid) :
    Told xid u id hosts w (fromUsings id (u.baseRequest id t r)) (Answered u id
      (((u.directivesOf id t).flatMap (UsingDirective.candidates .exact r.fullName)).findSome?
        (fun full => u.offered id full r.arguments.length))) := by
  unfold fromUsings
  simp only [Workspace.baseRequest, Request.ofReference, Request.named, candidatesIn]
  rw [← Workspace.directivesOf]
  exact toldFindFirst coherent fun full _ w' coherent' => typedTold charted coherent' _ formed

theorem resolveFlatTold (charted : u.Charted xid id) (coherent : Coherent xid u id hosts w)
    (own : u.Own id t) {base r : TypeRef} (written : base ∈ t.body.bases)
    (echoes : base.Echoes xid r)
    (absent : u.offeredTo id base = none) :
    Told xid u id hosts w (resolveFlat id (w.baseRequest id t r))
      (Answered u id (u.inContext id t base.fullName base.arguments.length)) := by
  have unit : w.unitOf id (.ofDeclared t) = u.unitOf id (.ofDeclared t) := by
    have file : w.fileOf (.ofDeclared t) = u.fileOf (.ofDeclared t) := (coherent.records t own).1
    rw [Workspace.unitOf, Workspace.unitOf, file, Workspace.storeLasting coherent.lasting]
  have request : w.baseRequest id t r = u.baseRequest id t r := by
    rw [Workspace.baseRequest, unit]
    rfl
  rw [request, ← echoes.fullName, ← echoes.count]
  unfold resolveFlat resolveWith
  by_cases unnamed : r.fullName = ""
  · have bare : (u.baseRequest id t r).name = "" := unnamed
    rw [if_pos bare, Workspace.inContext, if_pos unnamed]
    exact toldPure coherent answeredNone
  · have named : (u.baseRequest id t r).name ≠ "" := unnamed
    rw [if_neg named, inContextSources unnamed]
    have again : Told xid u id hosts w (some <$> refetch id (.ofDeclared t))
        (fun _ calling => calling = some (.ofDeclared t)) := by
      rw [map_eq_pure_bind]
      refine toldBind (refetchTold charted coherent own) fun d w' coherent' _ same => ?_
      exact toldPure coherent' (congrArg some same)
    refine toldBind again fun calling w' coherent' _ same => ?_
    rw [same]
    refine toldFirstOf (.cons ?parameters (.cons ?known (.cons ?nested (.cons ?aliases
      (.cons ?enclosing (.cons ?usings .nil)))))) coherent'
    case parameters =>
      exact fun _ now => fromParametersTold charted now own written echoes unnamed absent
    case known => exact fun _ now => typedTold charted now r.fullName echoes.formed
    case nested => exact fun _ now => toldPure now answeredNone
    case aliases => exact fun _ now => fromAliasTold charted now r
    case enclosing =>
      exact fun _ now => toldFindFirst now fun outer _ _ then_ =>
        typedTold charted then_ _ echoes.formed
    case usings => exact fun _ now => fromUsingsTold charted now echoes.formed

end Contexts

section Bases
open Query
open Workspace (writtenIn)
variable {xid : Char → Bool} {u w : Workspace} {id : ScopeId} {t : Declared} {d : Definition}
  {hosts : List Definition}

theorem Known.written (known : Known u id w d t) : writtenIn d = .ofDeclared t := by
  obtain ⟨-, open_, -⟩ := known
  cases d with
  | unbound o =>
    cases open_
    rfl
  | bound i => exact congrArg Definition.unbound open_

theorem linkAtTold (charted : u.Charted xid id) (coherent : Coherent xid u id hosts w)
    (known : Known u id w d t) {i : Nat} {base : TypeRef} (at_ : t.body.bases[i]? = some base)
    {e : Definition} {p : Declared} (target : Known u id w e p)
    (names : u.named id t base = some p) :
    Told xid u id hosts w (linkAt ⟨d.stamp, .base i⟩ e) (fun _ _ => True) := by
  refine toldBind (keepTargetTold coherent target) fun _ w' coherent' later _ => ?_
  refine writeLinkTold charted coherent' (known.later later) at_ fun s same => ?_
  exact ⟨e, p, target.later later, Option.some.inj same, names⟩

theorem resolveBaseTold (charted : u.Charted xid id) (coherent : Coherent xid u id hosts w)
    (known : Known u id w d t) {i : Nat} {base r : TypeRef} (at_ : t.body.bases[i]? = some base)
    (echoes : base.Echoes xid r) :
    Told xid u id hosts w (resolveBase id d i r) (Answered u id (u.named id t base)) := by
  refine toldBind (lookupAtTold charted coherent known at_ echoes)
    fun answer w' coherent' later found => ?_
  rcases found with ⟨e, p, rfl, names, known'⟩ | ⟨rfl, absent⟩
  · exact toldPure coherent' (.inr ⟨e, p, rfl, names, known'⟩)
  · have context : u.named id t base = u.inContext id t base.fullName base.arguments.length := by
      rw [Workspace.named, ← Workspace.offeredTo, absent, Option.none_or]
    refine toldGet ?_
    rw [known.written]
    have written := List.mem_of_getElem? at_
    have resolved := resolveFlatTold charted coherent' known.1 written echoes absent
    rw [← context] at resolved
    refine toldBind resolved fun answer w'' coherent'' later' answered => ?_
    rcases answered with ⟨rfl, none_⟩ | ⟨e, p, rfl, names, known'⟩
    · exact toldPure coherent'' (.inl ⟨rfl, none_⟩)
    · have here := known.later (later.trans later')
      refine toldBind (linkAtTold charted coherent'' here at_ known' names)
        fun _ w₃ coherent₃ later₃ _ => toldPure coherent₃ ?_
      exact .inr ⟨e, p, rfl, names, known'.later later₃⟩

def AllKnown (u : Workspace) (id : ScopeId) (w : Workspace) (ds : List Definition)
    (ts : List Declared) : Prop := List.Forall₂ (Known u id w) ds ts

theorem AllKnown.later {w' : Workspace} {ds : List Definition} {ts : List Declared}
    (all : AllKnown u id w ds ts) (later : Later id w w') : AllKnown u id w' ds ts :=
  all.imp fun _ _ known => known.later later

theorem resolveBasesTold (charted : u.Charted xid id) (coherent : Coherent xid u id hosts w)
    (known : Known u id w d t) {i : Nat} {bases rs : List TypeRef}
    (echoes : List.Forall₂ (TypeRef.Echoes xid) bases rs)
    (at_ : ∀ k base, bases[k]? = some base → t.body.bases[i + k]? = some base) :
    Told xid u id hosts w (resolveBases id d i rs)
      (fun w' ds => AllKnown u id w' ds (bases.filterMap (u.named id t))) := by
  induction echoes generalizing i w with
  | nil => exact toldPure coherent .nil
  | @cons base r bases rs first _ ih =>
    refine toldBind (resolveBaseTold charted coherent known (at_ 0 base rfl) first)
      fun answer w' coherent' later answered => ?_
    have rest : ∀ k base, bases[k]? = some base → t.body.bases[i + 1 + k]? = some base := by
      intro k base found
      rw [Nat.add_right_comm, Nat.add_assoc]
      exact at_ (k + 1) base found
    refine toldBind (ih coherent' (known.later later) rest) fun ds w'' coherent'' later' all => ?_
    refine toldPure coherent'' ?_
    rcases answered with ⟨rfl, none_⟩ | ⟨e, p, rfl, names, known'⟩
    · rw [List.filterMap_cons_none none_]
      exact all
    · rw [List.filterMap_cons_some names]
      exact .cons (known'.later later') all

theorem basesTold (charted : u.Charted xid id) (coherent : Coherent xid u id hosts w)
    (known : Known u id w d t) :
    Told xid u id hosts w (resolveBases id d 0 d.body.bases)
      (fun w' ds => AllKnown u id w' ds (t.body.bases.filterMap (u.named id t))) :=
  resolveBasesTold charted coherent known (known.retold charted coherent).bases
    fun k base found => by rwa [Nat.zero_add]

end Bases
end TypeScope
