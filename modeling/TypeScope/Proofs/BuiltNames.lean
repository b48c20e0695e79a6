import TypeScope.Proofs.FilteredSubtypes
import TypeScope.Proofs.Imports
import TypeScope.Proofs.NestedStorage
import TypeScope.Proofs.Preorder

/-! Names that are composed on the way down and taken apart again. A tree of builders hands namespace
and full name from each type to those it nests; a reference to a type strips the namespace and cuts
the rest at the dots, which gives the builders' names back, one for each level. -/
namespace TypeScope

namespace Dotted
variable {ns name first : String}

theorem relativeJoin (ns tail : String) : relative ns (join ns tail) = tail := by
  rw [relative, join]
  split
  · rfl
  · have starts_ : (ns ++ ".").toList.isPrefixOf (ns ++ "." ++ tail).toList = true :=
      List.isPrefixOf_iff_prefix.mpr ⟨tail.toList, by simp⟩
    have behind : (ns ++ "." ++ tail).toList.drop (ns ++ ".").length = tail.toList := by
      rw [String.toList_append, ← String.length_toList, List.drop_left]
    rw [after?, if_pos starts_, behind, String.ofList_toList, Option.getD_some]

theorem joinAllSnoc (ns : String) (names : List String) (name : String) :
    joinAll ns (names ++ [name]) = join (joinAll ns names) name := by
  rw [joinAll, List.foldl_append]
  rfl

theorem joinAllRelative (some_ : first ≠ "") (rest : List String) :
    joinAll ns (first :: rest) = join ns (joinAll first rest) := by
  by_cases top : ns = ""
  · rw [top, joinAllStart]
    rfl
  · refine String.toList_injective ?_
    rw [joinAllFollowing top, joinChars, if_neg top, joinAllFollowing some_]
    simp [following]

theorem joinSome (some_ : name ≠ "") : join ns name ≠ "" := by
  rw [join]
  split
  · exact some_
  · intro empty
    simpa using congrArg String.toList empty

theorem segmentsJoined {rest : List String} (simple : ∀ s ∈ first :: rest, '.' ∉ s.toList)
    (some_ : first ≠ "") : segments (joinAll first rest) = first :: rest := by
  rw [segments, joinAllFollowing some_, piecesFollowed (by simpa using simple)]
  simp [Function.comp_def]

theorem joinAllUnmarked {names : List String} (plain : Arity.mark ∉ ns.toList)
    (unmarked : ∀ s ∈ names, Arity.mark ∉ s.toList) : Arity.mark ∉ (joinAll ns names).toList := by
  induction names generalizing ns with
  | nil => exact plain
  | cons name rest ih =>
    rw [joinAll, List.foldl_cons]
    refine ih (joinUnmarked.mpr ⟨plain, unmarked name List.mem_cons_self⟩) fun s mem => ?_
    exact unmarked s (List.mem_cons_of_mem _ mem)

end Dotted

namespace Arity

theorem stripJoined (outer name : String) : strip (outer ++ "." ++ name) =
    ((strip outer).1 ++ "." ++ (strip name).1, (strip name).2) := by
  refine Prod.ext (String.toList_injective ?_) (stripBehind outer name)
  have cut : Dotted.pieces (outer ++ "." ++ name).toList =
      Dotted.pieces outer.toList ++ Dotted.pieces name.toList := by
    rw [← Dotted.piecesAppend]
    simp
  obtain ⟨first, rest, before, -⟩ := Dotted.piecesFollowing outer.toList
  obtain ⟨next, more, after, -⟩ := Dotted.piecesFollowing name.toList
  rw [strip, strip, strip, cut, before, after]
  simp [intercalateFollowing, followingAppend, followingCons]

theorem stripDecoratedJoin {outer name : String} (plain : mark ∉ outer.toList)
    (simple : '.' ∉ name.toList) (unmarked : mark ∉ name.toList) {n : Nat}
    (fits : n < UInt64.size) : strip (decorate (Dotted.join outer name) n) =
      (Dotted.join outer name, if n = 0 then none else some n) := by
  have own : strip (decorate name n) = (name, if n = 0 then none else some n) := by
    rw [strip, Dotted.piecesSimple (decorateSimple simple n)]
    simp [stripDecorated unmarked fits]
  rw [decorateJoin, Dotted.join, Dotted.join]
  split
  · exact own
  · rw [stripJoined, own, stripUnmarked plain]

end Arity

section Identifiers
variable {xid : Char → Bool} (separate : ∀ c ∈ Text.marks, xid c = false)
  (whole : ∀ s, Identifier xid s → Text.leadingIdentifier s = s)

namespace TypeRef
variable {first : String} {rest : List String}

include separate whole in
theorem chainOfJoined (ns : String) (named : ∀ s ∈ first :: rest, Identifier xid s) :
    chainOf ns (Dotted.joinAll ns (first :: rest)) =
      ofChain ns ⟨first, []⟩ (rest.map fun s => ⟨s, []⟩) := by
  have fixed : ∀ s ∈ first :: rest, TypePart.of s [] = ⟨s, []⟩ := by
    intro s mem
    rw [TypePart.of, whole s (named s mem)]
  have some_ : first ≠ "" := (named first List.mem_cons_self).1
  have simple : ∀ s ∈ first :: rest, '.' ∉ s.toList :=
    fun s mem => (named s mem).without separate (by decide)
  have cut := Dotted.segmentsJoined simple some_
  rw [chainOf, Dotted.joinAllRelative some_, Dotted.relativeJoin, cut]
  dsimp only
  rw [fixed first List.mem_cons_self,
    List.map_congr_left fun s mem => fixed s (List.mem_cons_of_mem _ mem)]

theorem decoratedBare {r : TypeRef} (bare : ∀ p ∈ r.outer, p.arguments = []) :
    r.decoratedName = Arity.decorate r.fullName r.arguments.length := by
  have outer : r.outer.map TypePart.decorated = r.outer.map TypePart.name := by
    refine List.map_congr_left fun p mem => ?_
    rw [TypePart.decorated, bare p mem]
    rfl
  rw [decoratedName, fullName, parts, List.map_append, List.map_append, outer]
  simp only [List.map_singleton]
  rw [Dotted.joinAllSnoc, Dotted.joinAllSnoc, decorateJoin]
  rfl

end TypeRef

namespace Blueprint

def space (b : Blueprint) : String := (Dotted.split b.fullName).1

def name (b : Blueprint) : String := (Dotted.split b.fullName).2

def along : List Nat → Blueprint → Option (List Blueprint × Blueprint)
  | [], b => some ([], b)
  | i :: path, b => (b.nested[i]?.bind (along path)).map fun (above, own) => (b :: above, own)

mutual
def preorder : Blueprint → List Blueprint
  | ⟨fullName, kind, modifiers, typeParameters, base, interfaces, members, nested, location⟩ =>
      ⟨fullName, kind, modifiers, typeParameters, base, interfaces, members, nested, location⟩ ::
        preorders nested
  termination_by structural b => b

def preorders : List Blueprint → List Blueprint
  | [] => []
  | b :: rest => preorder b ++ preorders rest
  termination_by structural bs => bs
end

theorem preorderCons (b : Blueprint) : preorder b = b :: preorders b.nested := by
  cases b
  rfl

theorem preordersFlat (bs : List Blueprint) : preorders bs = bs.flatMap preorder := by
  induction bs with
  | nil => rfl
  | cons b rest ih => rw [preorders, List.flatMap_cons, ih]

theorem alongPreorder {path : List Nat} {b own : Blueprint} {above : List Blueprint}
    (goes : along path b = some (above, own)) : ∀ a ∈ above ++ [own], a ∈ preorder b := by
  induction path generalizing b above with
  | nil =>
    obtain ⟨rfl, rfl⟩ := Prod.mk.inj (Option.some.inj goes)
    simp [preorderCons]
  | cons i path ih =>
    obtain ⟨⟨front, last⟩, found, same⟩ := Option.map_eq_some_iff.mp goes
    obtain ⟨rfl, rfl⟩ := Prod.mk.inj same
    obtain ⟨inner, here, goes⟩ := Option.bind_eq_some_iff.mp found
    intro a mem
    rw [preorderCons, preordersFlat]
    rcases List.mem_cons.mp mem with rfl | later
    · exact List.mem_cons_self
    · exact List.mem_cons_of_mem _ (List.mem_flatMap.mpr
        ⟨inner, List.mem_of_getElem? here, ih goes a later⟩)

end Blueprint

namespace Blueprint.Around

def full (a : Around) (name : String) : String :=
  match a.outer with
  | some outer => outer ++ "." ++ name
  | none => Dotted.join a.ns name

def enter (a : Around) (name : String) : Around := ⟨a.ns, some (a.full name)⟩

def enterAll (a : Around) (names : List String) : Around := names.foldl enter a

theorem enterAllNs (a : Around) (names : List String) : (a.enterAll names).ns = a.ns := by
  induction names generalizing a with
  | nil => rfl
  | cons name rest ih => exact ih (a.enter name)

theorem enterAllOuter {ns outer : String} (some_ : outer ≠ "") {names : List String}
    (named : ∀ s ∈ names, s ≠ "") :
    (enterAll ⟨ns, some outer⟩ names).outer = some (Dotted.joinAll outer names) := by
  induction names generalizing outer with
  | nil => rfl
  | cons name rest ih =>
    have joined : Dotted.join outer name = outer ++ "." ++ name := if_neg some_
    have longer : outer ++ "." ++ name ≠ "" :=
      joined ▸ Dotted.joinSome (named name List.mem_cons_self)
    refine (ih longer fun s mem => named s (List.mem_cons_of_mem _ mem)).trans ?_
    rw [Dotted.joinAll, Dotted.joinAll, List.foldl_cons, joined]

theorem enterAllTop {ns : String} {names : List String} (named : ∀ s ∈ names, s ≠ "") :
    (enterAll ⟨ns, none⟩ names).outer =
      if names = [] then none else some (Dotted.joinAll ns names) := by
  cases names with
  | nil => rfl
  | cons name rest =>
    rw [if_neg (List.cons_ne_nil name rest)]
    exact enterAllOuter (Dotted.joinSome (named name List.mem_cons_self))
      fun s mem => named s (List.mem_cons_of_mem _ mem)

theorem fullAll {ns name : String} {names : List String} (named : ∀ s ∈ names ++ [name], s ≠ "") :
    (enterAll ⟨ns, none⟩ names).full name = Dotted.joinAll ns (names ++ [name]) := by
  have entered : (enterAll ⟨ns, none⟩ (names ++ [name])).outer =
      some ((enterAll ⟨ns, none⟩ names).full name) := by
    rw [enterAll, List.foldl_append]
    rfl
  rw [enterAllTop named, if_neg (by simp)] at entered
  exact (Option.some.inj entered).symm

end Blueprint.Around

namespace Blueprint
variable {file : Option FileId} {d : Declared}

theorem buildAllAt (file : Option FileId) (around : Option Around) (stamp : Stamp) (i : Nat)
    (bs : List Blueprint) (j : Nat) : (buildAll file around stamp i bs)[j]? =
      bs[j]?.map (buildIn file around (stamp.child (i + j))) := by
  induction bs generalizing i j with
  | nil => rfl
  | cons b rest ih =>
    cases j with
    | zero => rfl
    | succ j =>
      rw [buildAll, List.getElem?_cons_succ, List.getElem?_cons_succ, ih, Nat.add_assoc,
        Nat.add_comm 1]

structure BuiltAt (place : Around) (own : Blueprint) (file : Option FileId) (d : Declared) :
    Prop where
  ns : d.ns = place.ns
  outer : d.body.outer = place.outer
  fullName : d.fullName = place.full own.name
  file : d.body.file = file
  typeParameters : d.body.typeParameters = own.typeParameters
  members : d.body.members = own.members.map fun m => { m with declaring := some d.fullName }

theorem buildInAt (file : Option FileId) (around : Option Around) (stamp : Stamp)
    (b : Blueprint) : let place := around.getD ⟨b.space, none⟩
    BuiltAt place b file (buildIn file around stamp b) ∧
      (buildIn file around stamp b).nested =
        buildAll file (some (place.enter b.name)) stamp 0 b.nested := by
  obtain ⟨fullName, kind, modifiers, typeParameters, base, interfaces, members, nested, location⟩ := b
  exact ⟨⟨rfl, rfl, rfl, rfl, rfl, rfl⟩, rfl⟩

theorem builtAlong (path : List Nat) (file : Option FileId) (around : Option Around)
    (stamp : Stamp) (b : Blueprint) :
    match along path b with
    | none => Declared.down path (buildIn file around stamp b) = none
    | some (above, own) => ∃ d, Declared.down path (buildIn file around stamp b) = some d ∧
        BuiltAt ((around.getD ⟨b.space, none⟩).enterAll (above.map name)) own file d := by
  induction path generalizing around stamp b with
  | nil => exact ⟨_, rfl, (buildInAt file around stamp b).1⟩
  | cons i path ih =>
    obtain ⟨-, nested⟩ := buildInAt file around stamp b
    rw [along, Declared.down, nested, buildAllAt]
    cases b.nested[i]? with
    | none => rfl
    | some inner =>
      have later := ih (some ((around.getD ⟨b.space, none⟩).enter b.name)) (stamp.child (0 + i)) inner
      rw [Option.bind_some, Option.map_some, Option.bind_some]
      cases goes : along path inner with
      | none =>
        rw [goes] at later
        exact later
      | some found =>
        rw [goes] at later
        exact later

structure Built (root : Blueprint) (above : List Blueprint) (own : Blueprint)
    (file : Option FileId) (d : Declared) : Prop where
  ns : d.ns = root.space
  fullName : d.fullName = Dotted.joinAll root.space ((above ++ [own]).map name)
  outer : d.body.outer =
    if above = [] then none else some (Dotted.joinAll root.space (above.map name))
  file : d.body.file = file
  members : d.body.members = own.members.map fun m => { m with declaring := some d.fullName }
  arity : d.arity = own.typeParameters.length

theorem BuiltAt.built {root own : Blueprint} {above : List Blueprint}
    (built : BuiltAt (Around.enterAll ⟨root.space, none⟩ (above.map name)) own file d)
    (named : ∀ b ∈ above ++ [own], b.name ≠ "") : Built root above own file d := by
  have own_ : ∀ s ∈ above.map name ++ [own.name], s ≠ "" := by
    simpa [or_imp, forall_and] using named
  have above_ : ∀ s ∈ above.map name, s ≠ "" := fun s mem => own_ s (List.mem_append_left _ mem)
  have space := Around.enterAllNs ⟨root.space, none⟩ (above.map name)
  refine ⟨built.ns.trans space, ?_, ?_, built.file, built.members,
    congrArg List.length built.typeParameters⟩
  · rw [built.fullName, Around.fullAll own_, List.map_append, List.map_singleton]
  · rw [built.outer, Around.enterAllTop above_]
    simp

end Blueprint

namespace TypeRef

structure Names (names : List String) (d : Declared) (r : TypeRef) : Prop where
  ns : r.ns = d.ns
  fullName : r.fullName = d.fullName
  decoratedName : r.decoratedName = d.decoratedName
  parts : r.parts.map TypePart.name = names
  arguments : r.arguments.length = d.arity
  rankless : r.marks.ranks = []
  bare : ∀ p ∈ r.outer, p.arguments = []
  link : r.link = some d.stamp

include separate whole in
theorem namesBuilt {ns : String} {names : List String} {d : Declared} (some_ : names ≠ [])
    (named : ∀ s ∈ names, Identifier xid s) (space : d.ns = ns)
    (full : d.fullName = Dotted.joinAll ns names) :
    Names names d (forDefinition (.ofDeclared d)) := by
  obtain ⟨first, rest, rfl⟩ := List.exists_cons_of_ne_nil some_
  subst space
  have chain := chainOfJoined separate whole d.ns named
  rw [← full] at chain
  -- the parts of the chain, and those of the reference but for the arguments of the last
  have parts := ofChainParts d.ns ⟨first, []⟩ (rest.map fun s => ⟨s, []⟩)
  rw [← chain] at parts
  have bare : ∀ p ∈ (chainOf d.ns d.fullName).parts, p.arguments = [] := by
    rw [parts]
    simp
  have names : (forDefinition (.ofDeclared d)).parts.map TypePart.name =
      (chainOf d.ns d.fullName).parts.map TypePart.name := by
    rw [TypeRef.parts, TypeRef.parts, List.map_append, List.map_append]
    rfl
  have own : (forDefinition (.ofDeclared d)).parts.map TypePart.name = first :: rest := by
    rw [names, parts]
    simp [Function.comp_def]
  have count : (forDefinition (.ofDeclared d)).arguments.length = d.arity :=
    List.length_map ..
  have outer : ∀ p ∈ (forDefinition (.ofDeclared d)).outer, p.arguments = [] :=
    fun p mem => bare p (List.mem_append_left _ mem)
  have whole : (forDefinition (.ofDeclared d)).fullName = d.fullName := by
    rw [TypeRef.fullName, own, mentionNs, full]
  refine ⟨mentionNs d, whole, ?_, own, count, ?_, outer, rfl⟩
  · rw [decoratedBare outer, whole, count, Declared.decoratedName]
  · exact mentionRankless Workspace.empty d

end TypeRef

namespace Workspace
variable {w : Workspace} {id : ScopeId} {d t : Declared} {r : TypeRef}

theorem findStored {name : String} {arity : Nat}
    (stored : (w.store id).find name arity = some t) (depth : Depth) (rule : CaseRule) :
    w.findType id depth rule name arity = some t := by
  have here : (w.store id).lookup rule name arity = some t := by
    simp only [Store.lookup, stored]
  cases depth <;> rw [findType, consulted, List.findSome?_cons, here]

structure LeadsTo (w : Workspace) (id : ScopeId) (d : Declared) (r : TypeRef) (t : Declared) :
    Prop where
  stored : (w.store id).find d.fullName d.arity = some t
  called : t.fullName = d.fullName ∧ t.arity = d.arity
  declares : ∃ f ∈ t.fragments, f.tag = d.tag
  byArity : ∀ depth rule, ((Query.getByArity id depth rule r.fullName r.arguments.length).run w).1 =
    some (.ofDeclared t)
  byName : d.arity < UInt64.size → ∀ depth rule,
    ((Query.getType id depth rule r.decoratedName []).run w).1 = some (.ofDeclared t)
  byReference : d.arity < UInt64.size → ((Query.lookup id r).run w).1.1 =
    some ((Query.instantiate id (.ofDeclared t) r.arguments).run w).1

end Workspace

namespace Query
variable {w : Workspace} {id : ScopeId} {t : Declared} {r : TypeRef}

theorem lookupFinds (filed : Filed w) (rankless : r.marks.ranks = []) (unlinked : r.link = none)
    (bare : ∀ p ∈ r.outer, p.arguments = [])
    (selected : w.findType id .deep .exact (Arity.strip r.decoratedName).1
      (askedArity r.decoratedName r.arguments) = some t) :
    ((lookup id r).run w).1.1 = some ((instantiate id (.ofDeclared t) r.arguments).run w).1 := by
  have unbelieved : (w.linked r).filter (w.isCurrent id) = none := by
    rw [Workspace.linked, unlinked]
    rfl
  have settled := instantiateSettled filed (openedOfFound selected) t bare
  have direct : lookup id r = lookupCore id r := by
    rw [Query.lookup, TypeRef.elementNone.mpr rankless]
  rw [direct, lookupCore, StateT.run_bind, StateT.run_get, pure_bind, unbelieved]
  dsimp only
  rw [runThrough (getTypeRun selected)]
  dsimp only
  rw [settled]
  rfl

end Query

namespace TypeRef.Names
variable {r : TypeRef} {names : List String} {d : Declared} (told : r.Names names d)
  (some_ : names ≠ []) (named : ∀ s ∈ names, Identifier xid s) {ns : String}
  (plain : Arity.mark ∉ ns.toList) (full : d.fullName = Dotted.joinAll ns names)

include separate named plain full in
theorem strippedFull : Arity.strip d.fullName = (d.fullName, none) := by
  have unmarked : ∀ s ∈ names, Arity.mark ∉ s.toList :=
    fun s mem => (named s mem).without separate (by decide)
  exact Arity.stripUnmarked (full ▸ Dotted.joinAllUnmarked plain unmarked)

section Decorated
variable (fits : d.arity < UInt64.size)
include separate told some_ named plain full fits

theorem strippedDecorated : Arity.strip r.decoratedName =
    (d.fullName, if d.arity = 0 then none else some d.arity) := by
  have unmarked : ∀ s ∈ names, Arity.mark ∉ s.toList :=
    fun s mem => (named s mem).without separate (by decide)
  obtain ⟨front, last, rfl⟩ := (List.eq_nil_or_concat names).resolve_left some_
  rw [List.concat_eq_append] at full named unmarked
  have own : last ∈ front ++ [last] := by simp
  rw [told.decoratedName, Declared.decoratedName, full, Dotted.joinAllSnoc]
  refine Arity.stripDecoratedJoin (Dotted.joinAllUnmarked plain fun s mem => ?_)
    ((named last own).without separate (by decide)) (unmarked last own) fits
  exact unmarked s (List.mem_append_left _ mem)

theorem askedDecorated {arguments : List TypeRef}
    (given : arguments = [] ∨ arguments.length = d.arity) :
    askedArity r.decoratedName arguments = d.arity := by
  rw [askedArity, strippedDecorated separate told some_ named plain full fits]
  by_cases bare : arguments = []
  · by_cases none_ : d.arity = 0 <;> simp [bare, none_]
  · rw [if_neg (by simpa using bare)]
    exact given.resolve_left bare

end Decorated

include separate told some_ named plain full in
theorem leads (events : List Event) {id : ScopeId} {u : CompilationUnit}
    (listed : u ∈ ((Session.run events).workspace.store id).units.values)
    (mem : d ∈ Declared.preorders u.types) :
    ∃ t, (Session.run events).workspace.LeadsTo id d r.unlinked t := by
  obtain ⟨t, stored, called, declares⟩ := Session.declarationStored events id listed mem
  have found := Workspace.findStored stored
  have stripped : d.arity < UInt64.size → (Arity.strip r.decoratedName).1 = d.fullName :=
    fun fits => by rw [strippedDecorated separate told some_ named plain full fits]
  have asked := @askedDecorated xid separate r names d told some_ named ns plain full
  refine ⟨t, stored, called, declares, fun depth rule => ?_, fun fits depth rule => ?_,
    fun fits => ?_⟩
  · have answer : ((Query.getByArity id depth rule r.fullName r.arguments.length).run
        (Session.run events).workspace).1 = ((Session.run events).workspace.findType id depth rule
          (Arity.strip r.fullName).1 r.arguments.length).map .ofDeclared := rfl
    refine answer.trans ?_
    rw [told.fullName, told.arguments, strippedFull separate named plain full, found, Option.map_some]
  · have selected := found depth rule
    rw [← asked fits (.inl rfl), ← stripped fits] at selected
    exact congrArg Prod.fst (getTypeRun selected)
  · have selected := found .deep .exact
    rw [← asked fits (.inr told.arguments), ← stripped fits] at selected
    exact Query.lookupFinds (Session.filed events) told.rankless rfl told.bare selected

end TypeRef.Names
end Identifiers

/-- A tree of builders whose names are identifiers, below no namespace or one of identifiers. Every
type of what is built comes from a builder, and has its namespace, full name, declaring type, file
and the declaring type of its members from those above it and from its own name. A reference made
for the type says namespace, full name and decorated full name, with one part for each level; and
without its link it leads, wherever a unit with the tree is stored, to the entry that has the
type among its declarations. -/
theorem Blueprint.builtNamesFound {xid : Char → Bool} (separate : ∀ c ∈ Text.marks, xid c = false)
    (whole : ∀ s, Identifier xid s → Text.leadingIdentifier s = s) {root : Blueprint}
    (named : ∀ b ∈ root.preorder, Identifier xid b.name)
    (spaced : root.space = "" ∨ Segmented xid root.space) (file : Option FileId) (stamp : Stamp)
    {d : Declared} (mem : d ∈ (root.build file stamp).preorder) :
    ∃ path above own, along path root = some (above, own) ∧
      Declared.down path (root.build file stamp) = some d ∧ Built root above own file d ∧
      TypeRef.Names ((above ++ [own]).map name) d (TypeRef.forDefinition (.ofDeclared d)) ∧
      ∀ (events : List Event) (id : ScopeId),
        ∀ u ∈ ((Session.run events).workspace.store id).units.values,
          root.build file stamp ∈ u.types →
            ∃ t, (Session.run events).workspace.LeadsTo id d
              (TypeRef.forDefinition (.ofDeclared d)).unlinked t := by
  obtain ⟨path, found⟩ := Declared.memPreorderDown.mp mem
  have along_ := builtAlong path file none stamp root
  rw [← build, found] at along_
  cases goes : along path root with
  | none =>
    rw [goes] at along_
    cases along_
  | some end_ =>
    obtain ⟨above, own⟩ := end_
    rw [goes] at along_
    obtain ⟨_, same, place⟩ := along_
    cases Option.some.inj same
    have identifiers : ∀ b ∈ above ++ [own], Identifier xid b.name :=
      fun b inside => named b (alongPreorder goes b inside)
    have built : Built root above own file d := place.built fun b inside => (identifiers b inside).1
    have some_ : (above ++ [own]).map name ≠ [] := by simp
    have each : ∀ s ∈ (above ++ [own]).map name, Identifier xid s :=
      fun s inside => List.forall_mem_map.mpr identifiers s inside
    have told := TypeRef.namesBuilt separate whole some_ each built.ns built.fullName
    have plain : Arity.mark ∉ root.space.toList := by
      rcases spaced with top | segmented
      · simp [top]
      · exact (segmentedUnmarked separate segmented).1
    refine ⟨path, above, own, goes, found, built, told, fun events id u listed stores => ?_⟩
    exact told.leads separate some_ each plain built.fullName events listed
      (Declared.memPreorders.mpr ⟨_, stores, mem⟩)

def sameNamed : Blueprint :=
  { Blueprint.bare "App.App" .classType with
    nested := [{ Blueprint.bare "Inner" .classType with
      typeParameters := [⟨"T", []⟩]
      nested := [Blueprint.bare "Deep" .classType] }] }

def sameNamedLoading : List Event := [.opens "app", .writes ⟨⟨0⟩, "", [], [sameNamed]⟩]

theorem builtNamesFoundSameNamed : ∃ d t, d.fullName = "App.App.Inner" ∧ d.ns = "App" ∧
    (TypeRef.forDefinition (.ofDeclared d)).decoratedName = "App.App.Inner\x601" ∧
    (TypeRef.forDefinition (.ofDeclared d)).parts.map TypePart.name = ["App", "Inner"] ∧
    (Session.run (sameNamedLoading ++ [.ingests 0 0])).workspace.LeadsTo 0 d
      (TypeRef.forDefinition (.ofDeclared d)).unlinked t := by
  let unit := CompilationUnit.build (Stamp.at 0) ⟨0⟩ "" [] [sameNamed]
  have written : (Session.run sameNamedLoading).written[0]? = some unit := rfl
  have listed := Session.unitIngested sameNamedLoading written (by decide : 0 < 1)
  have named : ∀ b ∈ sameNamed.preorder, Identifier tabled b.name := by decide +kernel
  have spaced : Segmented tabled sameNamed.space := by decide +kernel
  have inner : ∃ d ∈ (sameNamed.build (some ⟨0⟩) ((Stamp.at 0).child 0)).preorder,
      d.fullName = "App.App.Inner" ∧ d.decoratedName = "App.App.Inner\x601" ∧
        (TypeRef.forDefinition (.ofDeclared d)).parts.map TypePart.name = ["App", "Inner"] := by
    decide +kernel
  obtain ⟨d, mem, full, decorated, parts⟩ := inner
  obtain ⟨path, above, own, -, -, built, told, leads⟩ :=
    Blueprint.builtNamesFound tabledMarks (fun _ whole => Text.leadingIdentifierFixed whole.2) named
      (.inr spaced) (some ⟨0⟩) ((Stamp.at 0).child 0) mem
  obtain ⟨t, found⟩ := leads _ 0 unit listed List.mem_cons_self
  exact ⟨d, t, full, built.ns, told.decoratedName.trans decorated, parts, found⟩

end TypeScope
