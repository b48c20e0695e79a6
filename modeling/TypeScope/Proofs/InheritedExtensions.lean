import TypeScope.Proofs.Converse
import TypeScope.Proofs.ReceiverLookups
import TypeScope.Proofs.Refetching

/-! What extends a type extends what inherits from it. The names on the walk from a definition are
those of the types that its type descends from, whatever it is bound to; so a definition that a walk
meets leads to nothing that the walk does not come upon. -/
namespace TypeScope
open Query

section Fetching
variable {xid : Char → Bool} {u w : Workspace} {id : ScopeId} {hosts : List Definition}
  {d : Definition} {s t : Declared}

theorem knownFetched (charted : u.Charted xid id) (coherent : Coherent xid u id hosts w)
    (known : Known u id w d t) :
    Told xid u id hosts w (refetch id d) (fun w' e => Known u id w' e t) := by
  obtain ⟨own, open_, rfl | ⟨key, cached⟩⟩ := known
  · exact ownFetched charted coherent own
  · obtain ⟨p, i, -, rfl, inst, -⟩ := coherent.cached key d cached
    have open_ : i.openType = .declared t := open_
    have found : w.findType id .deep .exact i.openType.fullName i.openType.arity = some t := by
      rw [Workspace.findTypeLasting coherent.lasting, open_]
      exact own
    have named : t.fullName = i.openType.fullName := by
      rw [open_]
      rfl
    have key : key = i.key := by
      rw [inst.key, Instantiation.key, inst.open_]
      rfl
    have ordinary : (Definition.bound i).isApart = false := by
      rw [Definition.isApart, Definition.element?, Definition.openType, open_]
      rfl
    unfold Told
    rw [instanceStays ordinary found named inst.some_ (key ▸ cached)]
    exact ⟨coherent, Later.refl id w, own, open_, .inr ⟨_, cached⟩⟩

theorem Workspace.Charted.placed (charted : u.Charted xid id) (mainParts : Table Stamp Nat) :
    Workspace.Charted xid { u with mainParts := mainParts } id := by
  have lasting : Workspace.lasting { u with mainParts := mainParts } = u.lasting := rfl
  have own : ∀ t, Workspace.Own { u with mainParts := mainParts } id t ↔ u.Own id t := fun t => by
    rw [Workspace.Own, Workspace.findTypeLasting lasting, Workspace.Own]
  refine ⟨charted.opened, charted.links, charted.targets, charted.cache, charted.subtypes,
    fun name arity t found => ?_, fun t t' here there => ?_, fun t here => ?_, charted.separate,
    fun t here => ?_, fun t here => ?_, charted.aliases, fun t here => ?_⟩
  · rw [Workspace.findTypeLasting lasting] at found
    exact charted.called name arity t found
  · exact charted.apart t t' ((own t).mp here) ((own t').mp there)
  · exact charted.dated t ((own t).mp here)
  · exact charted.names t ((own t).mp here)
  · exact charted.fit t ((own t).mp here)
  · simp only [Workspace.offered, Workspace.ParameterAround, Workspace.findTypeLasting lasting,
      outwardLasting lasting]
    exact charted.meant t ((own t).mp here)

structure Fetches (u : Workspace) (id : ScopeId) (s t : Declared) : Prop where
  found : u.findType id .deep .exact s.fullName s.arity = some t
  apart : ∀ p, u.Own id p → p.stamp = s.stamp → p = s
  placed : s.isCompound = true → t.isCompound = true →
    (∃ part ∈ t.parts, part.body.file = (u.recordOf s).body.file ∧
      part.body.location = (u.recordOf s).body.location) →
    (u.recordOf s).body.file = (u.recordOf t).body.file ∧
      (u.recordOf s).body.location = (u.recordOf t).body.location

theorem recordElsewhere (other : t.stamp ≠ s.stamp) (file : Option FileId) (location : Location) :
    ((w.chooseMain t file location).getD w).recordOf s = w.recordOf s := by
  unfold Workspace.chooseMain
  cases t.parts.findIdx? (fun p => p.body.file == file && p.body.location == location) with
  | none => rfl
  | some i =>
    rw [Option.map_some, Option.getD_some]
    simp only [Workspace.recordOf, Workspace.mainIndex, Table.getPut, if_neg other]

theorem recordChosen {file : Option FileId} {location : Location}
    (there : ∃ part ∈ t.parts, part.body.file = file ∧ part.body.location = location) :
    (((w.chooseMain t file location).getD w).recordOf t).body.file = file ∧
      (((w.chooseMain t file location).getD w).recordOf t).body.location = location := by
  unfold Workspace.chooseMain
  cases chosen : t.parts.findIdx? (fun p => p.body.file == file && p.body.location == location) with
  | none =>
    obtain ⟨part, mem, inFile, placed⟩ := there
    have never := List.findIdx?_eq_none_iff.mp chosen part mem
    rw [Bool.and_eq_false_iff, beq_eq_false_iff_ne, beq_eq_false_iff_ne] at never
    exact never.elim (absurd inFile) (absurd placed)
  | some i =>
    obtain ⟨part, main, holds⟩ := recordFile chosen
    rw [Bool.and_eq_true, beq_iff_eq, beq_iff_eq] at holds
    have record : Workspace.recordOf { w with mainParts := w.mainParts.put t.stamp i } t =
        part := by
      simp only [Workspace.recordOf, Workspace.mainIndex, Table.getPut, if_pos, Option.getD_some,
        main]
    rw [Option.map_some, Option.getD_some, record]
    exact holds

theorem rechosenFetches (found : w.findType id .deep .exact s.fullName s.arity = some t)
    (own : w.Own id t) (apart : ∀ p, w.Own id p → p.stamp = s.stamp → p = s) :
    Fetches (rechosen s t w) id s t := by
  obtain ⟨mainParts, aside⟩ := rechosenAside s t w
  have lasting : (rechosen s t w).lasting = w.lasting := by rw [aside]; rfl
  refine ⟨?_, fun p own => ?_, fun partial_ partialToo shared => ?_⟩
  · rw [Workspace.findTypeLasting lasting]
    exact found
  · rw [Workspace.Own, Workspace.findTypeLasting lasting] at own
    exact apart p own
  · by_cases other : t.stamp = s.stamp
    · cases apart t own other
      exact ⟨rfl, rfl⟩
    · have both : (s.isCompound && t.isCompound) = true := by rw [partial_, partialToo]; rfl
      rw [rechosen, if_pos both, recordElsewhere other] at shared ⊢
      obtain ⟨file, location⟩ := recordChosen shared
      exact ⟨file.symm, location.symm⟩

theorem Fetches.record (fetches : Fetches u id s t) (coherent : Coherent xid u id hosts w) :
    (w.recordOf s).body.file = (u.recordOf s).body.file ∧
      (w.recordOf s).body.location = (u.recordOf s).body.location := by
  by_cases own : u.Own id s
  · exact coherent.records s own
  · have kept : w.mainParts.get? s.stamp = u.mainParts.get? s.stamp :=
      coherent.elsewhere s.stamp fun p inside same => own (fetches.apart p inside same ▸ inside)
    have same : w.recordOf s = u.recordOf s := by
      rw [Workspace.recordOf, Workspace.mainIndex, kept]
      rfl
    rw [same]
    exact ⟨rfl, rfl⟩

theorem startTold (charted : u.Charted xid id) (fetches : Fetches u id s t)
    (coherent : Coherent xid u id hosts w) :
    Told xid u id hosts w (refetch id (.ofDeclared s)) (fun w' e => Known u id w' e t) := by
  have own := (charted.found fetches.found).1
  unfold Told
  rw [refetchRun, Workspace.findTypeLasting coherent.lasting, fetches.found, Option.elim_some,
    rechosen]
  split
  · rename_i both
    obtain ⟨partial_, partialToo⟩ := Bool.and_eq_true_iff.mp both
    obtain ⟨file, location⟩ := fetches.record coherent
    rw [file, location]
    obtain ⟨coherent', later⟩ := chosenCoherent charted coherent own
      (fetches.placed partial_ partialToo)
    exact ⟨coherent', later, knownOwn own⟩
  · exact ⟨coherent, Later.refl id w, knownOwn own⟩

end Fetching

def Workspace.Starts (w : Workspace) (id : ScopeId) (given : List Definition) (d : Definition) :
    Prop :=
  d ∈ given ∨ ∃ t, w.Own id t ∧ d = .ofDeclared t

def Question.Browses (w : Workspace) (id : ScopeId) (given hosts : List Definition) :
    Question → Prop
  | ancestry d | ancestryTo _ d => w.Starts id given d
  | extensions d candidates => w.Starts id given d ∧ candidates ⊆ hosts
  | _ => False

def Workspace.Browsed (w : Workspace) (id : ScopeId) (s : Declared) (hosts : List Definition)
    (after : Workspace) : Prop :=
  let walk := (ancestry id (.ofDeclared s)).run w
  ∃ questions : List Question,
    (∀ q ∈ questions, q.Browses w id (.ofDeclared s :: walk.1) hosts) ∧
      after = walk.2.asked id questions

section Browsing
variable {xid : Char → Bool} {u w : Workspace} {id : ScopeId} {hosts given : List Definition}

theorem Question.Browses.lasting {q : Question} (browses : q.Browses w id given hosts)
    (same : u.lasting = w.lasting) : q.Browses u id given hosts := by
  have starts : ∀ d, w.Starts id given d → u.Starts id given d := fun d =>
    Or.imp_right fun ⟨t, own, here⟩ => ⟨t, by
      rwa [Workspace.Own, Workspace.findTypeLasting same], here⟩
  cases q with
  | ancestry d => exact starts d browses
  | ancestryTo count d => exact starts d browses
  | extensions d candidates => exact ⟨starts d browses.1, browses.2⟩
  | _ => exact browses

theorem questionTold (hosting : Hosting xid hosts) (charted : u.Charted xid id)
    (fetched : ∀ d, u.Starts id given d →
      ∃ t, Told xid u id hosts w (refetch id d) (fun w' e => Known u id w' e t))
    {q : Question} (browses : q.Browses u id given hosts) :
    Coherent xid u id hosts (q.after id w) ∧ Later id w (q.after id w) := by
  cases q with
  | ancestry d =>
    obtain ⟨t, fetched⟩ := fetched d browses
    obtain ⟨coherent, later, -⟩ := ancestryOf charted fetched
    exact ⟨coherent, later⟩
  | ancestryTo count d =>
    obtain ⟨t, fetched⟩ := fetched d browses
    obtain ⟨coherent, later, -⟩ := ancestryToOf charted fetched count
    exact ⟨coherent, later⟩
  | extensions d candidates =>
    obtain ⟨starts, within⟩ := browses
    obtain ⟨t, fetched⟩ := fetched d starts
    obtain ⟨coherent, later, -⟩ := extensionsOf hosting charted fetched within
    exact ⟨coherent, later⟩
  | _ => exact browses.elim

theorem browsedTold (hosting : Hosting xid hosts) (charted : u.Charted xid id)
    (fetched : ∀ v, Coherent xid u id hosts v → Later id w v → ∀ d, u.Starts id given d →
      ∃ t, Told xid u id hosts v (refetch id d) (fun w' e => Known u id w' e t))
    (coherent : Coherent xid u id hosts w) {questions : List Question}
    (browse : ∀ q ∈ questions, q.Browses u id given hosts) :
    Coherent xid u id hosts (w.asked id questions) ∧ Later id w (w.asked id questions) := by
  induction questions using List.reverseRecOn with
  | nil => exact ⟨coherent, Later.refl id w⟩
  | append_singleton questions q ih =>
    obtain ⟨coherent', later⟩ := ih fun other mem => browse other (List.mem_append_left _ mem)
    obtain ⟨coherent'', later'⟩ := questionTold hosting charted (fetched _ coherent' later)
      (browse q (List.mem_append_right _ List.mem_cons_self))
    rw [Workspace.askedLast]
    exact ⟨coherent'', later.trans later'⟩

theorem descentWithin (hosting : Hosting xid hosts) (charted : u.Charted xid id) {t p : Declared}
    (descends : u.Descends id t p) {d e : Definition} {v : Workspace}
    (upper : Told xid u id hosts w (refetch id d) (fun w' e => Known u id w' e p))
    (lower : Told xid u id hosts v (refetch id e) (fun w' e => Known u id w' e t)) :
    ((ancestry id d).run w).1.map Definition.decoratedName ⊆
        ((ancestry id e).run v).1.map Definition.decoratedName ∧
      ∀ candidates ⊆ hosts,
        (((extensionMethods id d candidates).run w).1.map BoundMethod.source).Sublist
          (((extensionMethods id e candidates).run v).1.map BoundMethod.source) := by
  refine ⟨fun name mem => ?_, fun candidates within => ?_⟩
  · obtain ⟨-, -, met, -⟩ := ancestryOf charted upper
    obtain ⟨-, -, -, all⟩ := ancestryOf charted lower
    obtain ⟨f, listed, rfl⟩ := List.mem_map.mp mem
    obtain ⟨q, known, above⟩ := met f listed
    rw [known.decorated]
    exact all q (descends.trans above)
  · obtain ⟨-, -, names, named, listed⟩ := extensionsOf hosting charted upper within
    obtain ⟨-, -, names', named', listed'⟩ := extensionsOf hosting charted lower within
    rw [listed, listed']
    refine Workspace.extendingMore (fun q own mem => ?_) charted candidates
    exact (named' q own).mpr (descends.trans ((named q own).mp mem))

end Browsing

section Inheriting
variable {xid : Char → Bool} {u v w : Workspace} {id : ScopeId} {hosts : List Definition}
  {s t : Declared}

structure Departs (xid : Char → Bool) (u : Workspace) (id : ScopeId) (hosts : List Definition)
    (v : Workspace) (s t : Declared) : Prop where
  charted : u.Charted xid id
  fetches : Fetches u id s t
  lasting : u.lasting = v.lasting
  first : Told xid u id hosts v (refetch id (.ofDeclared s)) (fun w' e => Known u id w' e t)

theorem departsFresh (charted : w.Charted xid id)
    (found : w.findType id .deep .exact s.fullName s.arity = some t)
    (apart : ∀ p, w.Own id p → p.stamp = s.stamp → p = s) :
    Departs xid (rechosen s t w) id hosts w s t := by
  have own := (charted.found found).1
  have fetches := rechosenFetches found own apart
  obtain ⟨mainParts, aside⟩ := rechosenAside s t w
  have run : (refetch id (.ofDeclared s)).run w = (.ofDeclared t, rechosen s t w) := by
    rw [refetchRun, found, Option.elim_some]
  generalize rechosen s t w = u at fetches aside run
  have lasting : u.lasting = w.lasting := by
    rw [aside]
    rfl
  have placed : u.Charted xid id := aside ▸ charted.placed mainParts
  refine ⟨placed, fetches, lasting, ?_⟩
  unfold Told
  rw [run]
  refine ⟨placed.coherent, fun key d cached => ?_, knownOwn ?_⟩
  · rwa [aside]
  · rwa [Workspace.Own, Workspace.findTypeLasting lasting]

theorem departsAsked (hosting : Hosting xid hosts) (charted : w.Charted xid id)
    (own : w.Own id s) {earlier : List Question}
    (asked : ∀ q ∈ earlier, q.Browses w id [] hosts) :
    Departs xid w id hosts (w.asked id earlier) s s := by
  obtain ⟨coherent, -⟩ := browsedTold hosting charted (fun v coherent _ d starts => by
    obtain ⟨t, own, rfl⟩ := starts.resolve_left List.not_mem_nil
    exact ⟨t, ownFetched charted coherent own⟩) charted.coherent asked
  have fetches : Fetches w id s s :=
    ⟨own, fun p inside => charted.apart p s inside own, fun _ _ _ => ⟨rfl, rfl⟩⟩
  exact ⟨charted, fetches, coherent.lasting.symm, startTold charted fetches coherent⟩

theorem Departs.browsed (departs : Departs xid u id hosts v s t) (hosting : Hosting xid hosts)
    (browsed : v.Browsed id s hosts w) : Coherent xid u id hosts w ∧
      Later id ((ancestry id (.ofDeclared s)).run v).2 w := by
  obtain ⟨charted, fetches, lasting, first⟩ := departs
  obtain ⟨coherent, -, meets, -⟩ := ancestryOf charted first
  obtain ⟨questions, each, rfl⟩ := browsed
  refine browsedTold hosting charted (fun v' coherent' later d starts => ?_) coherent
    fun q mem => (each q mem).lasting lasting
  rcases starts with given | ⟨p, own, rfl⟩
  · rcases List.mem_cons.mp given with rfl | listed
    · exact ⟨t, startTold charted fetches coherent'⟩
    · obtain ⟨p, known, -⟩ := meets d listed
      exact ⟨p, knownFetched charted coherent' (known.later later)⟩
  · exact ⟨p, ownFetched charted coherent' own⟩

/-- In a graph that was loaded before anything is asked: a definition that the walk over a stored
type meets leads to no name that the walk over the type does not meet, and every extension method
that is listed for it is listed for the type, among the same candidates and in the same order. Walks
and searches may come before and in between; before the first walk over a type that stands behind
another one of its name they may not, since fetching it chooses the fragment of record there. -/
theorem extensionsInherited (events : List Event) (loading : ∀ e ∈ events, e.loads = true)
    (loaded : w = (Session.run events).workspace) (opened : id < w.scopes.length)
    (written : w.WellWritten xid id) (hosting : Hosting xid hosts) {home : ScopeId}
    (reached : home ∈ w.consulted id .deep) (stored : s ∈ (w.store home).allTypes)
    {earlier : List Question} (asked : ∀ q ∈ earlier, q.Browses w id [] hosts)
    (still : earlier = [] ∨ w.Own id s) (here : v = w.asked id earlier) {r : Definition}
    (met : r ∈ ((ancestry id (.ofDeclared s)).run v).1) {before beforeToo : Workspace}
    (browsed : v.Browsed id s hosts before)
    (browsedToo : beforeToo = v ∨ v.Browsed id s hosts beforeToo) :
    ((ancestry id r).run before).1.map Definition.decoratedName ⊆
        ((ancestry id (.ofDeclared s)).run beforeToo).1.map Definition.decoratedName ∧
      ∀ candidates ⊆ hosts,
        (((extensionMethods id r candidates).run before).1.map BoundMethod.source).Sublist
          (((extensionMethods id (.ofDeclared s) candidates).run beforeToo).1.map
            BoundMethod.source) := by
  have charted := written.charted loading loaded opened
  have stores : w.Stores Store.Sound := loaded ▸ Session.storesSound events
  have sound := stores.at Store.soundEmpty home
  obtain ⟨-, -, minted, -⟩ := Session.minted loading
  rw [← loaded] at minted
  obtain ⟨t, found⟩ : ∃ t, w.findType id .deep .exact s.fullName s.arity = some t := by
    have stands := (minted.at (Store.mintedEmpty _ _) home).finds sound stored
    refine Option.isSome_iff_exists.mp (List.findSome?_isSome_iff.mpr ⟨home, reached, ?_⟩)
    rw [Store.lookupExact, stands]
    rfl
  have apart : ∀ p, w.Own id p → p.stamp = s.stamp → p = s := fun p inside same => by
    obtain ⟨i, -, listed⟩ := inside.candidate
    exact Workspace.storedOnce loading loaded listed (sound.stored stored) same
  obtain ⟨u, t, departs⟩ : ∃ u t, Departs xid u id hosts v s t := by
    rw [here]
    rcases still with rfl | own
    · exact ⟨_, t, departsFresh charted found apart⟩
    · exact ⟨w, s, departsAsked hosting charted own asked⟩
  obtain ⟨coherent, later⟩ := departs.browsed hosting browsed
  obtain ⟨-, -, meets, -⟩ := ancestryOf departs.charted departs.first
  obtain ⟨p, known, descends⟩ := meets r met
  refine descentWithin hosting departs.charted descends
    (knownFetched departs.charted coherent (known.later later)) ?_
  rcases browsedToo with rfl | browsedToo
  · exact departs.first
  · exact startTold departs.charted departs.fetches (departs.browsed hosting browsedToo).1

end Inheriting

section Examples

def writtenTypes (file : Nat) (types : List Blueprint) : Source := ⟨⟨file⟩, "", [], types⟩

def inheriting (name : String) (parameters : List String) (base : Option TypeRef)
    (interfaces : List TypeRef) : Blueprint :=
  { Blueprint.bare name .classType with
    typeParameters := parameters.map (⟨·, []⟩)
    base := base
    interfaces := interfaces }

def greeting (receiver : TypeRef) : Blueprint :=
  { Blueprint.bare "Ext" .classType with
    members := [{ (Member.method "Greet").asExtension with
      parameters := [⟨"value", receiver, ⟨0⟩⟩] }] }

def boxOf (name : String) : TypeRef := TypeRef.generic "Box" [TypeRef.named name]

def boxExtensions : List Event :=
  [.opens "app", .opens "lib",
    .writes (writtenTypes 0 [inheriting "Root" [] none [],
      inheriting "Box" ["T"] (some (TypeRef.named "Root")) []]), .ingests 1 0,
    .writes (writtenTypes 1 [inheriting "Item" [] (some (boxOf "Root")) [],
      greeting (TypeRef.named "Root")]), .ingests 0 1, .refers 0 [1]]

def boxesExtended : Workspace := (Session.run boxExtensions).workspace

theorem Workspace.Own.listed {w : Workspace} {id : ScopeId} {t : Declared} (own : w.Own id t) :
    ∃ i ∈ w.consulted id .deep, t ∈ (w.store i).allTypes :=
  own.candidate.imp fun _ ⟨reached, listed⟩ => ⟨reached, Store.candidatesMem listed⟩

theorem boxesWritten : boxesExtended.WellWritten Text.isIdentifierChar 0 where
  separate _ mark := Text.marksSeparate mark
  names t own := by
    have each : ∀ i ∈ boxesExtended.consulted 0 .deep, ∀ t ∈ (boxesExtended.store i).allTypes,
        Segmented Text.isIdentifierChar t.fullName := by decide +kernel
    obtain ⟨i, reached, listed⟩ := own.listed
    exact each i reached t listed
  bases t own := by
    have named : ∀ i ∈ boxesExtended.consulted 0 .deep, ∀ t ∈ (boxesExtended.store i).allTypes,
        ∀ base ∈ t.body.bases, ∀ a ∈ base.arguments,
          Identifier Text.isIdentifierChar (a.bareName?.getD "") := by decide +kernel
    have written : ∀ i ∈ boxesExtended.consulted 0 .deep, ∀ t ∈ (boxesExtended.store i).allTypes,
        ∀ base ∈ t.body.bases, base.marks.ranks = [] ∧ base.outer.length = 0 ∧
          base.link = none ∧ ∀ p ∈ t.body.typeParameters, base.bareName? ≠ some p.name := by
      decide +kernel
    obtain ⟨i, reached, listed⟩ := own.listed
    exact fun base mem => TypeRef.fitBare (written i reached t listed base mem)
      (named i reached t listed base mem)
  resolved t own := by
    have each : ∀ i ∈ boxesExtended.consulted 0 .deep, ∀ t ∈ (boxesExtended.store i).allTypes,
        ∀ base ∈ t.body.bases.zipIdx,
          ∀ d ∈ ((resolveBase 0 (.ofDeclared t) base.2 base.1).run boxesExtended).1,
            d.placeholder? = none := by decide +kernel
    obtain ⟨i, reached, listed⟩ := own.listed
    exact each i reached t listed
  aliases := by
    have none_ : ∀ unit ∈ (boxesExtended.store 0).units.values, unit.usings.length = 0 := by
      decide +kernel
    intro unit mem usings written
    rw [List.length_eq_zero_iff.mp (none_ unit mem)] at written
    cases written

theorem hostingBare {xid : Char → Bool} {c : Definition}
    (written : ∀ m ∈ c.body.members, ∀ this ∈ m.receiver?, this.marks.ranks = [] ∧
      this.outer.length = 0 ∧ this.arguments.length = 0 ∧ this.link = none) :
    Hosting xid [c] := by
  refine ⟨fun d mem e memToo _ => ?_, fun d mem m inside this receives => ?_⟩
  · rw [List.mem_singleton.mp mem, List.mem_singleton.mp memToo]
  · rw [List.mem_singleton.mp mem] at inside
    obtain ⟨ranks, outer, arguments, link⟩ := written m inside this receives
    refine ⟨ranks, fun p part => ?_, fun a given => ?_, link⟩
    · rw [List.length_eq_zero_iff.mp outer] at part
      cases part
    · rw [List.length_eq_zero_iff.mp arguments] at given
      cases given

theorem extensionsInheritedBoxed : ∃ item ∈ (boxesExtended.store 0).allTypes,
    ∃ ext ∈ (boxesExtended.store 0).allTypes,
    ∃ box ∈ ((ancestry 0 (.ofDeclared item)).run boxesExtended).1,
      item.decoratedName = "Item" ∧ box.decoratedName = "Box\x601" ∧ box.isBound = true ∧
      (((extensionMethods 0 box [.ofDeclared ext]).run
          (Question.after 0 boxesExtended (.ancestry (.ofDeclared item)))).1.map
            BoundMethod.source).Sublist
        (((extensionMethods 0 (.ofDeclared item) [.ofDeclared ext]).run boxesExtended).1.map
            BoundMethod.source) ∧
      ((extensionMethods 0 box [.ofDeclared ext]).run
        (Question.after 0 boxesExtended (.ancestry (.ofDeclared item)))).1.map BoundMethod.name =
          ["Greet"] := by
  have item := @List.getElem_mem _ (boxesExtended.store 0).allTypes 0 (by decide +kernel)
  have ext := @List.getElem_mem _ (boxesExtended.store 0).allTypes 1 (by decide +kernel)
  have box := @List.getElem_mem _ ((ancestry 0 (.ofDeclared
    (boxesExtended.store 0).allTypes[0])).run boxesExtended).1 1 (by decide +kernel)
  have hosting : Hosting Text.isIdentifierChar
      [.ofDeclared (boxesExtended.store 0).allTypes[1]] := hostingBare (by decide +kernel)
  refine ⟨_, item, _, ext, _, box, by decide +kernel, by decide +kernel, by decide +kernel, ?_,
    by decide +kernel⟩
  have reached : 0 ∈ boxesExtended.consulted 0 .deep := by decide +kernel
  have walked : boxesExtended.Browsed 0 (boxesExtended.store 0).allTypes[0]
      [.ofDeclared (boxesExtended.store 0).allTypes[1]]
      (Question.after 0 boxesExtended (.ancestry (.ofDeclared
        (boxesExtended.store 0).allTypes[0]))) :=
    Exists.intro [] (And.intro (fun q never => by cases never) rfl)
  have inherited := extensionsInherited boxExtensions (by decide) rfl (by decide +kernel)
    boxesWritten hosting reached item (fun q never => absurd never List.not_mem_nil) (.inl rfl) rfl
    box walked (.inl rfl)
  exact inherited.2 _ (List.Subset.refl _)

def Workspace.Unranked (w : Workspace) (id : ScopeId) (t : Declared) : Prop :=
  (∀ base ∈ t.body.bases, base.marks.ranks = [] ∧ ∀ p ∈ base.outer, p.arguments.length = 0) ∧
  (∀ base ∈ t.body.bases.zipIdx,
    ∀ d ∈ ((resolveBase id (.ofDeclared t) base.2 base.1).run w).1, d.placeholder? = none) ∧
  ∀ m ∈ t.body.members, ∀ this ∈ m.receiver?,
    this.marks.ranks = [] ∧ ∀ p ∈ this.outer, p.arguments.length = 0

instance (w : Workspace) (id : ScopeId) (t : Declared) : Decidable (w.Unranked id t) :=
  inferInstanceAs (Decidable (_ ∧ _ ∧ _))

def strayExtensions : Workspace :=
  (Session.run [.opens "app", .writes (writtenTypes 0 [inheriting "T" [] none [],
    inheriting "X" [] none [], inheriting "Y" [] none [],
    inheriting "Box" ["T"] (some (TypeRef.named "T")) [],
    inheriting "Q" [] (some (boxOf "X")) [],
    inheriting "S" [] (some (TypeRef.named "Q")) [boxOf "Y"],
    greeting (TypeRef.named "X")]), .ingests 0 0]).workspace

theorem extensionsStray : ∃ s ∈ (strayExtensions.store 0).allTypes,
    ∃ ext ∈ (strayExtensions.store 0).allTypes,
    ∃ r ∈ ((ancestry 0 (.ofDeclared s)).run strayExtensions).1,
      strayExtensions.Untouched ∧ (strayExtensions.scope 0).references = [] ∧
      (∀ t ∈ (strayExtensions.store 0).allTypes, Segmented Text.isIdentifierChar t.fullName ∧
        strayExtensions.Unranked 0 t) ∧
      let walked := Question.after 0 strayExtensions (.ancestry (.ofDeclared s))
      ((extensionMethods 0 r [.ofDeclared ext]).run walked).1.map BoundMethod.name = ["Greet"] ∧
      ((extensionMethods 0 (.ofDeclared s) [.ofDeclared ext]).run walked).1.map
        BoundMethod.name = [] := by
  have untouched : strayExtensions.Untouched := Session.untouched (by decide)
  have s := @List.getElem_mem _ (strayExtensions.store 0).allTypes 5 (by decide +kernel)
  have ext := @List.getElem_mem _ (strayExtensions.store 0).allTypes 6 (by decide +kernel)
  have r := @List.getElem_mem _ ((ancestry 0 (.ofDeclared
    (strayExtensions.store 0).allTypes[5])).run strayExtensions).1 3 (by decide +kernel)
  exact ⟨_, s, _, ext, _, r, untouched, rfl, by decide +kernel, by decide +kernel,
    by decide +kernel⟩

def collidingExtensions : Workspace :=
  (Session.run [.opens "app", .writes (writtenTypes 0 [inheriting "Y" [] none [],
    inheriting "Base" ["T"] none [], inheriting "Base" ["T", "U"] none [],
    inheriting "Box" ["T"] (some (TypeRef.generic "Base" [TypeRef.named "T"])) [],
    inheriting "Q" [] (some (boxOf "A,B.C")) [],
    inheriting "S" [] (some (TypeRef.named "Q")) [boxOf "Y"],
    greeting (TypeRef.generic "Base" [TypeRef.named "A", TypeRef.named "B.C"])]),
    .ingests 0 0]).workspace

theorem extensionsCollide : ∃ s ∈ (collidingExtensions.store 0).allTypes,
    ∃ ext ∈ (collidingExtensions.store 0).allTypes,
    ∃ r ∈ ((ancestry 0 (.ofDeclared s)).run collidingExtensions).1,
      let listed := (extensionMethods 0 (.ofDeclared s) [.ofDeclared ext]).run collidingExtensions
      listed.1.map BoundMethod.name = [] ∧
      ((extensionMethods 0 r [.ofDeclared ext]).run listed.2).1.map BoundMethod.name =
        ["Greet"] := by
  have s := @List.getElem_mem _ (collidingExtensions.store 0).allTypes 5 (by decide +kernel)
  have ext := @List.getElem_mem _ (collidingExtensions.store 0).allTypes 6 (by decide +kernel)
  have r := @List.getElem_mem _ ((ancestry 0 (.ofDeclared
    (collidingExtensions.store 0).allTypes[5])).run collidingExtensions).1 3 (by decide +kernel)
  exact ⟨_, s, _, ext, _, r, by decide +kernel, by decide +kernel⟩

end Examples
end TypeScope
