import TypeScope.Namespaces
import TypeScope.Proofs.Priority
import TypeScope.Proofs.PrivateMembers

/-! What is directly inside a namespace. The listing cuts full names off behind the namespace, the
test for a namespace looks at the namespaces of types; both come to the namespace of a type and its
simple name, which has no dot. -/
namespace TypeScope

namespace Dotted
variable {ns name outer inner : String}

theorem joinChars (outer inner : String) : (join outer inner).toList =
    if outer = "" then inner.toList else outer.toList ++ '.' :: inner.toList := by
  rw [join]
  split <;> simp

theorem joinBehind (outer inner tail : String) :
    join outer (inner ++ "." ++ tail) = join outer inner ++ "." ++ tail := by
  rw [join, join]
  split <;> simp [String.append_assoc]

theorem joinUnique (simple : '.' ∉ name.toList) (simple' : '.' ∉ inner.toList)
    (same : join ns name = join outer inner) : ns = outer ∧ name = inner := by
  have chars := congrArg String.toList same
  rw [joinChars, joinChars] at chars
  by_cases top : ns = "" <;> by_cases top' : outer = ""
  · simp only [top, top', if_true] at chars
    exact ⟨top.trans top'.symm, String.toList_inj.mp chars⟩
  · rw [if_pos top, if_neg top'] at chars
    exact absurd (chars ▸ List.mem_append_right _ List.mem_cons_self) simple
  · rw [if_neg top, if_pos top'] at chars
    exact absurd (chars ▸ List.mem_append_right _ List.mem_cons_self) simple'
  · rw [if_neg top, if_neg top'] at chars
    obtain ⟨spaces, names⟩ := lastDotUnique simple simple' chars
    exact ⟨String.toList_inj.mp spaces, String.toList_inj.mp names⟩

theorem afterDot {rest : String} : after? "." name = some rest ↔ name = "." ++ rest := by
  have behind : ∀ tail : String, ("." ++ tail).toList.drop ".".length = tail.toList := by
    intro tail
    rw [String.toList_append]
    rfl
  rw [after?]
  constructor
  · intro follows
    split at follows <;> try contradiction
    rename_i starts_
    obtain ⟨tail, whole⟩ := List.isPrefixOf_iff_prefix.mp starts_
    have named : name = "." ++ String.ofList tail :=
      String.toList_injective (by rw [← whole]; simp)
    obtain rfl := Option.some.inj follows
    rw [named, behind, String.ofList_toList]
  · rintro rfl
    rw [if_pos (by simp), behind, String.ofList_toList]

theorem belowAfter : isBelow name outer = true ↔ ∃ tail, name = outer ++ "." ++ tail := by
  rw [belowIff]
  constructor
  · rintro ⟨rest, whole⟩
    exact ⟨String.ofList rest, String.toList_injective (by simp [whole])⟩
  · rintro ⟨tail, rfl⟩
    exact ⟨tail.toList, by simp⟩

theorem segmentsSimple (simple : '.' ∉ name.toList) : segments name = [name] := by
  rw [segments, piecesSimple simple, List.map_singleton, String.ofList_toList]

theorem segmentsCut (simple : '.' ∉ name.toList) (tail : String) :
    segments (name ++ "." ++ tail) = name :: segments tail := by
  have cut : (name ++ "." ++ tail).toList = name.toList ++ '.' :: tail.toList := by simp
  rw [segments, cut, piecesAppend, piecesSimple simple]
  simp [segments]

theorem segmentsNonempty (name : String) : segments name ≠ [] := by
  simp [segments, piecesNonempty]

theorem firstDot (name : String) : '.' ∉ name.toList ∨
    ∃ first tail, '.' ∉ first.toList ∧ name = first ++ "." ++ tail := by
  by_cases dotted : '.' ∈ name.toList
  · obtain ⟨first, tail, whole, simple⟩ := List.eq_append_cons_of_mem dotted
    refine .inr ⟨String.ofList first, String.ofList tail, by simpa using simple, ?_⟩
    exact String.toList_injective (by simp [whole])
  · exact .inl dotted

theorem belowSpace (simple : '.' ∉ name.toList) : isBelow (join ns name) outer = true ↔
    ns ≠ "" ∧ (ns = outer ∨ isBelow ns outer = true) := by
  rw [join]
  split
  · rename_i top
    rw [belowSimple simple]
    simp [top]
  · rename_i some_
    exact ⟨fun below => ⟨some_, belowCut simple below⟩, fun within => belowJoined within.2⟩

end Dotted

namespace NamespaceEntry

theorem spaceKey {s : String} {d : Declared} : (space s).key ≠ (type d).key := by
  intro same
  have chars := congrArg String.toList same
  simp [key] at chars

theorem spaceUnique {s s' : String} (same : (space s).key = (space s').key) : s = s' := by
  simpa [key] using same

theorem typeUnique {d d' : Declared} (same : (type d).key = (type d').key) :
    d.decoratedName = d'.decoratedName := by
  simpa [key] using same

end NamespaceEntry

namespace Workspace

theorem firstByKeyNodup (entries : List NamespaceEntry) :
    ((firstByKey entries).map NamespaceEntry.key).Nodup := by
  induction entries with
  | nil => exact List.nodup_nil
  | cons e rest ih =>
    rw [firstByKey, List.map_cons, List.nodup_cons]
    refine ⟨fun again => ?_, ih.sublist (List.filter_sublist.map _)⟩
    obtain ⟨later, listed, same⟩ := List.mem_map.mp again
    simpa [same] using (List.mem_filter.mp listed).2

theorem memFirstByKey {entries : List NamespaceEntry}
    (apart : ∀ e ∈ entries, ∀ f ∈ entries, e.key = f.key → e = f) {e : NamespaceEntry} :
    e ∈ firstByKey entries ↔ e ∈ entries := by
  induction entries with
  | nil => rfl
  | cons first rest ih =>
    have inner := ih fun e mem f memToo =>
      apart e (List.mem_cons_of_mem _ mem) f (List.mem_cons_of_mem _ memToo)
    rw [firstByKey, List.mem_cons, List.mem_cons, List.mem_filter, inner]
    constructor
    · exact Or.imp_right And.left
    · rintro (same | later)
      · exact .inl same
      · by_cases same : e.key = first.key
        · exact .inl (apart e (List.mem_cons_of_mem _ later) first List.mem_cons_self same)
        · exact .inr ⟨later, by simpa using same⟩

theorem firstByKeyEmpty {entries : List NamespaceEntry} : firstByKey entries = [] ↔ entries = [] := by
  cases entries <;> simp [firstByKey]

end Workspace

namespace Store
variable {d t : Declared} {ns s : String}

theorem restExact {fullName rest : String} :
    restBelow .exact ns fullName = some rest ↔ fullName = Dotted.join ns rest := by
  simp only [restBelow, Option.bind_eq_some_iff, Name.afterExact, Dotted.join]
  by_cases top : ns = ""
  · simp [top]
  · simp [top, Dotted.afterDot, String.append_assoc]

theorem entryExact {e : NamespaceEntry} : entryIn .exact d ns = some e ↔
    (∃ rest, '.' ∉ rest.toList ∧ d.fullName = Dotted.join ns rest ∧ e = .type d) ∨
      ∃ first tail, '.' ∉ first.toList ∧ e = .space first ∧
        d.fullName = Dotted.join ns (first ++ "." ++ tail) := by
  simp only [entryIn, Option.map_eq_some_iff, restExact]
  constructor
  · rintro ⟨rest, whole, rfl⟩
    rcases Dotted.firstDot rest with simple | ⟨first, tail, simple, rfl⟩
    · exact .inl ⟨rest, simple, whole, by rw [Dotted.segmentsSimple simple]⟩
    · refine .inr ⟨first, tail, simple, ?_, whole⟩
      obtain ⟨next, later, more⟩ := List.exists_cons_of_ne_nil (Dotted.segmentsNonempty tail)
      rw [Dotted.segmentsCut simple, more]
  · rintro (⟨rest, simple, whole, rfl⟩ | ⟨first, tail, simple, rfl, whole⟩)
    · exact ⟨rest, whole, by rw [Dotted.segmentsSimple simple]⟩
    · obtain ⟨next, later, more⟩ := List.exists_cons_of_ne_nil (Dotted.segmentsNonempty tail)
      exact ⟨_, whole, by rw [Dotted.segmentsCut simple, more]⟩

section Placed
variable (top : d.fullName = Dotted.join d.ns d.name) (simple : '.' ∉ d.name.toList)
include top simple

theorem typeEntry : entryIn .exact d ns = some (.type t) ↔ t = d ∧ d.ns = ns := by
  rw [entryExact, top]
  constructor
  · rintro (⟨rest, simple', whole, same⟩ | ⟨_, _, _, other, _⟩)
    · cases same
      exact ⟨rfl, (Dotted.joinUnique simple simple' whole).1⟩
    · cases other
  · rintro ⟨rfl, rfl⟩
    exact .inl ⟨t.name, simple, rfl, rfl⟩

theorem spaceEntry : entryIn .exact d ns = some (.space s) ↔ '.' ∉ s.toList ∧ d.ns ≠ "" ∧
    (d.ns = Dotted.join ns s ∨ Dotted.isBelow d.ns (Dotted.join ns s) = true) := by
  rw [← Dotted.belowSpace simple, ← top, Dotted.belowAfter, entryExact]
  simp only [Dotted.joinBehind]
  constructor
  · rintro (⟨_, _, _, other⟩ | ⟨first, tail, simple', same, whole⟩)
    · cases other
    · cases same
      exact ⟨simple', tail, whole⟩
  · rintro ⟨simple', tail, whole⟩
    exact .inr ⟨s, tail, simple', rfl, whole⟩

theorem entryShown : (entryIn .exact d ns).isSome = (ns == "" || Name.same .exact d.ns ns ||
    ((Name.after? .exact ns d.ns).bind (Dotted.after? ".")).isSome) := by
  have below : ((Name.after? .exact ns d.ns).bind (Dotted.after? ".")).isSome = true ↔
      Dotted.isBelow d.ns ns = true := by
    simp only [Option.isSome_iff_exists, Option.bind_eq_some_iff, Name.afterExact, Dotted.afterDot,
      Dotted.belowAfter]
    exact ⟨fun ⟨tail, _, whole, same⟩ => ⟨tail, by rw [whole, same, String.append_assoc]⟩,
      fun ⟨tail, whole⟩ => ⟨tail, _, by rw [whole, String.append_assoc], rfl⟩⟩
  have shown : (entryIn .exact d ns).isSome = true ↔
      ∃ rest, d.fullName = Dotted.join ns rest := by
    simp only [entryIn, Option.isSome_map, Option.isSome_iff_exists, restExact]
  rw [Bool.eq_iff_iff, shown, Bool.or_eq_true, Bool.or_eq_true, below, beq_iff_eq, Name.sameExact]
  by_cases root : ns = ""
  · simp [root, Dotted.join]
  · have full : (∃ rest, d.fullName = Dotted.join ns rest) ↔
        Dotted.isBelow d.fullName ns = true := by
      simp [Dotted.join, root, Dotted.belowAfter]
    have named : d.ns = ns ∨ Dotted.isBelow d.ns ns = true → d.ns ≠ "" := by
      rintro (same | inside) empty
      · exact root (same.symm.trans empty)
      · rw [empty, Dotted.belowSimple (by simp)] at inside
        cases inside
    rw [full, top, Dotted.belowSpace simple]
    simp only [root, false_or]
    exact ⟨And.right, fun within => ⟨named within, within⟩⟩

end Placed

theorem memEntries {store : Store} {namespaces : List String} {e : NamespaceEntry} :
    e ∈ store.entriesIn .exact namespaces ↔
      ∃ d ∈ store.topLevel, ∃ ns ∈ namespaces, entryIn .exact d ns = some e := by
  simp [entriesIn]

structure TopNamed (store : Store) : Prop where
  named : ∀ d ∈ store.topLevel, d.fullName = Dotted.join d.ns d.name
  simple : ∀ d ∈ store.topLevel, '.' ∉ d.name.toList
  once : ∀ d ∈ store.topLevel, ∀ d' ∈ store.topLevel, d.fullName = d'.fullName →
    d.arity = d'.arity → d = d'

theorem TopNamed.entriesShown {store : Store} (top : store.TopNamed) :
    store.hasNamespace .exact ns = true ↔ store.entriesIn .exact [ns] ≠ [] := by
  rw [hasNamespace, List.any_eq_true]
  constructor
  · rintro ⟨d, mem, shown⟩
    rw [← entryShown (top.named d mem) (top.simple d mem)] at shown
    obtain ⟨e, made⟩ := Option.isSome_iff_exists.mp shown
    exact List.ne_nil_of_mem (memEntries.mpr ⟨d, mem, ns, List.mem_singleton_self ns, made⟩)
  · intro some_
    obtain ⟨e, listed⟩ := List.exists_mem_of_ne_nil _ some_
    obtain ⟨d, mem, _, only, made⟩ := memEntries.mp listed
    rw [List.mem_singleton.mp only] at made
    refine ⟨d, mem, ?_⟩
    rw [← entryShown (top.named d mem) (top.simple d mem), made]
    rfl

theorem topNamed {t : Declared} (outermost : t.body.outer = none) :
    t.fullName = Dotted.join t.ns t.name := by
  rw [Declared.fullName, Body.fullName, outermost]
  rfl

theorem memTopLevel {store : Store} {t : Declared} :
    t ∈ store.topLevel ↔ t ∈ store.allTypes ∧ t.body.outer = none := by
  rw [topLevel, List.mem_filter, Option.isNone_iff_eq_none]

theorem Reflects.identifies {units : List CompilationUnit} {store : Store} (reflects : Reflects units store)
    (sound : store.Sound) {t t' : Declared} (mem : t ∈ store.allTypes) (mem' : t' ∈ store.allTypes)
    (name : t.fullName = t'.fullName) (arity : t.arity = t'.arity) : t = t' := by
  obtain ⟨stamp, fragments, -, united⟩ := reflects.candidates t.fullName
  have arities : ((store.candidates t.fullName).map Declared.arity).Nodup := by
    rw [united, (uniteByArityGroups stamp fragments).1]
    exact distinctNodup _
  exact List.inj_on_of_nodup_map arities (sound.stored mem) (name ▸ sound.stored mem') arity

end Store

theorem decorateJoin (ns name : String) (arity : Nat) :
    Arity.decorate (Dotted.join ns name) arity = Dotted.join ns (Arity.decorate name arity) := by
  rw [Arity.decorate, Arity.decorate, Dotted.join, Dotted.join]
  split <;> split <;> simp [String.append_assoc]

theorem decoratedUnique {ns ns' name name' : String} (simple : '.' ∉ name.toList)
    (simple' : '.' ∉ name'.toList) (plain : Arity.mark ∉ name.toList)
    (plain' : Arity.mark ∉ name'.toList) {arity arity' : Nat}
    (same : Arity.decorate (Dotted.join ns name) arity =
      Arity.decorate (Dotted.join ns' name') arity') :
    Dotted.join ns name = Dotted.join ns' name' ∧ arity = arity' := by
  rw [decorateJoin, decorateJoin] at same
  obtain ⟨rfl, names⟩ :=
    Dotted.joinUnique (decorateSimple simple arity) (decorateSimple simple' arity') same
  obtain ⟨rfl, counts⟩ := decorateUnique plain plain' names
  exact ⟨rfl, counts⟩

namespace Workspace

theorem topLevelNamed (events : List Event) (id : ScopeId) :
    ((Session.run events).workspace.store id).TopNamed := by
  have sound : ((Session.run events).workspace.store id).Sound :=
    (Session.storesSound events).at Store.soundEmpty id
  obtain ⟨units, placed, reflects⟩ := (Session.placed events).stores.at Store.writtenEmpty id
  refine ⟨fun d mem => ?_, fun d mem => ?_, fun d mem d' mem' name arity => ?_⟩
  · exact Store.topNamed (Store.memTopLevel.mp mem).2
  · exact Store.storedSimple reflects sound placed (Store.memTopLevel.mp mem).1
  · exact reflects.identifies sound (Store.memTopLevel.mp mem).1 (Store.memTopLevel.mp mem').1 name
      arity

theorem contentsAlone (w : Workspace) (id : ScopeId) (namespaces : List String) :
    w.namespaceContents id .exact false namespaces =
      firstByKey ((w.store id).entriesIn .exact (distinct namespaces)) := by
  simp [namespaceContents, withDirect]

theorem existsAlone (w : Workspace) (id : ScopeId) (ns : String) :
    w.namespaceExists id .shallow .exact ns = (w.store id).hasNamespace .exact ns := by
  simp [namespaceExists, consulted]

theorem entriesApart {store : Store} (top : store.TopNamed)
    (plain : ∀ d ∈ store.topLevel, Arity.mark ∉ d.name.toList) (namespaces : List String) :
    ∀ e ∈ store.entriesIn .exact namespaces, ∀ f ∈ store.entriesIn .exact namespaces,
      e.key = f.key → e = f := by
  intro e listed f listed' same
  obtain ⟨d, mem, ns, -, made⟩ := Store.memEntries.mp listed
  obtain ⟨d', mem', ns', -, made'⟩ := Store.memEntries.mp listed'
  cases e with
  | space s =>
    cases f with
    | space s' => rw [NamespaceEntry.spaceUnique same]
    | type t' => exact absurd same NamespaceEntry.spaceKey
  | type t =>
    cases f with
    | space s' => exact absurd same.symm NamespaceEntry.spaceKey
    | type t' =>
      obtain ⟨rfl, -⟩ := (Store.typeEntry (top.named d mem) (top.simple d mem)).mp made
      obtain ⟨rfl, -⟩ := (Store.typeEntry (top.named d' mem') (top.simple d' mem')).mp made'
      have decorated := NamespaceEntry.typeUnique same
      rw [Declared.decoratedName, Declared.decoratedName, top.named t mem, top.named t' mem']
        at decorated
      obtain ⟨names, arity⟩ := decoratedUnique (top.simple t mem) (top.simple t' mem')
        (plain t mem) (plain t' mem') decorated
      rw [← top.named t mem, ← top.named t' mem'] at names
      rw [top.once t mem t' mem' names arity]

/-- In any session, as long as no simple name of a top-level type has an arity mark in it: listed are
the top-level types in one of the namespaces, and the simple names under which the namespace of some
top-level type goes on from one of them; nothing is listed twice; and a namespace exists exactly if
something is listed in it. -/
theorem namespaceListed (events : List Event) (id : ScopeId)
    (plain : ∀ d ∈ ((Session.run events).workspace.store id).topLevel,
      Arity.mark ∉ d.name.toList) (namespaces : List String) :
    let w := (Session.run events).workspace
    let listing := w.namespaceContents id .exact false
    (∀ t, .type t ∈ listing namespaces ↔ t ∈ (w.store id).topLevel ∧ t.ns ∈ namespaces) ∧
      (∀ s, .space s ∈ listing namespaces ↔ '.' ∉ s.toList ∧ ∃ ns ∈ namespaces,
        ∃ d ∈ (w.store id).topLevel, d.ns ≠ "" ∧
          (d.ns = Dotted.join ns s ∨ Dotted.isBelow d.ns (Dotted.join ns s) = true)) ∧
      ((listing namespaces).map NamespaceEntry.key).Nodup ∧
      ∀ ns, w.namespaceExists id .shallow .exact ns = true ↔ listing [ns] ≠ [] := by
  intro w listing
  have top := topLevelNamed events id
  have shown : ∀ namespaces, listing namespaces =
      firstByKey ((w.store id).entriesIn .exact (distinct namespaces)) := contentsAlone w id
  have listed : ∀ e, e ∈ listing namespaces ↔ ∃ d ∈ (w.store id).topLevel, ∃ ns ∈ namespaces,
      Store.entryIn .exact d ns = some e := by
    intro e
    rw [shown, memFirstByKey (entriesApart top plain _), Store.memEntries]
    simp only [memDistinct]
    rfl
  refine ⟨fun t => ?_, fun s => ?_, ?_, fun ns => ?_⟩
  · rw [listed]
    constructor
    · rintro ⟨d, mem, ns, given, made⟩
      obtain ⟨rfl, rfl⟩ := (Store.typeEntry (top.named d mem) (top.simple d mem)).mp made
      exact ⟨mem, given⟩
    · rintro ⟨mem, given⟩
      exact ⟨t, mem, _, given, (Store.typeEntry (top.named t mem) (top.simple t mem)).mpr ⟨rfl, rfl⟩⟩
  · rw [listed]
    constructor
    · rintro ⟨d, mem, ns, given, made⟩
      obtain ⟨single, within⟩ := (Store.spaceEntry (top.named d mem) (top.simple d mem)).mp made
      exact ⟨single, ns, given, d, mem, within⟩
    · rintro ⟨single, ns, given, d, mem, within⟩
      exact ⟨d, mem, ns, given,
        (Store.spaceEntry (top.named d mem) (top.simple d mem)).mpr ⟨single, within⟩⟩
  · rw [shown]
    exact firstByKeyNodup _
  · have single : distinct [ns] = [ns] := by simp [distinct]
    rw [existsAlone, top.entriesShown, shown, single, ne_eq, ne_eq,
      firstByKeyEmpty]

def coreLoading : List Event :=
  [.opens "app",
    .writes ⟨⟨0⟩, "Core.cs", [], [Blueprint.bare "Root" .classType,
      Blueprint.bare "App.Item" .classType, Blueprint.bare "App.Core.Item" .classType,
      Blueprint.bare "App.Core.Deep.Item" .classType]⟩,
    .ingests 0 0]

def cores : Workspace := (Session.run coreLoading).workspace

theorem namespaceListedCore :
    .space "Core" ∈ cores.namespaceContents 0 .exact false ["App", "App.Core", "App"] ∧
      .space "Co" ∉ cores.namespaceContents 0 .exact false ["App", "App.Core", "App"] ∧
      ((cores.namespaceContents 0 .exact false ["App", "App.Core", "App"]).map
        NamespaceEntry.key).Nodup ∧
      (cores.namespaceExists 0 .shallow .exact "App.Co" = true ↔
        cores.namespaceContents 0 .exact false ["App.Co"] ≠ []) := by
  have plain : ∀ d ∈ (cores.store 0).topLevel, Arity.mark ∉ d.name.toList := by decide +kernel
  obtain ⟨-, spaces, once, shown⟩ :=
    namespaceListed coreLoading 0 plain ["App", "App.Core", "App"]
  refine ⟨(spaces "Core").mpr ⟨by decide +kernel, "App", by simp, ?_⟩, fun listed => ?_, once,
    shown "App.Co"⟩
  · have there : (cores.store 0).topLevel.any (fun d => d.ns = "App.Core") = true := by
      decide +kernel
    obtain ⟨d, mem, named⟩ := List.any_eq_true.mp there
    have named := of_decide_eq_true named
    exact ⟨d, mem, by rw [named]; decide, .inl named⟩
  · obtain ⟨-, within⟩ := (spaces "Co").mp listed
    revert within
    decide +kernel

end Workspace
end TypeScope
