import TypeScope.Proofs.Mentions
import TypeScope.Proofs.Sessions

/-! Stamps tell stored types apart. The types of a unit have the tick at which it was written and
different paths; a united type has the tick of the update that united it. Ticks are never used
again. -/
namespace TypeScope

section Built
open Blueprint

mutual
theorem buildInStamp (file : Option FileId) (around : Option Around) (stamp : Stamp)
    (b : Blueprint) :
    (∀ d ∈ (buildIn file around stamp b).preorder,
      ∃ more, d.stamp = ⟨stamp.tick, stamp.path ++ more⟩) ∧
      ((buildIn file around stamp b).preorder.map Declared.stamp).Nodup := by
  obtain ⟨fullName, kind, modifiers, parameters, base, interfaces, members, nested, location⟩ := b
  have inner := fun around => buildAllStamp file around stamp 0 nested
  rw [buildIn, Declared.preorder]
  refine ⟨fun d mem => ?_, ?_⟩
  · rcases List.mem_cons.mp mem with rfl | below
    · exact ⟨[], by rw [List.append_nil]⟩
    · obtain ⟨j, -, more, same⟩ := (inner _).1 d below
      exact ⟨j :: more, same⟩
  · rw [List.map_cons]
    refine List.nodup_cons.mpr ⟨fun again => ?_, (inner _).2⟩
    obtain ⟨d, below, same⟩ := List.mem_map.mp again
    obtain ⟨j, -, more, stamped⟩ := (inner _).1 d below
    rw [stamped] at same
    have paths := congrArg (fun s : Stamp => s.path.length) same
    simp at paths

theorem buildAllStamp (file : Option FileId) (around : Option Around) (stamp : Stamp) (i : Nat)
    (bs : List Blueprint) :
    (∀ d ∈ Declared.preorders (buildAll file around stamp i bs),
      ∃ j, i ≤ j ∧ ∃ more, d.stamp = ⟨stamp.tick, stamp.path ++ j :: more⟩) ∧
      ((Declared.preorders (buildAll file around stamp i bs)).map Declared.stamp).Nodup := by
  cases bs with
  | nil =>
    refine ⟨fun d mem => ?_, List.nodup_nil⟩
    cases mem
  | cons b rest =>
    obtain ⟨first, apart⟩ := buildInStamp file around (stamp.child i) b
    obtain ⟨later, others⟩ := buildAllStamp file around stamp (i + 1) rest
    have here : ∀ d ∈ (buildIn file around (stamp.child i) b).preorder,
        ∃ more, d.stamp = ⟨stamp.tick, stamp.path ++ i :: more⟩ := fun d mem => by
      obtain ⟨more, same⟩ := first d mem
      refine ⟨more, same.trans ?_⟩
      rw [Stamp.child, List.append_assoc]
      rfl
    rw [buildAll, Declared.preorders]
    refine ⟨fun d mem => ?_, ?_⟩
    · rcases List.mem_append.mp mem with now | after
      · exact ⟨i, Nat.le_refl i, here d now⟩
      · obtain ⟨j, beyond, stamped⟩ := later d after
        exact ⟨j, Nat.le_of_succ_le beyond, stamped⟩
    · rw [List.map_append, List.nodup_append]
      refine ⟨apart, others, ?_⟩
      rintro s mem t memToo rfl
      obtain ⟨d, now, rfl⟩ := List.mem_map.mp mem
      obtain ⟨e, after, same⟩ := List.mem_map.mp memToo
      obtain ⟨more, stamped⟩ := here d now
      obtain ⟨j, beyond, more', stampedToo⟩ := later e after
      rw [stamped, stampedToo, Stamp.mk.injEq, List.append_cancel_left_eq, List.cons.injEq] at same
      omega
end

theorem unitStamps (stamp : Stamp) (source : Source) :
    let unit := CompilationUnit.build stamp source.file source.fileName source.usings source.types
    (∀ d ∈ unit.allTypes, d.stamp.tick = stamp.tick) ∧
      ∀ d ∈ unit.allTypes, ∀ e ∈ unit.allTypes, d.stamp = e.stamp → d = e := by
  intro unit
  obtain ⟨below, apart⟩ := buildAllStamp (some source.file) none stamp 0 source.types
  rw [CompilationUnit.allTypesPreorders]
  refine ⟨fun d mem => ?_, fun d mem e memToo same => ?_⟩
  · obtain ⟨j, -, more, stamped⟩ := below d mem
    rw [stamped]
  · exact List.inj_on_of_nodup_map apart mem memToo same

end Built

section United

theorem uniteStamp {stamp : Stamp} {fragments : List Declared} {d : Declared}
    (h : Declared.unite stamp fragments = some d) : d ∈ fragments ∨ d.stamp = stamp := by
  rcases Declared.uniteParts h with rfl | ⟨several, -⟩
  · exact .inl List.mem_cons_self
  · obtain ⟨first, second, rest, rfl⟩ : ∃ first second rest,
        fragments = first :: second :: rest := by
      match fragments, several with
      | first :: second :: rest, _ => exact ⟨first, second, rest, rfl⟩
    unfold Declared.unite at h
    cases depth : Declared.heights (first :: second :: rest) with
    | zero =>
      rw [depth] at h
      cases h
      exact .inr rfl
    | succ n =>
      rw [depth] at h
      cases h
      exact .inr rfl

theorem uniteByArityStamp {stamp : Stamp} {fragments : List Declared} {d : Declared}
    (mem : d ∈ Store.uniteByArity stamp fragments) :
    d ∈ fragments ∨ ∃ g group,
      (Table.gather Declared.arity fragments).values[g]? = some group ∧
        Declared.unite (stamp.child g) group = some d ∧ d.stamp = stamp.child g := by
  obtain ⟨⟨group, g⟩, listed, united⟩ := List.mem_filterMap.mp mem
  have at_ : (Table.gather Declared.arity fragments).values[g]? = some group :=
    List.mem_zipIdx_iff_getElem?.mp listed
  rcases uniteStamp united with single | stamped
  · refine .inl ?_
    obtain ⟨arity, -, same⟩ : ∃ arity ∈ distinct (fragments.map Declared.arity),
        fragments.filter (fun f => f.arity = arity) = group := by
      have inside := List.mem_of_getElem? at_
      rw [Table.values, Table.gatherEntries, List.map_map] at inside
      exact List.mem_map.mp inside
    rw [← same] at single
    exact (List.mem_filter.mp single).1
  · exact .inr ⟨g, group, at_, united, stamped⟩

end United

namespace Store

def Apart (s beside : Store) : Prop := ∀ name other, ∀ t ∈ s.candidates name,
  ∀ t' ∈ beside.candidates other, t.stamp = t'.stamp → t = t'

theorem Apart.symm {s beside : Store} (apart : Apart s beside) : Apart beside s :=
  fun name other t mem t' memToo same => (apart other name t' memToo t mem same.symm).symm

structure Minted (known : Declared → Prop) (clock : Nat) (s : Store) : Prop where
  fragments : ∀ name, ∀ f ∈ s.fragmentsOf name, known f.type
  origin : ∀ name, ∀ t ∈ s.candidates name,
    known t ∨ t.stamp.tick < clock ∧ ∀ d, known d → d.stamp.tick ≠ t.stamp.tick
  apart : Apart s s
  arities : ∀ name, ((s.candidates name).map Declared.arity).Nodup

theorem mintedEmpty (known : Declared → Prop) (clock : Nat) : Minted known clock empty where
  fragments name f mem := by cases mem
  origin name t mem := by cases mem
  apart name other t mem := by cases mem
  arities name := List.nodup_nil

variable {s : Store} {known : Declared → Prop} {clock : Nat}

theorem Minted.later (minted : Minted known clock s) {more : Declared → Prop} {next : Nat}
    (passes : clock ≤ next) (also : ∀ d, known d → more d)
    (fresh : ∀ d, more d → known d ∨ clock ≤ d.stamp.tick) : Minted more next s where
  fragments name f mem := also _ (minted.fragments name f mem)
  origin name t mem := by
    rcases minted.origin name t mem with read | ⟨before, apart⟩
    · exact .inl (also t read)
    · refine .inr ⟨Nat.lt_of_lt_of_le before passes, fun d read => ?_⟩
      rcases fresh d read with old | new
      · exact apart d old
      · omega
  apart := minted.apart
  arities := minted.arities

theorem rebuildHere (stamp : Stamp) (name : String) :
    (s.rebuild stamp name).candidates name =
      uniteByArity stamp ((s.fragmentsOf name).map Fragment.type) := by
  by_cases empty : s.fragmentsOf name = []
  · rw [rebuildWithout empty, candidates, Table.getErase, if_pos rfl, empty]
    rfl
  · rw [rebuildWith empty, candidates, Table.getPut, if_pos rfl, Option.getD_some]

theorem rebuildCandidates (stamp : Stamp) (names : List (String × Nat)) (tidy : Tidy s.folded)
    (once : (names.map Prod.fst).Nodup) {name : String} {n : Nat} (mem : (name, n) ∈ names) :
    (names.foldl (fun s n => s.rebuild (stamp.child n.2) n.1) s).candidates name =
      uniteByArity (stamp.child n) ((s.fragmentsOf name).map Fragment.type) := by
  induction names generalizing s with
  | nil => cases mem
  | cons first rest ih =>
    obtain ⟨new, once⟩ := List.nodup_cons.mp once
    rw [List.foldl_cons]
    rcases List.mem_cons.mp mem with rfl | later
    · rw [candidates, (rebuildRest stamp rest (rebuildTidy tidy) new).1]
      exact rebuildHere (stamp.child n) name
    · rw [ih (rebuildTidy tidy) once later, fragmentsRebuild]

theorem affectedOnce (s : Store) (file : FileId) (unit : Option CompilationUnit) :
    (s.affected file unit).Nodup := distinctNodup _

section Replacing

theorem replaceTouched (sound : Sound s) (stamp : Stamp) {file : FileId}
    {unit : Option CompilationUnit} {name : String} (touched : name ∈ s.affected file unit) :
    ∃ n, (s.affected file unit)[n]? = some name ∧
      (s.replaceFile stamp file unit).1.candidates name = uniteByArity (stamp.child n)
        (((s.replaceFile stamp file unit).1.fragmentsOf name).map Fragment.type) := by
  have tidy : Tidy (s.exchange file unit).folded := (exchangeIndex s file unit).folded ▸ sound.tidy
  obtain ⟨n, at_⟩ := List.getElem?_of_mem touched
  refine ⟨n, at_, ?_⟩
  rw [replaceFragments sound, replaceExchanged]
  refine rebuildCandidates stamp _ tidy ?_ (List.mem_zipIdx_iff_getElem?.mpr at_)
  rw [List.zipIdx_map_fst]
  exact affectedOnce s file unit

theorem replaceUntouched (sound : Sound s) (stamp : Stamp) {file : FileId}
    {unit : Option CompilationUnit} {name : String} (absent : name ∉ s.affected file unit) :
    (s.replaceFile stamp file unit).1.candidates name = s.candidates name := by
  have index := exchangeIndex s file unit
  have tidy : Tidy (s.exchange file unit).folded := index.folded ▸ sound.tidy
  obtain ⟨logical, -⟩ := rebuildRest stamp (s.affected file unit).zipIdx tidy
    (show name ∉ (s.affected file unit).zipIdx.map Prod.fst by rwa [List.zipIdx_map_fst])
  rw [replaceExchanged, candidates, logical, index.logical]
  rfl

theorem replaceCandidates (sound : Sound s) (stamp : Stamp) (file : FileId)
    (unit : Option CompilationUnit) (name : String) :
    (∃ n, (s.affected file unit)[n]? = some name ∧
      (s.replaceFile stamp file unit).1.candidates name = uniteByArity (stamp.child n)
        (((s.replaceFile stamp file unit).1.fragmentsOf name).map Fragment.type)) ∨
      (s.replaceFile stamp file unit).1.candidates name = s.candidates name := by
  by_cases touched : name ∈ s.affected file unit
  · exact .inl (replaceTouched sound stamp touched)
  · exact .inr (replaceUntouched sound stamp touched)

variable {file : FileId} {unit : Option CompilationUnit}

theorem fragmentsRead (minted : Minted known clock s) (sound : Sound s) (stamp : Stamp)
    (read : ∀ u ∈ unit, ∀ d ∈ u.allTypes, known d) (name : String) :
    ∀ f ∈ (s.replaceFile stamp file unit).1.fragmentsOf name, known f.type := by
  intro f mem
  rw [replaceFragments sound, exchangeFragments] at mem
  rcases List.mem_append.mp mem with old | new
  · split at old
    · exact minted.fragments name f (List.mem_filter.mp old).1
    · exact minted.fragments name f old
  · obtain ⟨d, inside, rfl⟩ := List.mem_map.mp new
    cases unit with
    | none => cases inside
    | some u => exact read u rfl d (List.mem_filter.mp inside).1

structure Remade (clock : Nat) (before after : Store) (file : FileId)
    (unit : Option CompilationUnit) (name : String) (t : Declared) (n g : Nat) : Prop where
  touched : (before.affected file unit)[n]? = some name
  stamp : t.stamp = ((Stamp.at clock).child n).child g
  united : ((Table.gather Declared.arity
    ((after.fragmentsOf name).map Fragment.type)).values[g]?).bind
      (Declared.unite (((Stamp.at clock).child n).child g)) = some t

theorem Remade.same {before after : Store} {name other : String} {t t' : Declared} {n g n' g' : Nat}
    (left : Remade clock before after file unit name t n g)
    (right : Remade clock before after file unit other t' n' g') (same : t.stamp = t'.stamp) :
    t = t' := by
  have paths : [n, g] = [n', g'] := congrArg Stamp.path
    (left.stamp.symm.trans (same.trans right.stamp))
  cases paths
  cases Option.some.inj (left.touched.symm.trans right.touched)
  exact Option.some.inj (left.united.symm.trans right.united)

inductive Provenance (known : Declared → Prop) (clock : Nat) (before after : Store) (file : FileId)
    (unit : Option CompilationUnit) (name : String) (t : Declared) : Prop where
  | read (known : known t)
  | united {n g : Nat} (remade : Remade clock before after file unit name t n g)
  | kept (inside : t ∈ before.candidates name) (older : t.stamp.tick < clock)
      (foreign : ∀ d, known d → d.stamp.tick ≠ t.stamp.tick)

theorem Remade.tick {before after : Store} {name : String} {t : Declared} {n g : Nat}
    (remade : Remade clock before after file unit name t n g) : t.stamp.tick = clock := by
  rw [remade.stamp]
  rfl

section Updates
variable (minted : Minted known clock s) (sound : Sound s)
  (dated : ∀ d, known d → d.stamp.tick < clock)
  (once : ∀ d e, known d → known e → d.stamp = e.stamp → d = e)
  (read : ∀ u ∈ unit, ∀ d ∈ u.allTypes, known d)
include minted sound read

theorem replaceProvenance {name : String} {t : Declared}
    (mem : t ∈ (s.replaceFile (Stamp.at clock) file unit).1.candidates name) :
    Provenance known clock s (s.replaceFile (Stamp.at clock) file unit).1 file unit name t := by
  rcases replaceCandidates sound (Stamp.at clock) file unit name with ⟨n, touched, united⟩ | same
  · rw [united] at mem
    rcases uniteByArityStamp mem with single | ⟨g, group, listed, made, stamped⟩
    · obtain ⟨f, inside, rfl⟩ := List.mem_map.mp single
      exact .read (fragmentsRead minted sound (Stamp.at clock) read name f inside)
    · have remade := Option.bind_eq_some_iff.mpr ⟨group, listed, made⟩
      exact .united ⟨touched, stamped, remade⟩
  · rw [same] at mem
    rcases minted.origin name t mem with old | ⟨older, foreign⟩
    · exact .read old
    · exact .kept mem older foreign

include dated once

theorem Minted.replaces :
    Minted known (clock + 1) (s.replaceFile (Stamp.at clock) file unit).1 := by
  refine ⟨fun name => fragmentsRead minted sound (Stamp.at clock) read name,
    fun name t mem => ?_, fun name other t mem t' memToo same => ?_, fun name => ?_⟩
  · cases replaceProvenance minted sound read mem with
    | read old => exact .inl old
    | united made =>
      refine .inr ⟨made.tick ▸ Nat.lt_succ_self _, fun d old => ?_⟩
      rw [made.tick]
      exact Nat.ne_of_lt (dated d old)
    | kept _ older foreign => exact .inr ⟨Nat.lt_succ_of_lt older, foreign⟩
  · have tick : t.stamp.tick = t'.stamp.tick := congrArg Stamp.tick same
    cases replaceProvenance minted sound read mem with
    | read old =>
      cases replaceProvenance minted sound read memToo with
      | read old' => exact once t t' old old' same
      | united made' => exact absurd (tick.trans made'.tick) (Nat.ne_of_lt (dated t old))
      | kept _ _ foreign' => exact absurd tick (foreign' t old)
    | united made =>
      cases replaceProvenance minted sound read memToo with
      | read old' => exact absurd (tick.symm.trans made.tick) (Nat.ne_of_lt (dated t' old'))
      | united made' => exact made.same made' same
      | kept _ older' _ => exact absurd (tick.symm.trans made.tick) (Nat.ne_of_lt older')
    | kept inside older foreign =>
      cases replaceProvenance minted sound read memToo with
      | read old' => exact absurd tick.symm (foreign t' old')
      | united made' => exact absurd (tick.trans made'.tick) (Nat.ne_of_lt older)
      | kept inside' _ _ => exact minted.apart name other t inside t' inside' same
  · rcases replaceCandidates sound (Stamp.at clock) file unit name with
      ⟨n, -, united⟩ | same
    · rw [united, (uniteByArityGroups _ _).1]
      exact distinctNodup _
    · rw [same]
      exact minted.arities name

theorem Minted.replacesApart {beside : Store} (other : Minted known clock beside)
    (apart : Apart s beside) :
    Apart (s.replaceFile (Stamp.at clock) file unit).1 beside := by
  intro name name' t mem t' memToo same
  have tick : t.stamp.tick = t'.stamp.tick := congrArg Stamp.tick same
  cases replaceProvenance minted sound read mem with
  | read old =>
    rcases other.origin name' t' memToo with old' | ⟨-, foreign'⟩
    · exact once t t' old old' same
    · exact absurd tick (foreign' t old)
  | united made =>
    rcases other.origin name' t' memToo with old' | ⟨older', -⟩
    · exact absurd (tick.symm.trans made.tick) (Nat.ne_of_lt (dated t' old'))
    · exact absurd (tick.symm.trans made.tick) (Nat.ne_of_lt older')
  | kept inside _ _ => exact apart name name' t inside t' memToo same

end Updates

end Replacing

theorem Sound.stored (sound : Sound s) {t : Declared} (mem : t ∈ s.allTypes) :
    t ∈ s.candidates t.fullName := by
  obtain ⟨types, inside, mem⟩ := List.mem_flatten.mp mem
  obtain ⟨⟨name, types⟩, entry, rfl⟩ := List.mem_map.mp inside
  have listed : t ∈ s.candidates name := by
    rw [candidates, (Table.getIffMem sound.names).mpr entry]
    exact mem
  rwa [sound.named name t listed]

theorem Minted.finds (minted : Minted known clock s) (sound : Sound s) {t : Declared}
    (mem : t ∈ s.allTypes) : s.find t.fullName t.arity = some t := by
  have listed := sound.stored mem
  cases found : s.find t.fullName t.arity with
  | none =>
    rw [find, List.find?_eq_none] at found
    exact absurd (beq_self_eq_true t.arity) (found t listed)
  | some t' =>
    obtain ⟨inside, same⟩ := findMem found
    exact congrArg some (List.inj_on_of_nodup_map (minted.arities _) inside listed same)

end Store

section Sessions

def Session.Read (s : Session) (d : Declared) : Prop := ∃ u ∈ s.written, d ∈ u.allTypes

structure Session.Minted (s : Session) : Prop where
  dated : ∀ d, s.Read d → d.stamp.tick < s.workspace.clock
  once : ∀ d e, s.Read d → s.Read e → d.stamp = e.stamp → d = e
  stores : s.workspace.Stores (Store.Minted s.Read s.workspace.clock)
  apart : ∀ i j, (s.workspace.store i).Apart (s.workspace.store j)

variable {s : Session}

theorem Session.Minted.writes (minted : s.Minted) (source : Source) :
    (s.perform (.writes source)).Minted := by
  obtain ⟨ticks, apart⟩ := unitStamps (Stamp.at s.workspace.clock) source
  have reads : ∀ d, (s.perform (.writes source)).Read d → s.Read d ∨
      d ∈ (CompilationUnit.build (Stamp.at s.workspace.clock) source.file source.fileName
        source.usings source.types).allTypes := by
    rintro d ⟨u, listed, mem⟩
    rcases List.mem_append.mp listed with old | new
    · exact .inl ⟨u, old, mem⟩
    · rw [List.mem_singleton.mp new] at mem
      exact .inr mem
  have clock : (s.perform (.writes source)).workspace.clock = s.workspace.clock + 1 := rfl
  refine ⟨fun d read => ?_, fun d e read readToo same => ?_, fun scope mem => ?_, minted.apart⟩
  · rw [clock]
    rcases reads d read with old | new
    · exact Nat.lt_succ_of_lt (minted.dated d old)
    · rw [ticks d new]
      exact Nat.lt_succ_self _
  · have tick := congrArg Stamp.tick same
    rcases reads d read with old | new <;> rcases reads e readToo with old' | new'
    · exact minted.once d e old old' same
    · rw [ticks e new'] at tick
      exact absurd tick (Nat.ne_of_lt (minted.dated d old))
    · rw [ticks d new] at tick
      exact absurd tick.symm (Nat.ne_of_lt (minted.dated e old'))
    · exact apart d new e new' same
  · refine (minted.stores scope mem).later (Nat.le_succ _) ?_ fun d read => ?_
    · rintro d ⟨u, listed, mem⟩
      exact ⟨u, List.mem_append_left _ listed, mem⟩
    · rcases reads d read with old | new
      · exact .inl old
      · exact .inr (Nat.le_of_eq (ticks d new).symm)

theorem Session.Minted.replaces (minted : s.Minted) (untouched : s.workspace.Untouched)
    (sound : s.workspace.Stores Store.Sound) (id : ScopeId) (file : FileId)
    {unit : Option CompilationUnit} (read : ∀ u ∈ unit, u ∈ s.written) :
    (Session.mk ((Query.replaceFile id file unit).run s.workspace).2 s.written).Minted := by
  have dated := fun d read => Nat.lt_succ_of_lt (minted.dated d read)
  have here := minted.stores.at (Store.mintedEmpty _ _)
  have soundHere := sound.at Store.soundEmpty id
  have read : ∀ u ∈ unit, ∀ d ∈ u.allTypes, s.Read d := fun u given d mem => ⟨u, read u given, mem⟩
  have replaced : Store.Minted s.Read (s.workspace.clock + 1)
      ((s.workspace.store id).replaceFile (Stamp.at s.workspace.clock) file unit).1 :=
    (here id).replaces soundHere minted.dated minted.once read
  have stored : ∀ i, ((Query.replaceFile id file unit).run s.workspace).2.store i =
      if i = id ∧ id < s.workspace.scopes.length then
        ((s.workspace.store id).replaceFile (Stamp.at s.workspace.clock) file unit).1
      else s.workspace.store i := fun i => by
    rw [Query.replaceRun, Workspace.store, Workspace.scopeModify]
    split
    · rw [Scope.replaceStore, untouched.links, Store.settledUnwritten]
      rfl
    · rfl
  refine ⟨dated, minted.once, fun scope mem => ?_, fun i j => ?_⟩
  · rw [Query.replaceRun] at mem
    rcases Workspace.memModify mem with old | ⟨before, -, rfl⟩
    · exact (minted.stores scope old).later (Nat.le_succ _) (fun _ read => read) fun _ read =>
        .inl read
    · rw [Scope.replaceStore, untouched.links, Store.settledUnwritten]
      exact replaced
  · have beside : ∀ k, Store.Apart
        ((s.workspace.store id).replaceFile (Stamp.at s.workspace.clock) file unit).1
          (s.workspace.store k) := fun k =>
      (here id).replacesApart soundHere minted.dated minted.once read (here k) (minted.apart id k)
    dsimp only
    rw [stored, stored]
    split <;> split
    · exact replaced.apart
    · exact beside j
    · exact (beside i).symm
    · exact minted.apart i j

theorem Session.minted {events : List Event} (loading : ∀ e ∈ events, e.loads = true) :
    (Session.run events).Minted := by
  induction events using List.reverseRecOn with
  | nil =>
    refine ⟨fun d read => ?_, fun d e read => ?_, fun scope mem => ?_,
      fun i j name other t mem => ?_⟩
    · obtain ⟨u, listed, -⟩ := read
      cases listed
    · obtain ⟨u, listed, -⟩ := read
      cases listed
    · cases mem
    · cases mem
  | append_singleton events e ih =>
    have before : ∀ e ∈ events, e.loads = true := fun e mem =>
      loading e (List.mem_append_left _ mem)
    have minted := ih before
    have untouched := Session.untouched before
    have sound := Session.storesSound events
    rw [runAppend]
    cases e with
    | opens uri =>
      refine ⟨minted.dated, minted.once, minted.stores.opens (Store.mintedEmpty _ _) uri,
        fun i j => ?_⟩
      have still : ∀ i, ((Session.run events).perform (.opens uri)).workspace.store i =
          (Session.run events).workspace.store i := fun i =>
        Workspace.scopeOpened Scope.store _ uri i rfl
      rw [still, still]
      exact minted.apart i j
    | writes source => exact minted.writes source
    | ingests id unit =>
      simp only [Session.perform]
      split
      · rename_i u listed
        refine minted.replaces untouched sound id u.file fun given same => ?_
        cases Option.some.inj same
        exact List.mem_of_getElem? listed
      · exact minted
    | removes id file =>
      exact minted.replaces untouched sound id file fun u none_ => by cases none_
    | refers id references =>
      refine ⟨minted.dated, minted.once, minted.stores.modify fun _ => rfl, fun i j => ?_⟩
      have still : ∀ i, ((Session.run events).perform (.refers id references)).workspace.store i =
          (Session.run events).workspace.store i := fun i =>
        Workspace.viewScope Scope.store _ id i rfl
      rw [still, still]
      exact minted.apart i j
    | asks id q => cases loading _ (List.mem_append_right _ List.mem_cons_self)

end Sessions
end TypeScope
