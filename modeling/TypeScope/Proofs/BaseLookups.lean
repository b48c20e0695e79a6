import TypeScope.Proofs.BaseNames
import TypeScope.Proofs.Vantage
import TypeScope.Subtypes

/-! Lookups of bases in a loaded scope and what it refers to. Whatever instances and links walks
left behind, a base is found to be what it names. -/
namespace TypeScope

def Member.receiver? (m : Member) : Option TypeRef :=
  if m.isExtension then m.parameters.head?.map Parameter.type else none

def Definition.receiver? (c : Definition) (i : Nat) : Option TypeRef :=
  (c.body.members[i]?).bind Member.receiver?

namespace Workspace

def offeredTo (u : Workspace) (id : ScopeId) (r : TypeRef) : Option Declared :=
  u.offered id r.decoratedName r.arguments.length

def Stored (u : Workspace) (id : ScopeId) (t : Declared) : Prop := t ∈ (u.store id).allTypes

def Own (u : Workspace) (id : ScopeId) (t : Declared) : Prop :=
  u.findType id .deep .exact t.fullName t.arity = some t

def basesNamed (u : Workspace) (id : ScopeId) (t : Declared) : List String :=
  (t.body.bases.filterMap (u.named id t)).map Declared.decoratedName ++
    if t.body.base.isNone && t.fullName != objectName then [objectName] else []

def Listed (u : Workspace) (id : ScopeId) (index : SubtypeIndex) : Prop :=
  ∀ name t, t ∈ index.of name ↔ u.Stored id t ∧ name ∈ u.basesNamed id t

structure Charted (xid : Char → Bool) (u : Workspace) (id : ScopeId) : Prop where
  opened : id < u.scopes.length
  links : u.links = Table.empty
  targets : u.targets = Table.empty
  cache : (u.scope id).cache = Table.empty
  subtypes : (u.scope id).subtypes = none
  called : ∀ name arity t, u.findType id .deep .exact name arity = some t →
    t.fullName = name ∧ t.arity = arity
  apart : ∀ t t', u.Own id t → u.Own id t' → t.stamp = t'.stamp → t = t'
  dated : ∀ t, u.Own id t → t.stamp.tick < u.clock
  separate : ∀ c ∈ Text.marks, xid c = false
  names : ∀ t, u.Own id t → Segmented xid t.fullName
  fit : ∀ t, u.Own id t → ∀ base ∈ t.body.bases, base.Fit xid t
  aliases : ∀ unit ∈ (u.store id).units.values, ∀ usings ∈ unit.usings,
    ∀ target ∈ usings.aliases.values, ∀ a ∈ target.arguments, a.WellFormed xid
  meant : ∀ t, u.Own id t → ∀ base ∈ t.body.bases,
    u.offered id base.decoratedName base.arguments.length = none → base.fullName ≠ "" →
      base.arguments = [] → ¬ u.ParameterAround id t base.fullName

variable {xid : Char → Bool} {u : Workspace} {id : ScopeId} {t t' : Declared}

theorem Charted.found (charted : u.Charted xid id) {name : String} {arity : Nat}
    (found : u.findType id .deep .exact name arity = some t) :
    u.Own id t ∧ t.fullName = name ∧ t.arity = arity := by
  obtain ⟨named, counted⟩ := charted.called name arity t found
  refine ⟨?_, named, counted⟩
  rwa [Own, named, counted]

theorem Charted.offered (charted : u.Charted xid id) {name : String} {count : Nat}
    (found : u.offered id name count = some t) :
    u.Own id t ∧ (count ≠ 0 → t.arity = count) := by
  obtain ⟨own, -, arity⟩ := charted.found found
  refine ⟨own, fun some_ => ?_⟩
  rwa [if_neg some_] at arity

theorem Own.candidate (own : u.Own id t) :
    ∃ i ∈ u.consulted id .deep, t ∈ (u.store i).candidates t.fullName := by
  obtain ⟨i, reached, here⟩ := List.exists_of_findSome?_eq_some own
  rw [Store.lookupExact] at here
  exact ⟨i, reached, (Store.findMem here).1⟩

theorem Own.identified (own : u.Own id t) (own' : u.Own id t') (name : t.fullName = t'.fullName)
    (arity : t.arity = t'.arity) : t = t' := by
  rw [Own, name, arity, own'] at own
  exact (Option.some.inj own).symm

theorem Charted.decorated (charted : u.Charted xid id) (own : u.Own id t)
    (own' : u.Own id t') (same : t.decoratedName = t'.decoratedName) : t = t' := by
  obtain ⟨name, arity⟩ := decorateUnique
    (segmentedUnmarked charted.separate (charted.names t own)).1
    (segmentedUnmarked charted.separate (charted.names t' own')).1 same
  exact own.identified own' name arity

end Workspace

structure Instance (xid : Char → Bool) (t : Declared) (key : String) (i : Instantiation) :
    Prop where
  open_ : i.openType = .declared t
  key : key = Instantiation.keyFor t.fullName i.arguments
  some_ : i.arguments ≠ []
  count : i.arguments.length = t.arity
  formed : ∀ a ∈ i.arguments, a.WellFormed xid
  retold : Retold xid t i.body

section Coherence
variable {xid : Char → Bool} {u w w' : Workspace} {id : ScopeId} {t t' : Declared}
  {d d' : Definition} {hosts : List Definition}

def Known (u : Workspace) (id : ScopeId) (w : Workspace) (d : Definition) (t : Declared) : Prop :=
  u.Own id t ∧ d.openType = .declared t ∧
    (d = .ofDeclared t ∨ ∃ key, (w.scope id).cache.get? key = some d)

def Leads (u : Workspace) (id : ScopeId) (w : Workspace) (named : Option Declared) (s : Stamp) :
    Prop :=
  ∃ d p, Known u id w d p ∧ d.stamp = s ∧ named = some p

/-- The workspace `w` is the loaded one after some walks and searches, and after the receivers of
some extension methods of the `hosts` were looked up. -/
structure Coherent (xid : Char → Bool) (u : Workspace) (id : ScopeId) (hosts : List Definition)
    (w : Workspace) : Prop where
  lasting : w.lasting = u.lasting
  clock : u.clock ≤ w.clock
  records : ∀ t, u.Own id t → (w.recordOf t).body.file = (u.recordOf t).body.file ∧
    (w.recordOf t).body.location = (u.recordOf t).body.location
  elsewhere : ∀ stamp, (∀ t, u.Own id t → t.stamp ≠ stamp) →
    w.mainParts.get? stamp = u.mainParts.get? stamp
  cached : ∀ key d, (w.scope id).cache.get? key = some d → ∃ t i, u.Own id t ∧ d = .bound i ∧
    Instance xid t key i ∧ u.clock ≤ i.stamp.tick ∧ i.stamp.tick < w.clock
  once : ∀ key key' d d', (w.scope id).cache.get? key = some d →
    (w.scope id).cache.get? key' = some d' → d.stamp = d'.stamp → d = d'
  sites : ∀ holder i link, w.links.get? ⟨holder, .base i⟩ = some link → holder.tick < w.clock
  targets : ∀ s d, w.targets.get? s = some d → d.stamp = s ∧ ∃ t, Known u id w d t
  links : ∀ d t, Known u id w d t → ∀ i base, t.body.bases[i]? = some base → ∀ s,
    w.links.get? ⟨d.stamp, .base i⟩ = some (some s) → Leads u id w (u.named id t base) s
  receivers : ∀ c ∈ hosts, ∀ i this, c.receiver? i = some this → ∀ s,
    w.links.get? ⟨c.stamp, .receiver i⟩ = some (some s) → Leads u id w (u.offeredTo id this) s
  index : ∀ index, (w.scope id).subtypes = some index → u.Listed id index

def Later (id : ScopeId) (w w' : Workspace) : Prop :=
  ∀ key d, (w.scope id).cache.get? key = some d → (w'.scope id).cache.get? key = some d

theorem Later.refl (id : ScopeId) (w : Workspace) : Later id w w := fun _ _ found => found

theorem Later.trans {w'' : Workspace} (first : Later id w w') (second : Later id w' w'') :
    Later id w w'' := fun key d found => second key d (first key d found)

theorem Known.later (known : Known u id w d t) (later : Later id w w') : Known u id w' d t :=
  ⟨known.1, known.2.1, known.2.2.imp_right fun ⟨key, found⟩ => ⟨key, later key d found⟩⟩

theorem Leads.later {named : Option Declared} {s : Stamp} (leads : Leads u id w named s)
    (later : Later id w w') : Leads u id w' named s := by
  obtain ⟨d, p, known, rest⟩ := leads
  exact ⟨d, p, known.later later, rest⟩

theorem knownOwn (own : u.Own id t) : Known u id w (.ofDeclared t) t :=
  ⟨own, rfl, .inl rfl⟩

theorem Known.same (known : Known u id w d t) (known' : Known u id w d t') : t = t' :=
  OpenType.declared.inj (known.2.1.symm.trans known'.2.1)

theorem Known.decorated (known : Known u id w d t) : d.decoratedName = t.decoratedName := by
  rw [Definition.decoratedName, Definition.fullName, Definition.arity, known.2.1]
  rfl

theorem Coherent.unique (charted : u.Charted xid id) (coherent : Coherent xid u id hosts w)
    (known : Known u id w d t) (known' : Known u id w d' t') (same : d.stamp = d'.stamp) :
    d = d' := by
  obtain ⟨own, -, kind⟩ := known
  obtain ⟨own', -, kind'⟩ := known'
  have recent : ∀ {key e}, (w.scope id).cache.get? key = some e → u.clock ≤ e.stamp.tick := by
    intro key e found
    obtain ⟨-, i, -, rfl, -, after, -⟩ := coherent.cached key e found
    exact after
  have tick : d.stamp.tick = d'.stamp.tick := congrArg Stamp.tick same
  -- an instantiation is younger than all that is stored
  rcases kind with rfl | ⟨key, found⟩ <;> rcases kind' with rfl | ⟨key', found'⟩
  · rw [charted.apart t t' own own' same]
  · have before : (Definition.ofDeclared t).stamp.tick < u.clock := charted.dated t own
    have after := recent found'
    omega
  · have before : (Definition.ofDeclared t').stamp.tick < u.clock := charted.dated t' own'
    have after := recent found
    omega
  · exact coherent.once key key' d d' found found' same

theorem Known.retold (charted : u.Charted xid id) (coherent : Coherent xid u id hosts w)
    (known : Known u id w d t) : Retold xid t d.body := by
  obtain ⟨own, open_, kind⟩ := known
  rcases kind with rfl | ⟨key, found⟩
  · exact retoldSelf (charted.fit t own)
  · obtain ⟨own, i, -, rfl, inst, -⟩ := coherent.cached key d found
    have same : own = t := OpenType.declared.inj (inst.open_.symm.trans open_)
    exact same ▸ inst.retold

theorem Known.dated (charted : u.Charted xid id) (coherent : Coherent xid u id hosts w)
    (known : Known u id w d t) : d.stamp.tick < w.clock := by
  obtain ⟨own, -, kind⟩ := known
  rcases kind with rfl | ⟨key, found⟩
  · exact Nat.lt_of_lt_of_le (charted.dated t own) coherent.clock
  · obtain ⟨-, i, -, rfl, -, -, before⟩ := coherent.cached key d found
    exact before

theorem Workspace.Charted.coherent (charted : u.Charted xid id) : Coherent xid u id hosts u where
  lasting := rfl
  clock := Nat.le_refl _
  records _ _ := ⟨rfl, rfl⟩
  elsewhere _ _ := rfl
  cached key d found := by
    rw [charted.cache] at found
    cases found
  once key key' d d' found := by
    rw [charted.cache] at found
    cases found
  sites holder i link found := by
    rw [charted.links] at found
    cases found
  targets s d found := by
    rw [charted.targets] at found
    cases found
  links d t known i base written s found := by
    rw [charted.links] at found
    cases found
  receivers c mem i this written s found := by
    rw [charted.links] at found
    cases found
  index index kept := by
    rw [charted.subtypes] at kept
    cases kept

end Coherence

section Told
open Query
variable {xid : Char → Bool} {u w : Workspace} {id : ScopeId} {hosts : List Definition} {α β : Type}

def Told (xid : Char → Bool) (u : Workspace) (id : ScopeId) (hosts : List Definition)
    (w : Workspace) (q : Query α) (after : Workspace → α → Prop) : Prop :=
  Coherent xid u id hosts (q.run w).2 ∧ Later id w (q.run w).2 ∧ after (q.run w).2 (q.run w).1

theorem toldPure {a : α} {after : Workspace → α → Prop} (coherent : Coherent xid u id hosts w)
    (h : after w a) : Told xid u id hosts w (pure a) after := ⟨coherent, Later.refl id w, h⟩

theorem toldGet {f : Workspace → Query α} {after : Workspace → α → Prop}
    (h : Told xid u id hosts w (f w) after) : Told xid u id hosts w (get >>= f) after := h

theorem toldCached {key : String} {f : Option Definition → Query α} {after : Workspace → α → Prop}
    (h : Told xid u id hosts w (f ((w.scope id).cache.get? key)) after) :
    Told xid u id hosts w (cached? id key >>= f) after := h

theorem toldBind {q : Query α} {f : α → Query β} {middle : Workspace → α → Prop}
    {after : Workspace → β → Prop} (first : Told xid u id hosts w q middle)
    (next : ∀ a w', Coherent xid u id hosts w' → Later id w w' → middle w' a →
      Told xid u id hosts w' (f a) after) : Told xid u id hosts w (q >>= f) after := by
  obtain ⟨coherent, later, between⟩ := first
  obtain ⟨coherent', later', holds⟩ := next _ _ coherent later between
  exact ⟨coherent', later.trans later', holds⟩

theorem toldWiden {q : Query α} {P Q : Workspace → α → Prop} (h : Told xid u id hosts w q P)
    (within : ∀ w' a, Later id w w' → P w' a → Q w' a) : Told xid u id hosts w q Q :=
  ⟨h.1, h.2.1, within _ _ h.2.1 h.2.2⟩

def Answered (u : Workspace) (id : ScopeId) (named : Option Declared) (w : Workspace)
    (answer : Option Definition) : Prop :=
  answer = none ∧ named = none ∨ ∃ d t, answer = some d ∧ named = some t ∧ Known u id w d t

theorem toldFindFirst {f : β → Query (Option Definition)} {named : β → Option Declared}
    {items : List β} (coherent : Coherent xid u id hosts w)
    (each : ∀ b ∈ items, ∀ w', Coherent xid u id hosts w' →
      Told xid u id hosts w' (f b) (Answered u id (named b))) :
    Told xid u id hosts w (findFirst f items) (Answered u id (items.findSome? named)) := by
  induction items generalizing w with
  | nil => exact toldPure coherent (.inl ⟨rfl, rfl⟩)
  | cons b rest ih =>
    refine toldBind (each b List.mem_cons_self w coherent) fun answer w' coherent' _ shows => ?_
    rcases shows with ⟨rfl, none_⟩ | ⟨d, t, rfl, some_, known⟩
    · rw [List.findSome?_cons, none_]
      exact ih coherent' fun c mem => each c (List.mem_cons_of_mem _ mem)
    · rw [List.findSome?_cons, some_]
      exact toldPure coherent' (.inr ⟨d, t, rfl, rfl, known⟩)

end Told

section Steps
open Query
variable {xid : Char → Bool} {u w : Workspace} {id : ScopeId} {t : Declared} {d : Definition}
  {hosts : List Definition}

theorem keepTargetTold (coherent : Coherent xid u id hosts w) (known : Known u id w d t) :
    Told xid u id hosts w (keepTarget d) (fun w' _ => w'.targets.get? d.stamp = some d) := by
  have kept : (w.targets.put d.stamp d).get? d.stamp = some d := by rw [Table.getPut, if_pos rfl]
  refine ⟨⟨coherent.lasting, coherent.clock, coherent.records, coherent.elsewhere, coherent.cached,
    coherent.once, coherent.sites, fun s e found => ?_, coherent.links, coherent.receivers,
    coherent.index⟩, Later.refl id w, kept⟩
  rcases Table.putSome found with ⟨rfl, rfl⟩ | old
  · exact ⟨rfl, t, known⟩
  · exact coherent.targets s e old

theorem writeLinkTold (charted : u.Charted xid id) (coherent : Coherent xid u id hosts w)
    (known : Known u id w d t) {i : Nat} {base : TypeRef} (written : t.body.bases[i]? = some base)
    {link : Option Stamp} (right : ∀ s, link = some s → Leads u id w (u.named id t base) s) :
    Told xid u id hosts w (writeLink ⟨d.stamp, .base i⟩ link) (fun _ _ => True) := by
  refine ⟨⟨coherent.lasting, coherent.clock, coherent.records, coherent.elsewhere, coherent.cached,
    coherent.once, fun holder j l found => ?_, coherent.targets,
    fun e p known' j other at_ s found => ?_, fun c mem j this at_ s found => ?_, coherent.index⟩,
    Later.refl id w, trivial⟩
  · rcases Table.putSome found with ⟨same, -⟩ | old
    · have before := known.dated charted coherent
      rwa [(Site.mk.inj same).1] at before
    · exact coherent.sites holder j l old
  · rcases Table.putSome found with ⟨same, put⟩ | old
    · obtain ⟨stamp, slot⟩ := Site.mk.inj same
      cases slot
      have here : d = e := coherent.unique charted known known' stamp
      cases here
      cases known.same known'
      cases Option.some.inj (written.symm.trans at_)
      exact right s put
    · exact coherent.links e p known' j other at_ s old
  · rcases Table.putSome found with ⟨same, -⟩ | old
    · cases (Site.mk.inj same).2
    · exact coherent.receivers c mem j this at_ s old

theorem cachedAfter (charted : u.Charted xid id) (coherent : Coherent xid u id hosts w)
    (key : String) (d : Definition) (w' : Workspace) (scopes : w'.scopes = w.scopes) :
    ((w'.modifyScope id (fun s => { s with cache := s.cache.put key d })).scope id).cache =
      (w.scope id).cache.put key d := by
  have counted : w.scopes.length = u.scopes.length := by
    have lengths := congrArg List.length coherent.lasting
    rwa [Workspace.lasting, Workspace.lasting, List.length_map, List.length_map] at lengths
  have inside : id < w'.scopes.length := by
    rw [scopes, counted]
    exact charted.opened
  rw [Workspace.scopeModify, if_pos ⟨rfl, inside⟩, Workspace.scope, scopes]
  rfl

section Added
variable {after : Workspace} {key : String} {made : Definition}
  (cache : (after.scope id).cache = (w.scope id).cache.put key made)
include cache

theorem laterAdded (unknown : (w.scope id).cache.get? key = none) : Later id w after := by
  intro other d found
  rw [cache, Table.getPut, if_neg ?_]
  · exact found
  · rintro rfl
    rw [unknown] at found
    cases found

theorem cachedAdded {other : String} (found : (after.scope id).cache.get? other = some d) :
    key = other ∧ made = d ∨ (w.scope id).cache.get? other = some d := by
  rw [cache] at found
  exact Table.putSome found

theorem knownAdded (known : Known u id after d t) : d = made ∨ Known u id w d t := by
  obtain ⟨own, open_, rfl | ⟨other, found⟩⟩ := known
  · exact .inr (knownOwn own)
  · rcases cachedAdded cache found with ⟨-, rfl⟩ | old
    · exact .inl rfl
    · exact .inr ⟨own, open_, .inr ⟨other, old⟩⟩

end Added

theorem madeTold (charted : u.Charted xid id) (coherent : Coherent xid u id hosts w)
    (own : u.Own id t) {arguments : List TypeRef} (some_ : arguments ≠ [])
    (count : arguments.length = t.arity)
    (formed : ∀ a ∈ arguments, a.WellFormed xid)
    (unknown : (w.scope id).cache.get? (Instantiation.keyFor t.fullName arguments) = none) :
    let made := Definition.bound (Instantiation.of (Stamp.at w.clock) (.declared t)
      (w.bodyOf (.ofDeclared t)) arguments)
    let after := { w with clock := w.clock + 1 }.modifyScope id
      (fun s => { s with cache := s.cache.put (Instantiation.keyFor t.fullName arguments) made })
    Coherent xid u id hosts after ∧ Later id w after ∧ Known u id after made t := by
  intro made after
  have cache : (after.scope id).cache =
      (w.scope id).cache.put (Instantiation.keyFor t.fullName arguments) made :=
    cachedAfter charted coherent _ made { w with clock := w.clock + 1 } rfl
  have later : Later id w after := laterAdded cache unknown
  have stamped : ∀ key d, (w.scope id).cache.get? key = some d → d.stamp ≠ made.stamp := by
    intro key d found same
    obtain ⟨-, i, -, rfl, -, -, before⟩ := coherent.cached key d found
    have tick : i.stamp.tick = w.clock := congrArg Stamp.tick same
    omega
  have fresh : Known u id after made t :=
    ⟨own, rfl, .inr ⟨_, by rw [cache, Table.getPut, if_pos rfl]⟩⟩
  refine ⟨⟨?_, ?_, coherent.records, coherent.elsewhere, fun key d found => ?_,
    fun key key' d d' found found' same => ?_, fun holder i link found => ?_, fun s d found => ?_,
    fun d p known i base written s linked => ?_, fun c mem i this written s linked => ?_,
    fun index kept => ?_⟩, later, fresh⟩
  · exact (Workspace.viewModify Scope.lasting { w with clock := w.clock + 1 } id rfl).trans
      coherent.lasting
  · exact Nat.le_succ_of_le coherent.clock
  · rcases cachedAdded cache found with ⟨rfl, rfl⟩ | old
    · refine ⟨t, _, own, rfl, ⟨rfl, rfl, some_, count, formed, ?_⟩, coherent.clock,
        Nat.lt_succ_self _⟩
      exact retoldBound (charted.fit t own) w.links some_ count formed
    · obtain ⟨p, i, inside, same, inst, after_, before⟩ := coherent.cached key d old
      exact ⟨p, i, inside, same, inst, after_, Nat.lt_succ_of_lt before⟩
  · rcases cachedAdded cache found with ⟨-, rfl⟩ | old <;>
      rcases cachedAdded cache found' with ⟨-, rfl⟩ | old'
    · rfl
    · exact absurd same.symm (stamped key' d' old')
    · exact absurd same (stamped key d old)
    · exact coherent.once key key' d d' old old' same
  · exact Nat.lt_succ_of_lt (coherent.sites holder i link found)
  · obtain ⟨stamp, p, known⟩ := coherent.targets s d found
    exact ⟨stamp, p, known.later later⟩
  · rcases knownAdded cache known with rfl | known
    -- no link was ever written at a stamp that is only made now
    · have before := coherent.sites _ _ _ linked
      exact absurd before (Nat.lt_irrefl _)
    · exact (coherent.links d p known i base written s linked).later later
  · exact (coherent.receivers c mem i this written s linked).later later
  · have same : (after.scope id).subtypes = (w.scope id).subtypes :=
      Workspace.viewScope Scope.subtypes { w with clock := w.clock + 1 } id id rfl
    rw [same] at kept
    exact coherent.index index kept

theorem instantiateTold (charted : u.Charted xid id) (coherent : Coherent xid u id hosts w)
    (own : u.Own id t) {arguments : List TypeRef}
    (count : arguments ≠ [] → arguments.length = t.arity)
    (formed : ∀ a ∈ arguments, a.WellFormed xid) :
    Told xid u id hosts w (instantiate id (.ofDeclared t) arguments)
      (fun w' d => Known u id w' d t ∧ (arguments ≠ [] → d.isBound = true)) := by
  by_cases bare : arguments = []
  · rw [bare]
    exact toldPure coherent ⟨knownOwn own, fun some_ => absurd rfl some_⟩
  · have some_ : arguments.isEmpty ≠ true := fun empty => bare (List.isEmpty_iff.mp empty)
    simp only [instantiate, Definition.ofDeclared]
    rw [if_neg some_]
    refine toldCached ?_
    have named : (OpenType.declared t).fullName = t.fullName := rfl
    rw [named]
    cases cached : (w.scope id).cache.get? (Instantiation.keyFor t.fullName arguments) with
    | none =>
      obtain ⟨coherent', later, known⟩ :=
        madeTold charted coherent own bare (count bare) formed cached
      exact ⟨coherent', later, known, fun _ => rfl⟩
    | some d =>
      obtain ⟨p, i, inside, rfl, inst, -⟩ := coherent.cached _ d cached
      obtain ⟨name, canonical⟩ := keyUnique charted.separate
        (segmentedUnmarked charted.separate (charted.names t own)).2
        (segmentedUnmarked charted.separate (charted.names p inside)).2 bare inst.some_ formed
        inst.formed inst.key
      have length : arguments.length = i.arguments.length := by
        simpa using congrArg List.length canonical
      have same : p = t := inside.identified own name.symm
        (inst.count.symm.trans (length.symm.trans (count bare)))
      exact toldPure coherent ⟨⟨own, same ▸ inst.open_, .inr ⟨_, cached⟩⟩, fun _ => rfl⟩

theorem offeredAsked (u : Workspace) (id : ScopeId) (name : String) (arguments : List TypeRef) :
    u.findType id .deep .exact (Arity.strip name).1 (askedArity name arguments) =
      u.offered id name arguments.length := by
  cases arguments <;> rfl

theorem getTypeTold (charted : u.Charted xid id) (coherent : Coherent xid u id hosts w)
    (name : String) {arguments : List TypeRef} (formed : ∀ a ∈ arguments, a.WellFormed xid) :
    Told xid u id hosts w (getType id .deep .exact name arguments) (fun w' answer =>
      Answered u id (u.offered id name arguments.length) w' answer ∧
        ∀ d, answer = some d → arguments ≠ [] → d.isBound = true) := by
  rw [getTypeStripped]
  refine toldGet ?_
  rw [Workspace.findTypeLasting coherent.lasting, offeredAsked]
  cases found : u.offered id name arguments.length with
  | none => exact toldPure coherent ⟨.inl ⟨rfl, rfl⟩, fun d never => by cases never⟩
  | some p =>
    obtain ⟨own, count⟩ := charted.offered found
    have counted : arguments ≠ [] → arguments.length = p.arity := fun some_ =>
      (count fun empty => some_ (List.length_eq_zero_iff.mp empty)).symm
    refine toldBind (instantiateTold charted coherent own counted formed)
      fun d w' coherent' _ ⟨known, bound⟩ => toldPure coherent'
        ⟨.inr ⟨d, p, rfl, rfl, known⟩, fun e same => ?_⟩
    cases Option.some.inj same
    exact bound

theorem linkToTold (coherent : Coherent xid u id hosts w) (known : Known u id w d t) (r : TypeRef) :
    Told xid u id hosts w (linkTo r d) (fun _ linked => linked = r.linkedTo (some d.stamp)) :=
  toldBind (keepTargetTold coherent known) fun _ _ coherent' _ _ => toldPure coherent' rfl

def LookedUp (u : Workspace) (id : ScopeId) (named offered : Option Declared) (w : Workspace)
    (answer : Option Definition × TypeRef) : Prop :=
  (∃ d p, answer.1 = some d ∧ named = some p ∧ Known u id w d p ∧
    ∀ s, answer.2.link = some s → Leads u id w named s) ∨
  answer.1 = none ∧ answer.2.link = none ∧ offered = none

section References
variable {base r : TypeRef} (echoes : base.Echoes xid r) {named : Option Declared}
  (direct : ∀ p, u.offeredTo id base = some p → named = some p)
include echoes direct

theorem lookupCoreTold (charted : u.Charted xid id) (coherent : Coherent xid u id hosts w)
    {link : Option Stamp} (right : ∀ s, link = some s → Leads u id w named s) :
    Told xid u id hosts w (lookupCore id (r.linkedTo link))
      (LookedUp u id named (u.offeredTo id base)) := by
  refine toldGet ?_
  split
  · rename_i d believed
    obtain ⟨linked, -⟩ := Option.filter_eq_some_iff.mp believed
    obtain ⟨s, at_, kept⟩ := Option.bind_eq_some_iff.mp linked
    obtain ⟨stamp, p, known⟩ := coherent.targets s d kept
    obtain ⟨e, q, known', stamp', names⟩ := right s at_
    have same : d = e := coherent.unique charted known known' (stamp.trans stamp'.symm)
    refine toldPure coherent (.inl ⟨d, q, rfl, names, same ▸ known', ?_⟩)
    exact right
  · have decorated : (r.linkedTo link).decoratedName = base.decoratedName := echoes.decorated
    have arguments : (r.linkedTo link).arguments = r.arguments := rfl
    rw [decorated, arguments]
    refine toldBind (getTypeTold charted coherent base.decoratedName echoes.formed)
      fun answer w' coherent' later typed => ?_
    obtain ⟨answered, bound⟩ := typed
    rw [echoes.count] at answered
    rcases answered with ⟨rfl, none_⟩ | ⟨d, p, rfl, some_, known⟩
    · exact toldPure coherent' (.inr ⟨rfl, rfl, none_⟩)
    · have names : named = some p := direct p some_
      -- what was looked up with arguments is bound to them already
      have settled :
          (d.isBound || d.placeholder?.isSome || !(r.linkedTo link).isGeneric) = true := by
        by_cases bare : r.arguments = []
        · have plainParts : (r.linkedTo link).isGeneric = false := by
            rw [TypeRef.isGeneric, List.any_eq_false]
            intro p mem
            rcases List.mem_append.mp mem with early | late
            · simp [echoes.outer p early]
            · have last : r.last.arguments = [] := bare
              rw [List.mem_singleton.mp late]
              simp [TypeRef.linkedTo, last]
          rw [plainParts, Bool.not_false, Bool.or_true]
        · rw [bound d rfl bare, Bool.true_or, Bool.true_or]
      dsimp only
      rw [if_pos settled, pure_bind]
      refine toldBind (linkToTold coherent' known _) fun _ w'' coherent'' later' linked => ?_
      refine toldPure coherent'' (.inl ⟨d, p, rfl, names, known.later later', fun s at_ => ?_⟩)
      rw [linked] at at_
      exact ⟨d, p, known.later later', Option.some.inj at_, names⟩

theorem lookupSiteTold (charted : u.Charted xid id) (coherent : Coherent xid u id hosts w)
    {site : Site} (written : ∀ s, w.links.get? site = some (some s) → Leads u id w named s)
    (write : ∀ w' link, Coherent xid u id hosts w' → Later id w w' →
      (∀ s, link = some s → Leads u id w' named s) →
        Told xid u id hosts w' (writeLink site link) (fun _ _ => True)) :
    Told xid u id hosts w (lookupAt id site r) (fun w' answer =>
      (∃ e p, answer = some e ∧ named = some p ∧ Known u id w' e p) ∨
        answer = none ∧ u.offeredTo id base = none) := by
  -- the reference itself was never linked, so that any link here was written by a lookup
  obtain ⟨link, current, right⟩ : ∃ link, w.links.current site r = r.linkedTo link ∧
      ∀ s, link = some s → Leads u id w named s := by
    unfold Links.current
    cases linked : w.links.get? site with
    | none =>
      refine ⟨none, ?_, fun s never => by cases never⟩
      have unlinked := echoes.unlinked
      cases r
      cases unlinked
      rfl
    | some link =>
      refine ⟨link, rfl, fun s same => ?_⟩
      rw [same] at linked
      exact written s linked
  refine toldGet ?_
  rw [current]
  have rankless : (r.linkedTo link).element? = none := TypeRef.elementNone.mpr echoes.rankless
  have looked : Told xid u id hosts w (lookup id (r.linkedTo link))
      (LookedUp u id named (u.offeredTo id base)) := by
    unfold lookup
    rw [rankless]
    exact lookupCoreTold echoes direct charted coherent right
  refine toldBind looked fun answer w' coherent' later found => ?_
  obtain ⟨answer, after⟩ := answer
  have leads : ∀ s, after.link = some s → Leads u id w' named s := by
    rcases found with ⟨e, p, -, -, -, right'⟩ | ⟨-, none_, -⟩
    · exact right'
    · intro s at_
      rw [none_] at at_
      cases at_
  have shown : ∀ w'', Later id w' w'' →
      (∃ e p, answer = some e ∧ named = some p ∧ Known u id w'' e p) ∨
        answer = none ∧ u.offeredTo id base = none := by
    intro w'' later'
    rcases found with ⟨e, p, same, names, known', -⟩ | ⟨none_, -, absent⟩
    · exact .inl ⟨e, p, same, names, known'.later later'⟩
    · exact .inr ⟨none_, absent⟩
  dsimp only
  split
  · exact toldBind (write w' after.link coherent' later leads)
      fun _ w'' coherent'' later' _ => toldPure coherent'' (shown w'' later')
  · exact toldPure coherent' (shown w' (Later.refl id w'))

end References

theorem lookupAtTold (charted : u.Charted xid id) (coherent : Coherent xid u id hosts w)
    (known : Known u id w d t) {i : Nat} {base r : TypeRef}
    (written : t.body.bases[i]? = some base) (echoes : base.Echoes xid r) :
    Told xid u id hosts w (lookupAt id ⟨d.stamp, .base i⟩ r) (fun w' answer =>
      (∃ e p, answer = some e ∧ u.named id t base = some p ∧ Known u id w' e p) ∨
        answer = none ∧ u.offeredTo id base = none) := by
  have direct : ∀ p, u.offeredTo id base = some p → u.named id t base = some p := fun p some_ => by
    rw [Workspace.named, ← Workspace.offeredTo, some_, Option.some_or]
  exact lookupSiteTold echoes direct charted coherent (coherent.links d t known i base written)
    fun _ _ coherent' later right =>
      writeLinkTold charted coherent' (known.later later) written right

end Steps

end TypeScope
