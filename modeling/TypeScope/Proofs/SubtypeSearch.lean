import TypeScope.Proofs.Descent

/-! What the search for subtypes finds in a loaded scope that refers to no other: the types that
descend from the given one. The index lists a type under what its bases name, and the search closes
over the index. -/
namespace TypeScope

section Index
variable {index : SubtypeIndex} {P : Declared → Prop}

def SubtypeIndex.All (index : SubtypeIndex) (P : Declared → Prop) : Prop :=
  ∀ name, ∀ t ∈ index.of name, P t

theorem SubtypeIndex.memAdd {base name : String} {d t : Declared}
    (apart : ∀ k ∈ index.of base, k.stamp = d.stamp → k = d) :
    t ∈ (index.add base d).of name ↔ t ∈ index.of name ∨ t = d ∧ name = base := by
  have there : (index.add base d).of base =
      if (index.of base).any (fun k => k.is d) then index.of base else index.of base ++ [d] := by
    rw [SubtypeIndex.of, SubtypeIndex.add, Table.getPut, if_pos rfl]
    rfl
  by_cases same : name = base
  · rw [same, there]
    split
    · rename_i known
      obtain ⟨k, mem, is_⟩ := List.any_eq_true.mp known
      have already : d ∈ index.of base := apart k mem (beq_iff_eq.mp is_) ▸ mem
      exact ⟨.inl, fun listed => listed.elim (fun old => old) fun new => new.1 ▸ already⟩
    · rw [List.mem_append, List.mem_singleton, and_iff_left rfl]
  · have elsewhere : (index.add base d).of name = index.of name := by
      rw [SubtypeIndex.of, SubtypeIndex.add, Table.getPut, if_neg (Ne.symm same)]
      rfl
    rw [elsewhere, or_iff_left fun new => same new.2]

def SubtypeIndex.addAll (index : SubtypeIndex) (names : List String) (d : Declared) :
    SubtypeIndex :=
  names.foldl (fun index name => index.add name d) index

theorem SubtypeIndex.memAddAll {names : List String} {d : Declared} (inside : P d)
    (apart : ∀ k, P k → k.stamp = d.stamp → k = d) (all : index.All P) :
    (index.addAll names d).All P ∧ ∀ name t,
      t ∈ (index.addAll names d).of name ↔ t ∈ index.of name ∨ t = d ∧ name ∈ names := by
  induction names generalizing index with
  | nil => exact ⟨all, fun name t => (or_iff_left fun new => List.not_mem_nil new.2).symm⟩
  | cons base rest ih =>
    have added : ∀ name t, t ∈ (index.add base d).of name ↔
        t ∈ index.of name ∨ t = d ∧ name = base :=
      fun _ _ => SubtypeIndex.memAdd fun k mem => apart k (all base k mem)
    have still : (index.add base d).All P := by
      intro name t mem
      rcases (added name t).mp mem with old | ⟨rfl, -⟩
      · exact all name t old
      · exact inside
    obtain ⟨kept, listed⟩ := ih still
    refine ⟨kept, fun name t => (listed name t).trans ?_⟩
    rw [added, List.mem_cons, or_assoc, ← and_or_left]

theorem SubtypeIndex.memAddEach {names : Declared → List String} {ds : List Declared}
    (inside : ∀ d ∈ ds, P d) (apart : ∀ k d, P k → P d → k.stamp = d.stamp → k = d)
    (all : index.All P) (name : String) (t : Declared) :
    t ∈ (ds.foldl (fun index d => index.addAll (names d) d) index).of name ↔
      t ∈ index.of name ∨ t ∈ ds ∧ name ∈ names t := by
  induction ds generalizing index with
  | nil => exact (or_iff_left fun new => List.not_mem_nil new.1).symm
  | cons d rest ih =>
    have here := inside d List.mem_cons_self
    obtain ⟨kept, listed⟩ : (index.addAll (names d) d).All P ∧ ∀ name t,
        t ∈ (index.addAll (names d) d).of name ↔ t ∈ index.of name ∨ t = d ∧ name ∈ names d :=
      SubtypeIndex.memAddAll here (fun k known => apart k d known here) all
    rw [List.foldl_cons, ih (fun e mem => inside e (List.mem_cons_of_mem _ mem)) kept, listed,
      or_assoc, List.mem_cons, or_and_right]
    refine or_congr_right (or_congr_left (and_congr_right fun same => ?_))
    rw [same]

end Index

section Spread
open Query
variable {index : SubtypeIndex}

theorem spreadSound {P : Definition → Prop} {deep : Bool}
    (below : ∀ d, P d → ∀ s ∈ index.of d.decoratedName, P (.ofDeclared s)) (steps : Nat)
    {visited : List String} {queue : List (Definition × Bool)} (queued : ∀ e ∈ queue, P e.1) :
    ∀ d ∈ spread index deep steps visited queue, P d := by
  induction steps generalizing visited queue with
  | zero => exact fun d never => absurd never List.not_mem_nil
  | succ steps ih =>
    unfold spread
    cases cut : queue.dropWhile (fun e => visited.contains e.1.decoratedName) with
    | nil => exact fun d never => absurd never List.not_mem_nil
    | cons next rest =>
      obtain ⟨-, here, left, -⟩ := dropWhileHead cut
      have start := queued next here
      intro d mem
      rcases List.mem_cons.mp mem with rfl | mem
      · exact start
      · refine ih (fun e listed => ?_) d mem
        rcases List.mem_append.mp listed with old | new
        · exact queued e (left e old)
        · obtain ⟨s, inside, rfl⟩ := List.mem_map.mp new
          split at inside
          · exact below next.1 start s inside
          · cases inside

def searched (index : SubtypeIndex) (start : Definition) : Horizon :=
  ⟨start.decoratedName :: index.values.flatten.map Declared.decoratedName, 0⟩

theorem searchedListed (start : Definition) {name : String} {s : Declared}
    (listed : s ∈ index.of name) : s.decoratedName ∈ (searched index start).names := by
  refine List.mem_cons_of_mem _ (List.mem_map.mpr ⟨s, List.mem_flatten.mpr ?_, rfl⟩)
  unfold SubtypeIndex.of at listed
  cases kept : index.get? name with
  | none =>
    rw [kept] at listed
    cases listed
  | some types =>
    rw [kept] at listed
    exact ⟨types, Table.valueOfGet kept, listed⟩

theorem unseenNone {h : Horizon} {visited : List String} {name : String}
    (none_ : unseen h visited = 0) (inside : name ∈ h.names) : name ∈ visited := by
  by_contra fresh
  have less := unseenLess inside fresh
  omega

theorem spreadCloses (start : Definition) (steps : Nat) {visited : List String}
    {queue : List (Definition × Bool)}
    (queued : ∀ e ∈ queue, e.1.decoratedName ∈ (searched index start).names)
    (enough : unseen (searched index start) visited ≤ steps) :
    let met := (spread index true steps visited queue).map Definition.decoratedName
    (∀ e ∈ queue, e.1.decoratedName ∈ visited ++ met) ∧
      ∀ name ∈ met, ∀ s ∈ index.of name, s.decoratedName ∈ visited ++ met := by
  induction steps generalizing visited queue with
  | zero =>
    refine ⟨fun e mem => List.mem_append_left _ ?_, fun name never => absurd never List.not_mem_nil⟩
    exact unseenNone (Nat.le_zero.mp enough) (queued e mem)
  | succ steps ih =>
    unfold spread
    cases cut : queue.dropWhile (fun e => visited.contains e.1.decoratedName) with
    | nil =>
      rw [List.dropWhile_eq_nil_iff] at cut
      refine ⟨fun e mem => List.mem_append_left _ ?_,
        fun name never => absurd never List.not_mem_nil⟩
      exact List.contains_iff_mem.mp (cut e mem)
    | cons next rest =>
      obtain ⟨fresh, here, left, parts⟩ := dropWhileHead cut
      have unmet_ : next.1.decoratedName ∉ visited := fun met => by
        rw [List.contains_iff_mem.mpr met] at fresh
        cases fresh
      have less := unseenLess (queued next here) unmet_
      have later : ∀ e ∈ rest ++
          (index.of next.1.decoratedName).map (fun s => (.ofDeclared s, false)),
          e.1.decoratedName ∈ (searched index start).names := by
        intro e mem
        rcases List.mem_append.mp mem with old | new
        · exact queued e (left e old)
        · obtain ⟨s, listed, rfl⟩ := List.mem_map.mp new
          exact searchedListed start listed
      obtain ⟨reached, closed⟩ := @ih (next.1.decoratedName :: visited) _ later (by omega)
      -- the name met now stands before the visited ones in one list and behind them in the other
      have moved : ∀ {met : List String},
          (next.1.decoratedName :: visited ++ met).Perm (visited ++ next.1.decoratedName :: met) :=
        List.perm_middle.symm
      dsimp only
      rw [Bool.or_true, if_pos rfl, List.map_cons]
      refine ⟨fun e mem => ?_, fun name mem s listed => ?_⟩
      · rw [← moved.mem_iff]
        rcases parts e mem with met | rfl | waits
        · exact List.mem_append_left _ (List.mem_cons_of_mem _ (List.contains_iff_mem.mp met))
        · exact List.mem_append_left _ List.mem_cons_self
        · exact reached e (List.mem_append_left _ waits)
      · rw [← moved.mem_iff]
        rcases List.mem_cons.mp mem with rfl | mem
        · refine reached (.ofDeclared s, false) (List.mem_append_right _ ?_)
          exact List.mem_map.mpr ⟨s, listed, rfl⟩
        · exact closed name mem s listed

theorem belowCloses (index : SubtypeIndex) (start : Definition) :
    let met := (below index true start).map Definition.decoratedName
    start.decoratedName ∈ met ∧ ∀ name ∈ met, ∀ s ∈ index.of name, s.decoratedName ∈ met := by
  have enough : unseen (searched index start) [] ≤ index.values.flatten.length + 1 := by
    refine (List.length_filter_le _ _).trans ?_
    rw [searched, List.length_cons, List.length_map]
  have queued : ∀ e ∈ [(start, true)], e.1.decoratedName ∈ (searched index start).names := by
    intro e mem
    rw [List.mem_singleton.mp mem]
    exact List.mem_cons_self
  obtain ⟨reached, closed⟩ := spreadCloses start _ queued enough
  exact ⟨reached _ List.mem_cons_self, closed⟩

end Spread

section Search
open Query
variable {xid : Char → Bool} {u w : Workspace} {id : ScopeId} {t : Declared}
  {hosts : List Definition}

structure Workspace.Plain (xid : Char → Bool) (u : Workspace) (id : ScopeId) : Prop
    extends Charted xid u id where
  alone : (u.scope id).references = []
  finds : ∀ t, u.Stored id t ↔ u.Own id t

theorem Workspace.Plain.own (plain : u.Plain xid id) (stored : u.Stored id t) : u.Own id t :=
  (plain.finds t).mp stored

theorem Workspace.Plain.stored (plain : u.Plain xid id) (own : u.Own id t) : u.Stored id t :=
  (plain.finds t).mpr own

theorem Workspace.Plain.coherent (plain : u.Plain xid id) : Coherent xid u id [] u :=
  plain.toCharted.coherent

theorem ancestryTold (plain : u.Plain xid id) (coherent : Coherent xid u id hosts w)
    (stored : u.Stored id t) :
    Told xid u id hosts w (ancestry id (.ofDeclared t)) (fun _ met => ∀ p, u.Stored id p →
      (p.decoratedName ∈ met.map Definition.decoratedName ↔ u.Descends id t p)) := by
  have fetched := ownFetched plain.toCharted coherent (plain.own stored)
  exact toldWiden (ancestryOf plain.toCharted fetched) fun _ met _ meets p inside =>
    meets.named plain.toCharted (plain.own inside)

theorem ancestryToTold (plain : u.Plain xid id) (coherent : Coherent xid u id hosts w)
    (stored : u.Stored id t) (count : Nat) :
    Told xid u id hosts w (ancestryTo count id (.ofDeclared t)) (fun _ _ => True) :=
  ancestryToOf plain.toCharted (ownFetched plain.toCharted coherent (plain.own stored)) count

theorem baseNamesTold (plain : u.Plain xid id) (coherent : Coherent xid u id hosts w)
    (stored : u.Stored id t) :
    Told xid u id hosts w (baseNames id t) (fun _ names => names = u.basesNamed id t) := by
  refine toldBind (basesTold plain.toCharted coherent (knownOwn (plain.own stored)))
    fun ds w' coherent' _ all => ?_
  exact toldPure coherent' (congrArg (· ++ _) all.decorated)

theorem indexTypesTold (plain : u.Plain xid id) {ds : List Declared}
    (coherent : Coherent xid u id hosts w) (stored : ∀ d ∈ ds, u.Stored id d)
    (index : SubtypeIndex) :
    Told xid u id hosts w (indexTypes id ds index) (fun _ built =>
      built = ds.foldl (fun index d => index.addAll (u.basesNamed id d) d) index) := by
  induction ds generalizing w index with
  | nil => exact toldPure coherent rfl
  | cons d rest ih =>
    refine toldBind (baseNamesTold plain coherent (stored d List.mem_cons_self))
      fun names w' coherent' _ same => ?_
    rw [same, List.foldl_cons]
    exact ih coherent' (fun e mem => stored e (List.mem_cons_of_mem _ mem)) _

theorem buildIndexTold (plain : u.Plain xid id) (coherent : Coherent xid u id hosts w) :
    Told xid u id hosts w (buildIndex id) (fun _ index => u.Listed id index) := by
  refine toldGet ?_
  rw [Workspace.storeLasting coherent.lasting]
  refine toldWiden (indexTypesTold plain coherent (fun d mem => mem) _) fun w' index _ built => ?_
  intro name s
  have none_ : SubtypeIndex.All Table.empty (u.Stored id) := fun name s never => by cases never
  have apart : ∀ k d, u.Stored id k → u.Stored id d → k.stamp = d.stamp → k = d :=
    fun k d inside inside' => plain.apart k d (plain.own inside) (plain.own inside')
  rw [built, SubtypeIndex.memAddEach (P := u.Stored id) (fun d mem => mem) apart none_]
  exact or_iff_right fun never => by cases never

theorem keptIndexCoherent (coherent : Coherent xid u id hosts w) {index : SubtypeIndex}
    (listed : u.Listed id index) :
    let after := w.modifyScope id (fun s => { s with subtypes := some index })
    Coherent xid u id hosts after ∧ Later id w after := by
  intro after
  have cache : (after.scope id).cache = (w.scope id).cache :=
    Workspace.viewScope Scope.cache w id id rfl
  have later : Later id w after := fun key d found => by rwa [cache]
  have before : Later id after w := fun key d found => by rwa [cache] at found
  refine ⟨⟨?_, coherent.clock, coherent.records, coherent.elsewhere, fun key d found => ?_,
    fun key key' d d' found found' => ?_, coherent.sites, fun s d found => ?_,
    fun d t known i base written s linked => ?_, fun c mem i this written s linked => ?_,
    fun other kept => ?_⟩, later⟩
  · exact (Workspace.viewModify Scope.lasting w id rfl).trans coherent.lasting
  · exact coherent.cached key d (before key d found)
  · exact coherent.once key key' d d' (before key d found) (before key' d' found')
  · obtain ⟨stamp, t, known⟩ := coherent.targets s d found
    exact ⟨stamp, t, known.later later⟩
  · exact (coherent.links d t (known.later before) i base written s linked).later later
  · exact (coherent.receivers c mem i this written s linked).later later
  · rw [Workspace.scopeModify] at kept
    split at kept
    · cases kept
      exact listed
    · exact coherent.index other kept

theorem subtypeIndexTold (plain : u.Plain xid id) (coherent : Coherent xid u id hosts w) :
    Told xid u id hosts w (subtypeIndex id) (fun _ index => u.Listed id index) := by
  refine toldGet ?_
  cases kept : (w.scope id).subtypes with
  | some index => exact toldPure coherent (coherent.index index kept)
  | none =>
    refine toldBind (buildIndexTold plain coherent) fun index w' coherent' _ listed => ?_
    obtain ⟨coherent'', later⟩ := keptIndexCoherent coherent' listed
    exact ⟨coherent'', later, listed⟩

theorem belowDescends (plain : u.Plain xid id) {index : SubtypeIndex} (listed : u.Listed id index)
    (stored : u.Stored id t) :
    (∀ deep, ∀ d ∈ below index deep (.ofDeclared t), ∃ s, d = .ofDeclared s ∧ u.Stored id s ∧
      u.Descends id s t) ∧
    ∀ s, u.Descends id s t → u.Stored id s → .ofDeclared s ∈ below index true (.ofDeclared t) := by
  have sound : ∀ deep, ∀ d ∈ below index deep (.ofDeclared t), ∃ s, d = .ofDeclared s ∧
      u.Stored id s ∧ u.Descends id s t := by
    refine fun deep => spreadSound (fun d below s mem => ?_) _ fun e mem => ?_
    · obtain ⟨p, rfl, inside, descends⟩ := below
      obtain ⟨child, named⟩ := (listed _ s).mp mem
      exact ⟨s, rfl, child, .head ((plain.parentNamed (plain.own inside)).mp named) descends⟩
    · rw [List.mem_singleton.mp mem]
      exact ⟨t, rfl, stored, .refl⟩
  have found : ∀ s, u.Stored id s →
      s.decoratedName ∈ (below index true (.ofDeclared t)).map Definition.decoratedName →
        .ofDeclared s ∈ below index true (.ofDeclared t) := by
    intro s inside named
    obtain ⟨d, mem, name⟩ := List.mem_map.mp named
    obtain ⟨s', rfl, inside', -⟩ := sound true d mem
    rw [← plain.decorated (plain.own inside') (plain.own inside) name]
    exact mem
  obtain ⟨start, closed⟩ := belowCloses index (.ofDeclared t)
  refine ⟨sound, fun s descends inside => ?_⟩
  -- from the given type downwards: what is found has its subtypes listed, and these are found too
  induction descends using Relation.ReflTransGen.head_induction_on with
  | refl => exact found t stored start
  | @head s p parent way ih =>
    have between := plain.parentOwn parent
    have named := (plain.parentNamed between).mpr parent
    have met : p.decoratedName ∈ (below index true (.ofDeclared t)).map Definition.decoratedName :=
      List.mem_map.mpr ⟨_, ih (plain.stored between), rfl⟩
    exact found s inside (closed _ met s ((listed _ s).mpr ⟨inside, named⟩))

theorem declaredSubtypesTold (plain : u.Plain xid id) (coherent : Coherent xid u id hosts w)
    (stored : u.Stored id t) (deep : Bool) (namespaces : Option (List String)) :
    Told xid u id hosts w (declaredSubtypes id deep namespaces (.ofDeclared t)) (fun _ found =>
      (∀ d ∈ found, ∃ s, d = .ofDeclared s ∧ u.Stored id s ∧ u.Descends id s t) ∧
        (deep = true → namespaces = none → ∀ s, u.Stored id s → u.Descends id s t →
          .ofDeclared s ∈ found)) := by
  refine toldBind (subtypeIndexTold plain coherent) fun index w' coherent' _ listed => ?_
  obtain ⟨sound, complete⟩ := belowDescends plain listed stored
  refine toldPure coherent' ⟨fun d mem => sound deep d (List.mem_filter.mp mem).1, ?_⟩
  rintro rfl rfl s inside descends
  exact List.mem_filter.mpr ⟨complete s descends inside, rfl⟩

theorem freshStampTold (coherent : Coherent xid u id hosts w) :
    Told xid u id hosts w freshStamp (fun _ _ => True) := by
  refine ⟨⟨coherent.lasting, Nat.le_succ_of_le coherent.clock, coherent.records, coherent.elsewhere,
    fun key d found => ?_, coherent.once, fun holder i link found => ?_, coherent.targets,
    coherent.links, coherent.receivers, coherent.index⟩, Later.refl id w, trivial⟩
  · obtain ⟨t, i, own, same, inst, after, before⟩ := coherent.cached key d found
    exact ⟨t, i, own, same, inst, after, Nat.lt_succ_of_lt before⟩
  · exact Nat.lt_succ_of_lt (coherent.sites holder i link found)

theorem ofChainMarks (ns : String) (first : TypePart) (rest : List TypePart) :
    (TypeRef.ofChain ns first rest).marks = Marks.none := by
  induction rest generalizing first with
  | nil => rfl
  | cons next rest ih => exact ih next

theorem mentionRankless (w : Workspace) (t : Declared) :
    (w.referenceTo (.ofDeclared t)).marks.ranks = [] := by
  have chained : (w.referenceTo (.ofDeclared t)).marks =
      (TypeRef.chainOf t.body.ns t.fullName).marks := rfl
  rw [chained, TypeRef.chainOf]
  split <;> rw [ofChainMarks] <;> rfl

theorem arrayOfTold (plain : u.Plain xid id) (coherent : Coherent xid u id hosts w)
    (stored : u.Stored id t) (kept : w.targets.get? t.stamp = some (.ofDeclared t)) :
    Told xid u id hosts w (arrayOf id (w.referenceTo (.ofDeclared t)))
      (fun _ made => ∃ a, made.1 = .unbound (.array a)) := by
  have core : (w.referenceTo (.ofDeclared t)).core = w.referenceTo (.ofDeclared t) := by
    rw [TypeRef.core, mentionRankless]
    rfl
  have current : w.isCurrent id (.ofDeclared t) = true := by
    show w.isStored id t = true
    unfold Workspace.isStored
    rw [Workspace.findTypeLasting coherent.lasting, plain.own stored]
    exact beq_self_eq_true t.stamp
  have believed : (w.linked (w.referenceTo (.ofDeclared t))).filter (w.isCurrent id) =
      some (.ofDeclared t) := by
    have linked : w.linked (w.referenceTo (.ofDeclared t)) = some (.ofDeclared t) := kept
    rw [linked, Option.filter_some, if_pos current]
  have looked : Told xid u id hosts w (lookupCore id (w.referenceTo (.ofDeclared t)))
      (fun _ _ => True) := by
    refine toldGet ?_
    rw [believed]
    exact toldPure coherent trivial
  unfold arrayOf
  rw [core]
  refine toldBind looked fun answer w' coherent' _ _ => ?_
  refine toldGet (toldBind (freshStampTold coherent') fun stamp w'' coherent'' _ _ => ?_)
  exact toldPure coherent'' ⟨_, rfl⟩

theorem arraysOfTold (plain : u.Plain xid id) {ds : List Definition}
    (coherent : Coherent xid u id hosts w)
    (stored : ∀ d ∈ ds, ∃ s, d = .ofDeclared s ∧ u.Stored id s) :
    Told xid u id hosts w (arraysOf id ds)
      (fun _ arrays => ∀ d ∈ arrays, ∃ a, d = .unbound (.array a)) := by
  induction ds generalizing w with
  | nil => exact toldPure coherent fun d never => absurd never List.not_mem_nil
  | cons d rest ih =>
    obtain ⟨s, rfl, inside⟩ := stored d List.mem_cons_self
    refine toldBind (keepTargetTold coherent (knownOwn (plain.own inside)))
      fun _ w' coherent' _ kept => ?_
    refine toldGet (toldBind (arrayOfTold plain coherent' inside kept)
      fun made w'' coherent'' _ array => ?_)
    refine toldBind (ih coherent'' fun e mem => stored e (List.mem_cons_of_mem _ mem))
      fun arrays w₃ coherent₃ _ each => toldPure coherent₃ fun e mem => ?_
    rcases List.mem_cons.mp mem with rfl | mem
    · exact array
    · exact each e mem

theorem arraysOfObjectsTold (plain : u.Plain xid id) (coherent : Coherent xid u id hosts w)
    (namespaces : Option (List String)) (d : Definition) :
    Told xid u id hosts w (arraysOfObjects id namespaces d)
      (fun _ arrays => ∀ d ∈ arrays, ∃ a, d = .unbound (.array a)) := by
  have none_ : ∀ d ∈ ([] : List Definition), ∃ a, d = .unbound (.array a) :=
    fun d never => absurd never List.not_mem_nil
  unfold arraysOfObjects
  split
  · refine toldGet ?_
    rw [Workspace.findTypeLasting coherent.lasting]
    cases object : u.findType id .deep .exact objectName 0 with
    | none => exact toldPure coherent none_
    | some root =>
      have inside := plain.stored (plain.objectFound object).1
      refine toldBind (declaredSubtypesTold plain coherent inside true namespaces)
        fun found w' coherent' _ ⟨each, _⟩ => arraysOfTold plain coherent' fun d mem => ?_
      obtain ⟨s, same, stored, -⟩ := each d mem
      exact ⟨s, same, stored⟩
  · exact toldPure coherent none_

theorem subtypesTold (plain : u.Plain xid id) (coherent : Coherent xid u id hosts w)
    (stored : u.Stored id t) (deep : Bool) (namespaces : Option (List String)) :
    Told xid u id hosts w (subtypes id deep namespaces (.ofDeclared t)) (fun _ found =>
      deep = true → namespaces = none → ∀ s, u.Stored id s →
        (.ofDeclared s ∈ found ↔ u.Descends id s t)) := by
  refine toldBind (declaredSubtypesTold plain coherent stored deep namespaces)
    fun declared w' coherent' _ ⟨sound, complete⟩ => ?_
  have unbound : Told xid u id hosts w' (arrayOfArgument id (.ofDeclared t))
      (fun _ element => element = []) := toldPure coherent' rfl
  refine toldBind unbound fun element w'' coherent'' _ empty => ?_
  refine toldBind (arraysOfObjectsTold plain coherent'' namespaces _)
    fun arrays w₃ coherent₃ _ each => toldPure coherent₃ fun whole open_ s inside => ?_
  rw [empty, List.append_nil, List.mem_append]
  constructor
  · rintro (own | array)
    · obtain ⟨s', same, -, descends⟩ := sound _ own
      cases same
      exact descends
    · obtain ⟨a, same⟩ := each _ array
      cases same
  · exact fun descends => .inl (complete whole open_ s inside descends)

end Search
end TypeScope
