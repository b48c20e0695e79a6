import TypeScope.Proofs.BoundMethods
import TypeScope.Proofs.Descent

/-! Which extension methods are listed for a type. Whatever was asked before, the receiver of a
method is found to be what it names as it is written; so the list depends on nothing but the names
of what the type inherits from. -/
namespace TypeScope

structure TypeRef.Outright (xid : Char → Bool) (r : TypeRef) : Prop where
  rankless : r.marks.ranks = []
  outer : ∀ p ∈ r.outer, p.arguments = []
  formed : ∀ a ∈ r.arguments, a.WellFormed xid
  unlinked : r.link = none

theorem TypeRef.Outright.echoes {xid : Char → Bool} {r : TypeRef} (outright : r.Outright xid) :
    r.Echoes xid r where
  fullName := rfl
  decorated := rfl
  count := rfl
  rankless := outright.rankless
  outer := outright.outer
  formed := outright.formed
  unlinked := outright.unlinked

structure Hosting (xid : Char → Bool) (hosts : List Definition) : Prop where
  apart : ∀ c ∈ hosts, ∀ c' ∈ hosts, c.stamp = c'.stamp → c = c'
  receivers : ∀ c ∈ hosts, ∀ m ∈ c.body.members, ∀ this ∈ m.receiver?, this.Outright xid

def Workspace.extends (u : Workspace) (id : ScopeId) (names : List String) (m : Member) : Bool :=
  m.receiver?.any (fun this =>
    this.bareName?.any (fun name => m.typeParameters.any (fun p => p.name == name)) ||
      (u.offeredTo id this).any (fun t => names.contains t.decoratedName))

def Workspace.extending (u : Workspace) (id : ScopeId) (names : List String)
    (candidates : List Definition) : List Member :=
  candidates.flatMap (fun c => c.body.members.filter (u.extends id names))

section Names
variable {u : Workspace} {id : ScopeId} {names more : List String}
  (within : ∀ t, u.Own id t → t.decoratedName ∈ names → t.decoratedName ∈ more)
include within

theorem Workspace.extendsMore {xid : Char → Bool} (charted : u.Charted xid id) {m : Member}
    (extends_ : u.extends id names m = true) : u.extends id more m = true := by
  obtain ⟨this, written, applies⟩ := (Option.any_eq_true ..).mp extends_
  refine (Option.any_eq_true ..).mpr ⟨this, written, ?_⟩
  rw [Bool.or_eq_true] at applies ⊢
  refine applies.imp_right fun named => ?_
  obtain ⟨t, found, listed⟩ := (Option.any_eq_true ..).mp named
  refine (Option.any_eq_true ..).mpr ⟨t, found, List.contains_iff_mem.mpr ?_⟩
  exact within t (charted.offered found).1 (List.contains_iff_mem.mp listed)

theorem Workspace.extendingMore {xid : Char → Bool} (charted : u.Charted xid id)
    (candidates : List Definition) :
    (u.extending id names candidates).Sublist (u.extending id more candidates) :=
  List.Sublist.flatMap_right _ fun c _ =>
    List.monotone_filter_right c.body.members fun _ => extendsMore within charted

end Names

section Receivers
open Query
variable {xid : Char → Bool} {u w : Workspace} {id : ScopeId} {hosts : List Definition}
  {c d : Definition} {i : Nat}

theorem writeReceiverTold (hosting : Hosting xid hosts) (coherent : Coherent xid u id hosts w)
    (host : c ∈ hosts) {this : TypeRef} (written : c.receiver? i = some this) {link : Option Stamp}
    (right : ∀ s, link = some s → Leads u id w (u.offeredTo id this) s) :
    Told xid u id hosts w (writeLink ⟨c.stamp, .receiver i⟩ link) (fun _ _ => True) := by
  refine ⟨⟨coherent.lasting, coherent.clock, coherent.records, coherent.elsewhere, coherent.cached,
    coherent.once, fun holder j l found => ?_, coherent.targets,
    fun d t known j base at_ s found => ?_, fun e mem j other at_ s found => ?_, coherent.index⟩,
    Later.refl id w, trivial⟩
  · rcases Table.putSome found with ⟨same, -⟩ | old
    · cases (Site.mk.inj same).2
    · exact coherent.sites holder j l old
  · rcases Table.putSome found with ⟨same, -⟩ | old
    · cases (Site.mk.inj same).2
    · exact coherent.links d t known j base at_ s old
  · rcases Table.putSome found with ⟨same, put⟩ | old
    · obtain ⟨stamp, slot⟩ := Site.mk.inj same
      cases slot
      cases hosting.apart c host e mem stamp
      cases Option.some.inj (written.symm.trans at_)
      exact right s put
    · exact coherent.receivers e mem j other at_ s old

theorem receiverTold (hosting : Hosting xid hosts) (charted : u.Charted xid id)
    (coherent : Coherent xid u id hosts w) (host : c ∈ hosts) {this : TypeRef}
    (written : c.receiver? i = some this) :
    Told xid u id hosts w (lookupAt id ⟨c.stamp, .receiver i⟩ this)
      (Answered u id (u.offeredTo id this)) := by
  have outright : this.Outright xid := by
    obtain ⟨m, at_, receives⟩ := Option.bind_eq_some_iff.mp written
    exact hosting.receivers c host m (List.mem_of_getElem? at_) this receives
  have looked := lookupSiteTold outright.echoes (fun p found => found) charted coherent
    (coherent.receivers c host i this written) fun _ _ coherent' _ right =>
      writeReceiverTold hosting coherent' host written right
  refine toldWiden looked fun w' answer _ found => ?_
  exact found.symm

theorem appliesToTold (hosting : Hosting xid hosts) (charted : u.Charted xid id)
    (coherent : Coherent xid u id hosts w) (host : c ∈ hosts) {m : Member}
    (at_ : c.body.members[i]? = some m) (extension : m.isExtension = true) (names : List String) :
    Told xid u id hosts w (appliesTo id names c i m)
      (fun _ applies => applies = u.extends id names m) := by
  obtain ⟨this, rest, parameters⟩ : ∃ this rest, m.parameters = this :: rest := by
    obtain ⟨-, some_⟩ := not_or.mp (Member.extensionAccepted extension)
    exact List.exists_cons_of_ne_nil fun none_ => some_ (List.isEmpty_iff.mpr none_)
  have receives : m.receiver? = some this.type := by
    rw [Member.receiver?, if_pos extension, parameters]
    rfl
  have written : c.receiver? i = some this.type := by rw [Definition.receiver?, at_]; exact receives
  have looked : ∀ {f : Option Definition → Query Bool}, f none = pure false →
      (∀ d, f (some d) = pure (names.contains d.decoratedName)) →
      Told xid u id hosts w (lookupAt id ⟨c.stamp, .receiver i⟩ this.type >>= f) (fun _ applies =>
        applies = (u.offeredTo id this.type).any (fun t => names.contains t.decoratedName)) := by
    intro f missed found
    refine toldBind (receiverTold hosting charted coherent host written)
      fun answer w' coherent' _ answered => ?_
    rcases answered with ⟨rfl, none_⟩ | ⟨e, t, rfl, some_, known⟩
    · rw [missed]
      exact toldPure coherent' (by rw [none_]; rfl)
    · rw [found]
      exact toldPure coherent' (by rw [some_, known.decorated]; rfl)
  unfold appliesTo
  rw [parameters, Workspace.extends, receives, Option.any_some]
  dsimp only
  cases this.type.bareName? with
  | none => exact looked rfl fun _ => rfl
  | some name =>
    rw [Option.any_some]
    dsimp only
    split
    · rename_i open_
      exact toldPure coherent (by rw [open_, Bool.true_or])
    · rename_i closed
      rw [Bool.eq_false_iff.mpr closed, Bool.false_or]
      exact looked rfl fun _ => rfl

theorem extensionBinds (receiver : Definition) {m : Member} (extension : m.isExtension = true) :
    ∃ bound, BoundMethod.of receiver m [] [] = .ok bound ∧ bound.source = m := by
  rw [BoundMethod.of, if_neg (Member.extensionAccepted extension)]
  exact ⟨_, rfl, rfl⟩

theorem extendsExtension {u : Workspace} {names : List String} {m : Member}
    (extends_ : u.extends id names m = true) : m.isExtension = true := by
  obtain ⟨this, receives, -⟩ := (Option.any_eq_true ..).mp extends_
  unfold Member.receiver? at receives
  split at receives
  · assumption
  · cases receives

section Listing
variable (hosting : Hosting xid hosts) (charted : u.Charted xid id) (names : List String)
  (receiver : Definition)
include hosting charted

theorem bindAmongTold (host : c ∈ hosts) {ms : List Member}
    (coherent : Coherent xid u id hosts w)
    (at_ : ∀ k m, ms[k]? = some m → c.body.members[i + k]? = some m) :
    Told xid u id hosts w (bindAmong id names receiver c i ms)
      (fun _ bound => bound.map BoundMethod.source = ms.filter (u.extends id names)) := by
  induction ms generalizing i w with
  | nil => exact toldPure coherent rfl
  | cons m rest ih =>
    have here : Told xid u id hosts w
        (if m.isExtension then bindWhereItApplies id names receiver c i m else pure [])
        (fun _ bound => bound.map BoundMethod.source = [m].filter (u.extends id names)) := by
      split
      · rename_i extension
        refine toldBind (appliesToTold hosting charted coherent host (at_ 0 m rfl) extension names)
          fun applies w' coherent' _ same => ?_
        obtain ⟨bound, binds, source⟩ := extensionBinds receiver extension
        rw [List.filter_singleton, ← same]
        cases applies with
        | true => exact toldPure coherent' (by rw [binds]; exact congrArg (fun m => [m]) source)
        | false => exact toldPure coherent' rfl
      · rename_i other
        have silent : ¬ u.extends id names m = true := fun extends_ =>
          other (extendsExtension extends_)
        refine toldPure coherent (List.filter_eq_nil_iff.mpr ?_).symm
        exact List.forall_mem_singleton.mpr silent
    have later : ∀ k m, rest[k]? = some m → c.body.members[i + 1 + k]? = some m := by
      intro k m found
      rw [Nat.add_right_comm, Nat.add_assoc]
      exact at_ (k + 1) m found
    have cut : bindAmong id names receiver c i (m :: rest) =
        (if m.isExtension then bindWhereItApplies id names receiver c i m else pure []) >>=
          fun here => do return here ++ (← bindAmong id names receiver c (i + 1) rest) := by
      rw [bindAmong]
      split <;> rfl
    rw [cut]
    refine toldBind here fun first w' coherent' _ listed => ?_
    refine toldBind (ih coherent' later) fun others w'' coherent'' _ listed' => ?_
    refine toldPure coherent'' ?_
    rw [List.map_append, listed, listed', ← List.filter_append]
    rfl

theorem bindCandidatesTold {candidates : List Definition} (within : candidates ⊆ hosts)
    (coherent : Coherent xid u id hosts w) :
    Told xid u id hosts w (bindCandidates id names receiver candidates)
      (fun _ bound => bound.map BoundMethod.source = u.extending id names candidates) := by
  induction candidates generalizing w with
  | nil => exact toldPure coherent rfl
  | cons c rest ih =>
    obtain ⟨host, others⟩ := List.cons_subset.mp within
    have here := bindAmongTold (i := 0) hosting charted names receiver host coherent
      fun k m found => by rwa [Nat.zero_add]
    refine toldBind here fun first w' coherent' _ listed => ?_
    refine toldBind (ih others coherent') fun rest w'' coherent'' _ listed' => ?_
    refine toldPure coherent'' ?_
    rw [List.map_append, listed, listed', Workspace.extending, Workspace.extending,
      List.flatMap_cons]

end Listing

theorem extensionsOf (hosting : Hosting xid hosts) (charted : u.Charted xid id) {t : Declared}
    (fetched : Told xid u id hosts w (refetch id d) (fun w' e => Known u id w' e t))
    {candidates : List Definition} (within : candidates ⊆ hosts) :
    Told xid u id hosts w (extensionMethods id d candidates) (fun _ bound => ∃ names : List String,
      (∀ p, u.Own id p → (p.decoratedName ∈ names ↔ u.Descends id t p)) ∧
        bound.map BoundMethod.source = u.extending id names candidates) :=
  toldBind (ancestryOf charted fetched) fun met _ coherent _ meets =>
    toldWiden (bindCandidatesTold hosting charted (met.map Definition.decoratedName) d within
      coherent) fun _ _ _ listed => ⟨_, fun _ own => meets.named charted own, listed⟩

end Receivers
end TypeScope
