import TypeScope.Proofs.Currency
import TypeScope.Proofs.Reach

/-! One question asked of two scopes. For names that both scopes find in the same places, the
lookups of both go the same way step by step: they answer the same and leave the same behind. -/
namespace TypeScope

namespace Query

def Agree {α : Type} (R : Workspace → Workspace → Prop) (p q : Query α) (P : α → Prop) : Prop :=
  ∀ v w, R v w → (p.run v).1 = (q.run w).1 ∧ R (p.run v).2 (q.run w).2 ∧ P (p.run v).1

section Rules
variable {α β : Type} {R : Workspace → Workspace → Prop} {P : α → Prop} {Q : β → Prop}

theorem agreePure {a : α} (h : P a) : Agree R (pure a) (pure a) P := fun _ _ related =>
  ⟨rfl, related, h⟩

theorem agreeBind {p q : Query α} {f g : α → Query β} (first : Agree R p q P)
    (later : ∀ a, P a → Agree R (f a) (g a) Q) : Agree R (p >>= f) (q >>= g) Q := by
  intro v w related
  obtain ⟨same, between, has⟩ := first v w related
  have next : ((f (p.run v).1).run (p.run v).2).1 = ((g (q.run w).1).run (q.run w).2).1 ∧
      R ((f (p.run v).1).run (p.run v).2).2 ((g (q.run w).1).run (q.run w).2).2 ∧
      Q ((f (p.run v).1).run (p.run v).2).1 := by
    rw [← same]
    exact later _ has _ _ between
  exact next

theorem agreeGet {f g : Workspace → Query β} (later : ∀ v w, R v w → Agree R (f v) (g w) Q) :
    Agree R (get >>= f) (get >>= g) Q := fun v w related => later v w related v w related

theorem agreeModify {f g : Workspace → Workspace} (h : ∀ v w, R v w → R (f v) (g w)) :
    Agree R (modify f) (modify g) (fun _ => True) := fun v w related =>
  ⟨rfl, h v w related, trivial⟩

theorem agreeOr {p q : Query (Option α)} {ps qs : List (Query (Option α))}
    (first : Agree R p q (Answers P)) (later : Agree R (firstOf ps) (firstOf qs) (Answers P)) :
    Agree R (firstOf (p :: ps)) (firstOf (q :: qs)) (Answers P) := by
  refine agreeBind first fun answer found => ?_
  cases answer with
  | none => exact later
  | some a => exact agreePure found

theorem agreeFirstOf {ps qs : List (Query (Option α))}
    (each : List.Forall₂ (fun p q => Agree R p q (Answers P)) ps qs) :
    Agree R (firstOf ps) (firstOf qs) (Answers P) := by
  induction each with
  | nil => exact agreePure answersNone
  | cons first _ ih => exact agreeOr first ih

theorem agreeFindFirst {f g : β → Query (Option α)} {items : List β}
    (each : ∀ b ∈ items, Agree R (f b) (g b) (Answers P)) :
    Agree R (findFirst f items) (findFirst g items) (Answers P) := by
  induction items with
  | nil => exact agreePure answersNone
  | cons b rest ih =>
    refine agreeBind (each b List.mem_cons_self) fun answer found => ?_
    cases answer with
    | none => exact ih fun other mem => each other (List.mem_cons_of_mem _ mem)
    | some a => exact agreePure found

theorem agreeSurely {S : α → Prop} {p q : Query α} (agree : Agree R p q P)
    (sure : ∀ v w, R v w → S (p.run v).1) : Agree R p q (fun a => P a ∧ S a) :=
  fun v w related => (agree v w related).imp_right (And.imp_right fun has => ⟨has, sure v w related⟩)

theorem agreeFirstOfSure {p q : Query (Option α)} {ps qs : List (Query (Option α))}
    (first : Agree R p q (fun a => Answers P a ∧ a.isSome = true)) :
    Agree R (firstOf (p :: ps)) (firstOf (q :: qs)) (Answers P) := by
  refine agreeBind first fun answer ⟨found, sure⟩ => ?_
  cases answer with
  | none => cases sure
  | some a => exact agreePure found

end Rules
end Query

section Places

def Workspace.declaring (w : Workspace) (id : ScopeId) (name : String) : List ScopeId :=
  (w.consulted id .deep).filter (fun at_ => !((w.store at_).candidates name).isEmpty)

theorem findSomeFilter {α β : Type} {f : α → Option β} {p : α → Bool} {items : List α}
    (nothing : ∀ x ∈ items, p x = false → f x = none) :
    items.findSome? f = (items.filter p).findSome? f := by
  induction items with
  | nil => rfl
  | cons x rest ih =>
    have later := ih fun y mem => nothing y (List.mem_cons_of_mem _ mem)
    cases pass : p x with
    | true => rw [List.filter_cons_of_pos pass, List.findSome?_cons, List.findSome?_cons, later]
    | false =>
      rw [List.filter_cons_of_neg (by simp [pass]), List.findSome?_cons,
        nothing x List.mem_cons_self pass, later]

namespace Workspace
variable {u : Workspace} {id : ScopeId} {name : String}

theorem findDeclaring {α : Type} {f : ScopeId → Option α}
    (nothing : ∀ at_, (u.store at_).candidates name = [] → f at_ = none) :
    (u.consulted id .deep).findSome? f = (u.declaring id name).findSome? f := by
  refine findSomeFilter fun at_ _ empty => nothing at_ ?_
  simpa using empty

theorem findTypeDeclaring (arity : Nat) : u.findType id .deep .exact name arity =
    (u.declaring id name).findSome? (fun at_ => (u.store at_).find name arity) := by
  have exactly : ∀ at_, (u.store at_).lookup .exact name arity = (u.store at_).find name arity :=
    fun at_ => Store.lookupExact _ _ _
  rw [findType]
  simp only [exactly]
  refine findDeclaring fun at_ empty => ?_
  rw [Store.find, empty]
  rfl

theorem consultedLasting {w : Workspace} (same : w.lasting = u.lasting) (id : ScopeId) :
    w.consulted id .deep = u.consulted id .deep := by
  have here := lastingScope same id
  have uris : w.uri id = u.uri id := congrArg Prod.fst here
  have references : (w.scope id).references = (u.scope id).references :=
    congrArg (fun lasting => lasting.2.2) here
  have counted : w.scopes.length = u.scopes.length := by
    have lengths := congrArg List.length same
    rwa [lasting, lasting, List.length_map, List.length_map] at lengths
  rw [consulted, consulted, reach, reach, counted, uris, references, visitLasting same]

theorem storeLasting {w : Workspace} (same : w.lasting = u.lasting) (id : ScopeId) :
    w.store id = u.store id := congrArg (fun lasting => lasting.2.1) (lastingScope same id)

theorem declaringLasting {w : Workspace} (same : w.lasting = u.lasting) (id : ScopeId)
    (d : Definition) : w.declaringType id d = u.declaringType id d := by
  unfold declaringType
  simp only [consultedLasting same, storeLasting same]

theorem outwardFromLasting {w : Workspace} (same : w.lasting = u.lasting) (id : ScopeId)
    (steps : Nat) (d : Definition) : w.outwardFrom id steps d = u.outwardFrom id steps d := by
  induction steps generalizing d with
  | zero => rfl
  | succ steps ih =>
    have around : w.outwardFrom id steps = u.outwardFrom id steps := funext ih
    rw [outwardFrom, outwardFrom, declaringLasting same, around]

end Workspace

section Homes

theorem startsAt (start tail : List Char) : start ∈ Dotted.starts (start ++ '.' :: tail) := by
  induction start with
  | nil => simp [Dotted.starts]
  | cons c rest ih =>
    have inside : c :: rest ∈ (Dotted.starts (rest ++ '.' :: tail)).map (c :: ·) :=
      List.mem_map.mpr ⟨rest, ih, rfl⟩
    rw [List.cons_append, Dotted.starts]
    split
    · exact List.mem_cons_of_mem _ inside
    · exact inside

theorem memEnclosing {outer s : String} :
    outer ∈ Dotted.enclosing s ↔ ∃ tail, s.toList = outer.toList ++ '.' :: tail := by
  rw [Dotted.enclosing, List.mem_map]
  constructor
  · rintro ⟨start, mem, rfl⟩
    obtain ⟨tail, whole⟩ := Dotted.startsSound (List.mem_reverse.mp mem)
    exact ⟨tail, by rw [whole, String.toList_ofList]⟩
  · rintro ⟨tail, whole⟩
    refine ⟨outer.toList, ?_, String.ofList_toList⟩
    rw [List.mem_reverse, whole]
    exact startsAt _ _

theorem enclosingTrans {inner outer s : String} (first : inner ∈ Dotted.enclosing outer)
    (second : outer ∈ Dotted.enclosing s) : inner ∈ Dotted.enclosing s := by
  rw [memEnclosing] at first second ⊢
  obtain ⟨near, outside⟩ := first
  obtain ⟨far, whole⟩ := second
  exact ⟨near ++ '.' :: far, by rw [whole, outside]; simp⟩

theorem outerEncloses {b : Body} {outer : String} (nested : b.outer = some outer) :
    outer ∈ Dotted.enclosing b.fullName := by
  rw [memEnclosing, Body.fullName, nested]
  exact ⟨b.name.toList, by simp⟩

def Definition.home? (d : Definition) : Option Declared :=
  match d.openType with
  | .declared t => some t
  | .placeholder p => some p.owner
  | .array _ => none

end Homes
end Places

section Aligned
open Query

def SameSight (u : Workspace) (a b : ScopeId) (name : String) : Prop :=
  u.declaring a name = u.declaring b name

def Clear (u : Workspace) (a b : ScopeId) (d : Definition) : Prop :=
  ∀ t, d.home? = some t → SameSight u a b t.fullName

def Homely (u : Workspace) (a b : ScopeId) (d : Definition) : Prop :=
  ∀ t, d.home? = some t → SameSight u a b t.fullName ∧
    ∀ outer ∈ Dotted.enclosing t.fullName, SameSight u a b outer

structure Vantages (u : Workspace) (a b : ScopeId) : Prop where
  left : a < u.scopes.length
  right : b < u.scopes.length
  sound : u.Stores Store.Sound

/-- `v`, where `a` is asked, and `w`, where `b` is, hold the scopes of `u` and what the same lookups
left behind. -/
structure Aligned (u : Workspace) (a b : ScopeId) (v w : Workspace) : Prop where
  left : v.lasting = u.lasting
  right : w.lasting = u.lasting
  clock : v.clock = w.clock
  links : v.links = w.links
  targets : v.targets = w.targets
  mainParts : v.mainParts = w.mainParts
  caches : (v.scope a).cache = (w.scope b).cache
  linked : ∀ d ∈ v.targets.values, Clear u a b d
  cached : ∀ d ∈ (v.scope a).cache.values, Clear u a b d

variable {u v w : Workspace} {a b : ScopeId} {d : Definition} {name : String}

theorem Homely.clear (homely : Homely u a b d) : Clear u a b d := fun t here => (homely t here).1

theorem foundSame (same : SameSight u a b name) (arity : Nat) :
    u.findType a .deep .exact name arity = u.findType b .deep .exact name arity := by
  rw [Workspace.findTypeDeclaring, Workspace.findTypeDeclaring, same]

theorem foundNamed (sound : u.Stores Store.Sound) {id : ScopeId} {arity : Nat} {t : Declared}
    (found : u.findType id .deep .exact name arity = some t) :
    t.fullName = name ∧ t.arity = arity := by
  obtain ⟨at_, -, here⟩ := List.exists_of_findSome?_eq_some found
  rw [Store.lookupExact] at here
  obtain ⟨mem, own⟩ := Store.findMem here
  exact ⟨(sound.at Store.soundEmpty at_).named name t mem, own⟩

theorem foundClear (sound : u.Stores Store.Sound) {id : ScopeId} {arity : Nat} {t : Declared}
    (same : SameSight u a b name) (found : u.findType id .deep .exact name arity = some t) :
    Clear u a b (.ofDeclared t) := by
  rintro own ⟨⟩
  rwa [(foundNamed sound found).1]

namespace Aligned

theorem lengths (aligned : Aligned u a b v w) :
    v.scopes.length = u.scopes.length ∧ w.scopes.length = u.scopes.length := by
  have counted : ∀ {x : Workspace}, x.lasting = u.lasting →
      x.scopes.length = u.scopes.length := by
    intro x same
    have lengths := congrArg List.length same
    rwa [Workspace.lasting, Workspace.lasting, List.length_map, List.length_map] at lengths
  exact ⟨counted aligned.left, counted aligned.right⟩

theorem found (aligned : Aligned u a b v w) (same : SameSight u a b name) (arity : Nat) :
    v.findType a .deep .exact name arity = u.findType a .deep .exact name arity ∧
      w.findType b .deep .exact name arity = u.findType a .deep .exact name arity := by
  rw [Workspace.findTypeLasting aligned.left, Workspace.findTypeLasting aligned.right,
    foundSame same]
  exact ⟨rfl, rfl⟩

theorem stored (aligned : Aligned u a b v w) {t : Declared} (same : SameSight u a b t.fullName) :
    v.isStored a t = w.isStored b t := by
  obtain ⟨left, right⟩ := aligned.found same t.arity
  rw [Workspace.isStored, Workspace.isStored, left, right]

theorem cachedSame (aligned : Aligned u a b v w) (key : String) (d : Definition) :
    v.isCached a key d = w.isCached b key d := by
  rw [Workspace.isCached, Workspace.isCached, aligned.caches]

theorem current (aligned : Aligned u a b v w) (clear : Clear u a b d) :
    v.isCurrent a d = w.isCurrent b d := by
  have open_ : v.isCurrentOpen a d.openType = w.isCurrentOpen b d.openType := by
    unfold Clear Definition.home? at clear
    cases open_ : d.openType with
    | declared t =>
      rw [open_] at clear
      exact aligned.stored (clear t rfl)
    | array x => rfl
    | placeholder p =>
      rw [open_] at clear
      rw [Workspace.isCurrentOpen, Workspace.isCurrentOpen, aligned.stored (clear p.owner rfl),
        aligned.cachedSame]
  cases d with
  | unbound o => exact open_
  | bound i =>
    have both : v.isCurrentOpen a i.openType = w.isCurrentOpen b i.openType := open_
    rw [Workspace.isCurrent, Workspace.isCurrent, both, aligned.cachedSame]

theorem fileSame (aligned : Aligned u a b v w) (d : Definition) :
    v.fileOf d = w.fileOf d ∧ v.locationOf d = w.locationOf d := by
  have record : ∀ t, v.recordOf t = w.recordOf t := fun t => by
    rw [Workspace.recordOf, Workspace.recordOf, Workspace.mainIndex, Workspace.mainIndex,
      aligned.mainParts]
  cases d with
  | bound i => exact ⟨rfl, rfl⟩
  | unbound o =>
    cases o with
    | declared t =>
      rw [Workspace.fileOf, Workspace.fileOf, Workspace.locationOf, Workspace.locationOf, record]
      exact ⟨rfl, rfl⟩
    | array x => exact ⟨rfl, rfl⟩
    | placeholder p => exact ⟨rfl, rfl⟩

theorem put (vantages : Vantages u a b) (aligned : Aligned u a b v w) (key : String)
    (clear : Clear u a b d) :
    Aligned u a b (v.modifyScope a (fun s => { s with cache := s.cache.put key d }))
      (w.modifyScope b (fun s => { s with cache := s.cache.put key d })) := by
  obtain ⟨counted, countedToo⟩ := aligned.lengths
  have known : a < v.scopes.length := counted ▸ vantages.left
  have knownToo : b < w.scopes.length := countedToo ▸ vantages.right
  have caches : ∀ {x : Workspace} {id}, id < x.scopes.length →
      ((x.modifyScope id (fun s => { s with cache := s.cache.put key d })).scope id).cache =
        (x.scope id).cache.put key d := fun inside => by
    rw [Workspace.scopeModify, if_pos ⟨rfl, inside⟩]
  refine ⟨?_, ?_, aligned.clock, aligned.links, aligned.targets, aligned.mainParts, ?_,
    aligned.linked, fun e mem => ?_⟩
  · exact (Workspace.viewModify Scope.lasting v a rfl).trans aligned.left
  · exact (Workspace.viewModify Scope.lasting w b rfl).trans aligned.right
  · rw [caches known, caches knownToo, aligned.caches]
  · rw [caches known] at mem
    rcases Table.valuesPut mem with rfl | old
    · exact clear
    · exact aligned.cached e old

end Aligned

def askedArity (name : String) (arguments : List TypeRef) : Nat :=
  if arguments.isEmpty then (Arity.strip name).2.getD 0 else arguments.length

theorem getTypeStripped (id : ScopeId) (depth : Depth) (rule : CaseRule) (name : String)
    (arguments : List TypeRef) : getType id depth rule name arguments = do
      match (← get).findType id depth rule (Arity.strip name).1 (askedArity name arguments) with
      | some found => return some (← instantiate id (.ofDeclared found) arguments)
      | none => return none := rfl

section
variable {id : ScopeId} {depth : Depth} {rule : CaseRule} {name : String}
  {arguments : List TypeRef} {w : Workspace}

theorem getTypeRun {t : Declared} (selected : w.findType id depth rule (Arity.strip name).1
      (askedArity name arguments) = some t) :
    (getType id depth rule name arguments).run w =
      (some ((instantiate id (.ofDeclared t) arguments).run w).1,
        ((instantiate id (.ofDeclared t) arguments).run w).2) := by
  rw [getTypeStripped, StateT.run_bind, StateT.run_get, pure_bind, selected]
  rfl

theorem getTypeMissed (missed : w.findType id depth rule (Arity.strip name).1
      (askedArity name arguments) = none) :
    (getType id depth rule name arguments).run w = (none, w) := by
  rw [getTypeStripped, StateT.run_bind, StateT.run_get, pure_bind, missed]
  rfl

theorem getTypeAnswers (id : ScopeId) (depth : Depth) (rule : CaseRule) (name : String)
    (arguments : List TypeRef) (w : Workspace) :
    ((getType id depth rule name arguments).run w).1.isSome =
      (w.findType id depth rule (Arity.strip name).1 (askedArity name arguments)).isSome := by
  cases found : w.findType id depth rule (Arity.strip name).1 (askedArity name arguments) with
  | some t =>
    rw [getTypeRun found]
    rfl
  | none =>
    rw [getTypeMissed found]
    rfl

end

def directName (r : TypeRef) : String :=
  match r.element? with
  | some element => element.core.decoratedName
  | none => r.decoratedName

theorem directCurrent (links : Links) (site : Site) (r : TypeRef) :
    directName (links.current site r) = directName r := by
  unfold Links.current
  split
  · rfl
  · rfl

section Steps
variable (vantages : Vantages u a b)

theorem freshStampAgree : Agree (Aligned u a b) freshStamp freshStamp (fun _ => True) := by
  intro v w aligned
  have clock : Stamp.at v.clock = Stamp.at w.clock := congrArg Stamp.at aligned.clock
  refine ⟨clock, ?_, trivial⟩
  have next : v.clock + 1 = w.clock + 1 := congrArg (· + 1) aligned.clock
  exact ⟨aligned.left, aligned.right, next, aligned.links, aligned.targets, aligned.mainParts,
    aligned.caches, aligned.linked, aligned.cached⟩

theorem keepTargetAgree (clear : Clear u a b d) :
    Agree (Aligned u a b) (keepTarget d) (keepTarget d) (fun _ => True) := by
  refine agreeModify fun v w aligned => ?_
  have targets : v.targets.put d.stamp d = w.targets.put d.stamp d := by rw [aligned.targets]
  refine ⟨aligned.left, aligned.right, aligned.clock, aligned.links, targets, aligned.mainParts,
    aligned.caches, fun e mem => ?_, aligned.cached⟩
  rcases Table.valuesPut mem with rfl | old
  · exact clear
  · exact aligned.linked e old

theorem writeLinkAgree (site : Site) (link : Option Stamp) :
    Agree (Aligned u a b) (writeLink site link) (writeLink site link) (fun _ => True) := by
  refine agreeModify fun v w aligned => ?_
  have links : v.links.put site link = w.links.put site link := by rw [aligned.links]
  exact ⟨aligned.left, aligned.right, aligned.clock, links, aligned.targets, aligned.mainParts,
    aligned.caches, aligned.linked, aligned.cached⟩

theorem linkAtAgree (site : Site) (clear : Clear u a b d) :
    Agree (Aligned u a b) (linkAt site d) (linkAt site d) (fun _ => True) :=
  agreeBind (keepTargetAgree clear) fun _ _ => writeLinkAgree site _

theorem linkToAgree (r : TypeRef) (clear : Clear u a b d) :
    Agree (Aligned u a b) (linkTo r d) (linkTo r d) (fun _ => True) :=
  agreeBind (keepTargetAgree clear) fun _ _ => agreePure trivial

theorem cachedAgree (key : String) :
    Agree (Aligned u a b) (cached? a key) (cached? b key) (Answers (Clear u a b)) := by
  refine agreeGet fun v w aligned => ?_
  rw [← aligned.caches]
  exact agreePure fun e found => aligned.cached e (Table.valueOfGet found)

include vantages

theorem rememberAgree (key : String) (clear : Clear u a b d) :
    Agree (Aligned u a b) (remember a key d) (remember b key d) (fun _ => True) :=
  agreeModify fun _ _ aligned => aligned.put vantages key clear

theorem instantiateAgree (clear : Clear u a b d) (arguments : List TypeRef) :
    Agree (Aligned u a b) (instantiate a d arguments) (instantiate b d arguments)
      (Clear u a b) := by
  cases d with
  | bound i => exact agreePure clear
  | unbound o =>
    simp only [instantiate]
    by_cases bare : arguments.isEmpty = true
    · rw [if_pos bare, if_pos bare]
      exact agreePure clear
    · rw [if_neg bare, if_neg bare]
      refine agreeBind (cachedAgree _) fun known found => ?_
      cases known with
      | some d => exact agreePure (found d rfl)
      | none =>
        refine agreeBind freshStampAgree fun stamp _ => agreeGet fun v w aligned => ?_
        have body : w.bodyOf (.unbound o) = v.bodyOf (.unbound o) := by
          rw [Workspace.bodyOf, Workspace.bodyOf, aligned.links]
        rw [body]
        have made : Clear u a b (.bound (Instantiation.of stamp o (v.bodyOf (.unbound o)) arguments)) :=
          fun t here => clear t here
        exact agreeBind (rememberAgree vantages _ made) fun _ _ => agreePure made

theorem placeholderAgree {owner : Declared} (same : SameSight u a b owner.fullName)
    (parameter : TypeParameter) :
    Agree (Aligned u a b) (placeholder a owner parameter) (placeholder b owner parameter)
      (Clear u a b) := by
  refine agreeBind (cachedAgree _) fun known found => ?_
  cases known with
  | some d => exact agreePure (found d rfl)
  | none =>
    refine agreeBind freshStampAgree fun stamp _ => agreeGet fun v w aligned => ?_
    obtain ⟨file, location⟩ := aligned.fileSame (.ofDeclared owner)
    rw [← file, ← location]
    have made : ∀ file location, Clear u a b
        (.unbound (.placeholder ⟨stamp, owner, parameter, file, location⟩)) := by
      rintro file location t ⟨⟩
      exact same
    exact agreeBind (rememberAgree vantages _ (made _ _)) fun _ _ => agreePure (made _ _)

theorem parameterNamedAgree (clear : Clear u a b d) (rule : CaseRule) (name : String) :
    Agree (Aligned u a b) (parameterNamed a d rule name) (parameterNamed b d rule name)
      (Answers (Clear u a b)) := by
  unfold parameterNamed
  split
  · rename_i owner open_
    have same := clear owner (by rw [Definition.home?, open_])
    split
    · exact agreeBind (placeholderAgree vantages same _) fun _ here => agreePure (answersSome here)
    · exact agreePure answersNone
  · exact agreePure answersNone

theorem getTypeAgree (name : String) (same : SameSight u a b (Arity.strip name).1)
    (arguments : List TypeRef) :
    Agree (Aligned u a b) (getType a .deep .exact name arguments)
      (getType b .deep .exact name arguments) (Answers (Clear u a b)) := by
  rw [getTypeStripped, getTypeStripped]
  refine agreeGet fun v w aligned => ?_
  obtain ⟨left, right⟩ := aligned.found same (askedArity name arguments)
  rw [left, right]
  split
  · rename_i t found
    have clear := foundClear vantages.sound same found
    exact agreeBind (instantiateAgree vantages clear arguments) fun _ here =>
      agreePure (answersSome here)
  · exact agreePure answersNone

theorem lookupCoreAgree (r : TypeRef) (same : SameSight u a b (Arity.strip r.decoratedName).1) :
    Agree (Aligned u a b) (lookupCore a r) (lookupCore b r)
      (fun answer => Answers (Clear u a b) answer.1) := by
  refine agreeGet fun v w aligned => ?_
  have believed : (w.linked r).filter (w.isCurrent b) = (v.linked r).filter (v.isCurrent a) := by
    rw [Workspace.linked, Workspace.linked, ← aligned.targets]
    cases target : r.link.bind v.targets.get? with
    | none => rfl
    | some d =>
      obtain ⟨stamp, -, kept⟩ := Option.bind_eq_some_iff.mp target
      have clear := aligned.linked d (Table.valueOfGet kept)
      simp only [Option.filter, aligned.current clear]
  rw [believed]
  split
  · rename_i d here
    obtain ⟨linked, -⟩ := Option.filter_eq_some_iff.mp here
    obtain ⟨stamp, -, kept⟩ := Option.bind_eq_some_iff.mp linked
    exact agreePure (answersSome (aligned.linked d (Table.valueOfGet kept)))
  · refine agreeBind (getTypeAgree vantages _ same _) fun answer found => ?_
    cases answer with
    | none => exact agreePure answersNone
    | some d =>
      have keptAt : ∀ made, Clear u a b made → Agree (Aligned u a b)
          (linkTo r made >>= fun linked => pure (some made, linked))
          (linkTo r made >>= fun linked => pure (some made, linked))
          (fun answer => Answers (Clear u a b) answer.1) := fun made clear =>
        agreeBind (linkToAgree r clear) fun _ _ => agreePure (answersSome clear)
      dsimp only
      split
      · exact keptAt d (found d rfl)
      · exact agreeBind (instantiateAgree vantages (found d rfl) _) keptAt

theorem arrayOfAgree (element : TypeRef)
    (same : SameSight u a b (Arity.strip element.core.decoratedName).1) :
    Agree (Aligned u a b) (arrayOf a element) (arrayOf b element)
      (fun answer => Clear u a b answer.1) := by
  refine agreeBind (lookupCoreAgree vantages _ same) fun answer _ => ?_
  obtain ⟨found, core⟩ := answer
  refine agreeGet fun v w aligned => ?_
  have file : found.bind w.fileOf = found.bind v.fileOf := by
    cases found with
    | none => rfl
    | some d => exact (aligned.fileSame d).1.symm
  dsimp only
  rw [file]
  exact agreeBind freshStampAgree fun stamp _ => agreePure fun t here => nomatch here

theorem lookupAgree (r : TypeRef) (same : SameSight u a b (Arity.strip (directName r)).1) :
    Agree (Aligned u a b) (lookup a r) (lookup b r)
      (fun answer => Answers (Clear u a b) answer.1) := by
  unfold lookup
  unfold directName at same
  split
  · rename_i element ranked
    rw [ranked] at same
    exact agreeBind (arrayOfAgree vantages element same) fun _ made =>
      agreePure (answersSome made)
  · rename_i bare
    rw [bare] at same
    exact lookupCoreAgree vantages r same

theorem lookupAtAgree (site : Site) (r : TypeRef)
    (same : SameSight u a b (Arity.strip (directName r)).1) :
    Agree (Aligned u a b) (lookupAt a site r) (lookupAt b site r) (Answers (Clear u a b)) := by
  refine agreeGet fun v w aligned => ?_
  rw [← aligned.links]
  rw [← directCurrent v.links site r] at same
  refine agreeBind (lookupAgree vantages _ same) fun answer clear => ?_
  obtain ⟨found, after⟩ := answer
  dsimp only
  split
  · exact agreeBind (writeLinkAgree site _) fun _ _ => agreePure clear
  · exact agreePure clear

end Steps
end Aligned
end TypeScope
