import TypeScope.Proofs.Refetching

/-! What fetching a definition again leaves as it was: the full name, and of a type in fragments the
file and location of record. Only an instantiation may come back under another name, since the key
that it is fetched by is one text, in which a bracket ends the name and an exclamation mark tells a
type parameter. -/
namespace TypeScope

section Names
variable {name name' : String} {arguments arguments' : List TypeRef}

theorem keyNames (same : Instantiation.keyFor name arguments =
    Instantiation.keyFor name' arguments') :
    name = name' ∨ '[' ∈ name.toList ∨ '[' ∈ name'.toList := by
  by_contra other
  simp only [not_or] at other
  exact other.1 (keyCut other.2.1 other.2.2 same).1

theorem placeholderKeyNames {parameter : String}
    (same : Placeholder.keyFor name parameter = Instantiation.keyFor name' arguments) :
    '[' ∈ name.toList ∨ '[' ∈ name'.toList ∨ (TypeRef.listed arguments).toList.head? = some '!' := by
  by_contra other
  simp only [not_or] at other
  have texts := congrArg String.toList same
  have whole : (Placeholder.keyFor name parameter).toList =
      name.toList ++ '[' :: ('!' :: (parameter.toList ++ [']'])) := by simp [Placeholder.keyFor]
  have bracket : ∀ {rest : List Char}, ∀ c ∈ ('[' :: rest).head?, c = '[' := fun c head =>
    (Option.some.inj head).symm
  rw [whole, keyChars] at texts
  obtain ⟨-, behind⟩ := cutAt other.1 other.2.1 bracket bracket texts
  cases listed : (TypeRef.listed arguments).toList with
  | nil => simp [listed] at behind
  | cons c rest =>
    have first : c = '!' := by
      rw [listed] at behind
      exact (List.cons.inj (List.cons.inj behind).2).1.symm
    exact other.2.2 (by rw [listed, first]; rfl)

def Definition.filedUnder : Definition → String
  | .bound i => i.openType.fullName
  | .unbound (.placeholder p) => p.owner.fullName
  | .unbound o => o.fullName

structure Instantiation.Overtaken (i : Instantiation) (e : Definition) : Prop where
  keyed : e.key? = some i.key
  ambiguous : '[' ∈ i.openType.fullName.toList ∨ '[' ∈ e.filedUnder.toList ∨
    (TypeRef.listed i.arguments).toList.head? = some '!'

theorem Instantiation.overtakenOr {i : Instantiation} {e : Definition} (keyed : e.key? = some i.key) :
    e.fullName = i.openType.fullName ∨ i.Overtaken e := by
  cases e with
  | bound j =>
    have same : j.key = i.key := Option.some.inj keyed
    rcases keyNames same with names | own | others
    · exact .inl names
    · exact .inr ⟨keyed, .inr (.inl own)⟩
    · exact .inr ⟨keyed, .inl others⟩
  | unbound o =>
    cases o with
    | declared t => cases keyed
    | array a => cases keyed
    | placeholder p =>
      have same : p.key = i.key := Option.some.inj keyed
      rcases placeholderKeyNames same with owner | own | arguments
      · exact .inr ⟨keyed, .inr (.inl owner)⟩
      · exact .inr ⟨keyed, .inl own⟩
      · exact .inr ⟨keyed, .inr (.inr arguments)⟩

end Names

namespace Query
variable {v w : Workspace} {id : ScopeId} {d e : Definition}

theorem refetchBound (id : ScopeId) (i : Instantiation) (w : Workspace) :
    (refetch id (.bound i)).run w = (.bound i, w) ∨
      ∃ t, w.findType id .deep .exact i.openType.fullName i.openType.arity = some t ∧
        (refetch id (.bound i)).run w =
          (instantiate id (.ofDeclared t) (i.currentArguments w.links)).run w := by
  by_cases missed : (Definition.bound i).isApart = true ∨
      w.findType id .deep .exact (Definition.bound i).fullName (Definition.bound i).arity = none
  · exact .inl (refetchMissed missed)
  obtain ⟨stored, missing⟩ := not_or.mp missed
  obtain ⟨t, found⟩ := Option.ne_none_iff_exists'.mp missing
  refine .inr ⟨t, found, ?_⟩
  unfold refetch
  rw [if_neg (by exact stored), StateT.run_bind, StateT.run_get, pure_bind, found]
  rfl

theorem answerNamed (sound : w.Stores Store.Sound) (filed : Filed w) (id : ScopeId)
    (d : Definition) : ((refetch id d).run w).1.fullName = d.fullName ∨
      ∃ i, d = .bound i ∧ i.Overtaken ((refetch id d).run w).1 := by
  cases d with
  | unbound o =>
    cases o with
    | declared t =>
      obtain ⟨s, answer, named⟩ := refetchNamed sound id t
      exact .inl (answer ▸ named)
    | array a => exact .inl rfl
    | placeholder p => exact .inl rfl
  | bound i =>
    rcases refetchBound id i w with same | ⟨t, found, run⟩
    · exact .inl (congrArg (fun answer => answer.1.fullName) same)
    rw [run]
    have named := (foundNamed sound found).1
    by_cases bare : i.currentArguments w.links = []
    · rw [bare]
      exact .inl named
    · have bound := instantiateBound filed (openedOfFound found) t bare
      have keyed := (bound.grown.filed.entries id _ _ bound.filed).1
      have key : Instantiation.keyFor t.fullName (i.currentArguments w.links) = i.key := by
        rw [Instantiation.keyFor, listedCurrent, named]
        rfl
      rcases Instantiation.overtakenOr (key ▸ keyed) with same | other
      · exact .inl same
      · exact .inr ⟨i, rfl, other⟩

section Records

def Retraces (w : Workspace) (d e : Definition) : Prop :=
  ∃ old new p, d.compound? = some old ∧ e.compound? = some new ∧ p ∈ new.parts ∧
    p.body.file = w.fileOf d ∧ p.body.location = w.locationOf d

def RecordKept (w : Workspace) (d : Definition) (answer : Definition × Workspace) : Prop :=
  (Retraces w d answer.1 → answer.2.fileOf answer.1 = w.fileOf d ∧
      answer.2.locationOf answer.1 = w.locationOf d) ∧
    (¬ Retraces w d answer.1 → answer.2.mainParts = w.mainParts)

theorem recordUnmoved (same : v.mainParts = w.mainParts) (apart : ¬ Retraces w d e) :
    RecordKept w d (e, v) := ⟨fun retraces => absurd retraces apart, fun _ => same⟩

theorem retracesDeclared {t new : Declared} : Retraces w (.ofDeclared t) (.ofDeclared new) ↔
    t.isCompound = true ∧ new.isCompound = true ∧ ∃ p ∈ new.parts,
      p.body.file = (w.recordOf t).body.file ∧ p.body.location = (w.recordOf t).body.location := by
  have compound : ∀ d : Declared,
      (Definition.ofDeclared d).compound? = if d.isCompound then some d else none := fun _ => rfl
  constructor
  · rintro ⟨old, _, p, was, is_, mem, file, location⟩
    rw [compound] at was is_
    split at was <;> try contradiction
    split at is_ <;> try contradiction
    cases is_
    exact ⟨by assumption, by assumption, p, mem, file, location⟩
  · rintro ⟨was, is_, p, mem, file, location⟩
    exact ⟨t, new, p, by rw [compound, if_pos was], by rw [compound, if_pos is_], mem, file, location⟩

theorem chosenRecord {t : Declared} {i : Nat} (small : i < t.parts.length) :
    ({ w with mainParts := w.mainParts.put t.stamp i } : Workspace).recordOf t = t.parts[i] := by
  have index : ({ w with mainParts := w.mainParts.put t.stamp i } : Workspace).mainIndex t = i := by
    rw [Workspace.mainIndex, Table.getPut, if_pos rfl]
    rfl
  have least : min i (t.parts.length - 1) = i := by omega
  rw [Workspace.recordOf, index, Declared.mainPart?, least, List.getElem?_eq_getElem small]
  rfl

theorem rechosenKept (t new : Declared) (w : Workspace) :
    RecordKept w (.ofDeclared t) (.ofDeclared new, rechosen t new w) := by
  rw [rechosen]
  split
  · rename_i both
    obtain ⟨was, is_⟩ := Bool.and_eq_true_iff.mp both
    rw [Workspace.chooseMain]
    cases chosen : new.parts.findIdx? (fun p => p.body.file == (w.recordOf t).body.file &&
        p.body.location == (w.recordOf t).body.location) with
    | none =>
      refine recordUnmoved rfl fun retraces => ?_
      obtain ⟨-, -, p, mem, file, location⟩ := retracesDeclared.mp retraces
      have differs := List.findIdx?_eq_none_iff.mp chosen p mem
      simp [file, location] at differs
    | some i =>
      obtain ⟨small, stands, -⟩ := List.findIdx?_eq_some_iff_getElem.mp chosen
      simp only [Bool.and_eq_true, beq_iff_eq] at stands
      have record := chosenRecord (w := w) small
      refine ⟨fun _ => ?_, fun apart => absurd (retracesDeclared.mpr ?_) apart⟩
      · exact ⟨(congrArg (fun p => p.body.file) record).trans stands.1,
          (congrArg (fun p => p.body.location) record).trans stands.2⟩
      · exact ⟨was, is_, _, List.getElem_mem small, stands⟩
  · rename_i single
    refine recordUnmoved rfl fun retraces => single ?_
    obtain ⟨was, is_, -⟩ := retracesDeclared.mp retraces
    rw [was, is_]
    rfl

theorem instantiateRecords (id : ScopeId) (t : Declared) (arguments : List TypeRef)
    (w : Workspace) :
    ((instantiate id (.ofDeclared t) arguments).run w).2.mainParts = w.mainParts := by
  by_cases bare : arguments = []
  · rw [bare]
    rfl
  · rw [Definition.ofDeclared, instantiateRun id w _ bare]
    split <;> rfl

theorem refetchRecords (id : ScopeId) (d : Definition) (w : Workspace) :
    RecordKept w d ((refetch id d).run w) := by
  have stays : RecordKept w d (d, w) := ⟨fun _ => ⟨rfl, rfl⟩, fun _ => rfl⟩
  cases d with
  | unbound o =>
    cases o with
    | declared t =>
      have run := refetchRun id t w
      cases found : w.findType id .deep .exact t.fullName t.arity with
      | none =>
        rw [found] at run
        exact run ▸ stays
      | some new =>
        rw [found] at run
        exact run ▸ rechosenKept t new w
    | array a => exact stays
    | placeholder p => exact stays
  | bound i =>
    rcases refetchBound id i w with same | ⟨t, -, run⟩
    · exact same ▸ stays
    · rw [run]
      refine recordUnmoved (instantiateRecords id t _ w) ?_
      rintro ⟨old, new, p, was, -⟩
      cases was

end Records

/-- In every state that events bring about, a definition fetched again, outdated or not, is fetched
as the same object from then on. It has the full name of what was given, unless that is an
instantiation whose key is that of something else; and it is recorded to stand where that was
recorded to stand, if one of its fragments does. -/
theorem refetchStable (events : List Event) (id : ScopeId) (d : Definition) :
    let w := (Session.run events).workspace
    let first := (refetch id d).run w
    ((refetch id first.1).run first.2).1 = first.1 ∧
      (first.1.fullName = d.fullName ∨ ∃ i, d = .bound i ∧ i.Overtaken first.1) ∧
      RecordKept w d first := by
  intro w first
  have sound := Session.storesSound events
  have filed := Session.filed events
  exact ⟨refetchedAgain sound filed (Session.instancesFilled events) rfl,
    answerNamed sound filed id d, refetchRecords id d w⟩

def boxLoading : List Event :=
  [.opens "app",
    .writes ⟨⟨0⟩, "Box.cs", [],
      [{ Blueprint.bare "App.Box" .classType with typeParameters := [⟨"T", []⟩] }]⟩,
    .ingests 0 0]

def boxDropped (d : Definition) : List Event :=
  boxLoading ++
    [.asks 0 (.typeNamed .deep .exact "App.Box" [TypeRef.named "][x.Y"]), .asks 0 (.forget d)]

def arrayAfter (events : List Event) : Definition :=
  ((arrayOf 0 (TypeRef.named "App.Box")).run (Session.run events).workspace).1.1

def boxOvertaken (d : Definition) : List Event :=
  boxDropped d ++ [.asks 0 (.array (TypeRef.named "App.Box")),
    .asks 0 (.instanceOf (arrayAfter (boxDropped d)) [TypeRef.named "x.Y"])]

theorem refetchRenamed : ∃ d,
    ((getType 0 .deep .exact "App.Box" [TypeRef.named "][x.Y"]).run
      (Session.run boxLoading).workspace).1 = some d ∧ d.fullName = "App.Box" ∧
    ((refetch 0 d).run (Session.run (boxOvertaken d)).workspace).1.fullName = "App.Box[]" := by
  have answers : ((getType 0 .deep .exact "App.Box" [TypeRef.named "][x.Y"]).run
      (Session.run boxLoading).workspace).1.any (fun d => d.fullName = "App.Box" ∧
        ((refetch 0 d).run (Session.run (boxOvertaken d)).workspace).1.fullName =
          "App.Box[]") = true := by decide +kernel
  obtain ⟨d, found, names⟩ := (Option.any_eq_true _ _).mp answers
  exact ⟨d, found, of_decide_eq_true names⟩

end Query
end TypeScope
