import TypeScope.Workspace

/-! What a query keeps. A property of workspaces that holds before each step holds after the query,
and the answer has a property of its own. -/
namespace TypeScope.Query

theorem runThrough {α β : Type} {q : Query α} {f : α → Query β} {w after : Workspace} {a : α}
    (run : q.run w = (a, after)) : (q >>= f).run w = (f a).run after := by
  rw [StateT.run_bind, run]
  rfl

theorem answered {α : Type} {run : Option α × Workspace} (found : run.1.isSome = true) :
    ∃ a after, run = (some a, after) := by
  obtain ⟨answer, after⟩ := run
  obtain ⟨a, rfl⟩ := Option.isSome_iff_exists.mp found
  exact ⟨a, after, rfl⟩

def Keeps {α : Type} (I : Workspace → Prop) (q : Query α) (P : α → Prop) : Prop :=
  ∀ w, I w → I (q.run w).2 ∧ P (q.run w).1

variable {α β : Type} {I : Workspace → Prop} {P : α → Prop} {Q : β → Prop}

theorem keepsPure {a : α} (h : P a) : Keeps I (pure a) P := fun _ inside => ⟨inside, h⟩

theorem keepsBind {q : Query α} {next : α → Query β} (first : Keeps I q P)
    (later : ∀ a, P a → Keeps I (next a) Q) : Keeps I (q >>= next) Q := by
  intro w inside
  obtain ⟨between, answer⟩ := first w inside
  exact later _ answer _ between

theorem keepsGet {next : Workspace → Query β} (later : ∀ w, I w → Keeps I (next w) Q) :
    Keeps I (get >>= next) Q := fun w inside => later w inside w inside

theorem keepsWiden {R : α → Prop} {q : Query α} (h : Keeps I q P) (within : ∀ a, P a → R a) :
    Keeps I q R := fun w inside => ⟨(h w inside).1, within _ (h w inside).2⟩

theorem keepsMap {f : α → β} {q : Query α} (h : Keeps I q P) (mapped : ∀ a, P a → Q (f a)) :
    Keeps I (f <$> q) Q := fun w inside => ⟨(h w inside).1, mapped _ (h w inside).2⟩

theorem keepsModify {f : Workspace → Workspace} (h : ∀ w, I w → I (f w)) :
    Keeps I (modify f) (fun _ => True) := fun w inside => ⟨h w inside, trivial⟩

def Answers (P : α → Prop) (answer : Option α) : Prop := ∀ a, answer = some a → P a

theorem answersNone : Answers P none := fun _ h => by cases h

theorem answersSome {a : α} (h : P a) : Answers P (some a) := fun _ same => by
  cases same
  exact h

theorem bothOrNeither {γ : Type} {f : α → γ} {g : β → γ} {a : Option α} {b : Option β}
    (same : a.map f = b.map g) :
    a = none ∧ b = none ∨ ∃ x y, a = some x ∧ b = some y ∧ f x = g y := by
  cases a with
  | none =>
    cases b with
    | none => exact .inl ⟨rfl, rfl⟩
    | some y => cases same
  | some x =>
    cases b with
    | none => cases same
    | some y => exact .inr ⟨x, y, rfl, rfl, Option.some.inj same⟩

theorem keepsFirstOf {queries : List (Query (Option α))}
    (each : ∀ q ∈ queries, Keeps I q (Answers P)) : Keeps I (firstOf queries) (Answers P) := by
  induction queries with
  | nil => exact keepsPure answersNone
  | cons q rest ih =>
    refine keepsBind (each q List.mem_cons_self) fun answer found => ?_
    cases answer with
    | none => exact ih fun other mem => each other (List.mem_cons_of_mem _ mem)
    | some a => exact keepsPure found

theorem keepsFindFirst {f : β → Query (Option α)} {items : List β}
    (each : ∀ b ∈ items, Keeps I (f b) (Answers P)) : Keeps I (findFirst f items) (Answers P) := by
  induction items with
  | nil => exact keepsPure answersNone
  | cons b rest ih =>
    refine keepsBind (each b List.mem_cons_self) fun answer found => ?_
    cases answer with
    | none => exact ih fun other mem => each other (List.mem_cons_of_mem _ mem)
    | some a => exact keepsPure found

end TypeScope.Query
