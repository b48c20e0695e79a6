import TypeScope.Workspace
import Mathlib.Data.List.Nodup
import Mathlib.Data.List.Perm.Subperm
import Mathlib.Data.List.TakeWhile
import Mathlib.Logic.Relation

/-! The scopes that a deep lookup consults. When the uris of what can be reached tell the scopes
apart, these are all scopes that can be reached, each once. -/
namespace TypeScope

theorem dropWhileSplit {α : Type} (items : List α) (p : α → Bool) :
    ∃ early, items = early ++ items.dropWhile p ∧ (∀ x ∈ early, p x = true) ∧
      ∀ next ∈ (items.dropWhile p).head?, p next = false := by
  refine ⟨_, List.takeWhile_append_dropWhile.symm, fun _ => List.mem_takeWhile_imp, ?_⟩
  intro next first
  have fails := List.head?_dropWhile_not p items
  rw [first] at fails
  exact fails

theorem dropWhileHead {α : Type} {p : α → Bool} {items rest : List α} {next : α}
    (cut : items.dropWhile p = next :: rest) : p next = false ∧ next ∈ items ∧
      (∀ x ∈ rest, x ∈ items) ∧ ∀ x ∈ items, p x = true ∨ x = next ∨ x ∈ rest := by
  obtain ⟨early, whole, passed, fails⟩ := dropWhileSplit items p
  rw [cut] at whole fails
  refine ⟨fails next rfl, ?_, fun x mem => ?_, fun x mem => ?_⟩
  · rw [whole]
    exact List.mem_append_right _ List.mem_cons_self
  · rw [whole]
    exact List.mem_append_right _ (List.mem_cons_of_mem _ mem)
  · rw [whole] at mem
    exact (List.mem_append.mp mem).imp (passed x) List.mem_cons.mp

namespace Workspace

def Refers (w : Workspace) (a b : ScopeId) : Prop := b ∈ (w.scope a).references

def Reaches (w : Workspace) : ScopeId → ScopeId → Prop := Relation.ReflTransGen w.Refers

structure Apart (w : Workspace) (id : ScopeId) : Prop where
  known : ∀ x, w.Reaches id x → x < w.scopes.length
  uris : ∀ x y, w.Reaches id x → w.Reaches id y → w.uri x = w.uri y → x = y

variable {w : Workspace} {id : ScopeId}

theorem Reaches.stays {p : ScopeId → Prop} (start : p id)
    (onward : ∀ x, p x → ∀ y ∈ (w.scope x).references, p y) {x : ScopeId}
    (reached : w.Reaches id x) : p x := by
  induction reached with
  | refl => exact start
  | tail _ refers ih => exact onward _ ih _ refers

theorem Apart.below (apart : w.Apart id) {other : ScopeId} (reached : w.Reaches id other) :
    w.Apart other where
  known x later := apart.known x (reached.trans later)
  uris x y left right := apart.uris x y (reached.trans left) (reached.trans right)

theorem onceAll {seen : List ScopeId} {n : Nat} (once : seen.Nodup) (below : ∀ x ∈ seen, x < n)
    (full : n ≤ seen.length) {x : ScopeId} (known : x < n) : x ∈ seen := by
  have inside : seen ⊆ List.range n := fun x mem => List.mem_range.mpr (below x mem)
  have all := (List.subperm_of_subset once inside).perm_of_length_le (by rwa [List.length_range])
  exact all.mem_iff.mpr (List.mem_range.mpr known)

def explore (w : Workspace) (line : List ScopeId → List ScopeId → List ScopeId) :
    Nat → List String → List ScopeId → List ScopeId
  | 0, _, _ => []
  | steps + 1, visited, waiting =>
      match waiting.dropWhile (fun id => visited.contains (w.uri id)) with
      | [] => []
      | id :: rest =>
          id :: explore w line steps (w.uri id :: visited) (line rest (w.scope id).references)

theorem visitExplores (w : Workspace) (steps : Nat) (visited : List String)
    (queue : List ScopeId) :
    w.visit steps visited queue = w.explore (· ++ ·) steps visited queue := by
  induction steps generalizing visited queue with
  | zero => rfl
  | succ steps ih =>
    rw [visit, explore]
    cases queue.dropWhile (fun id => visited.contains (w.uri id)) with
    | nil => rfl
    | cons id rest => exact congrArg (id :: ·) (ih ..)

section Explore
variable {line : List ScopeId → List ScopeId → List ScopeId} {seen waiting : List ScopeId}

structure Exploring (w : Workspace) (id : ScopeId) (seen waiting : List ScopeId) : Prop where
  reached : ∀ x ∈ seen ++ waiting, w.Reaches id x
  once : seen.Nodup

theorem Exploring.visited (apart : w.Apart id) (exploring : w.Exploring id seen waiting)
    {x : ScopeId} (here : w.Reaches id x) :
    (seen.map w.uri).contains (w.uri x) = true ↔ x ∈ seen := by
  rw [List.contains_iff_mem]
  refine ⟨fun met => ?_, fun mem => List.mem_map.mpr ⟨x, mem, rfl⟩⟩
  obtain ⟨y, mem, same⟩ := List.mem_map.mp met
  exact apart.uris y x (exploring.reached y (List.mem_append_left _ mem)) here same ▸ mem

theorem Exploring.full (apart : w.Apart id) (exploring : w.Exploring id seen waiting)
    (full : w.scopes.length ≤ seen.length) {x : ScopeId} (here : w.Reaches id x) : x ∈ seen :=
  onceAll exploring.once
    (fun y mem => apart.known y (exploring.reached y (List.mem_append_left _ mem))) full
    (apart.known x here)

theorem Exploring.next (apart : w.Apart id) (exploring : w.Exploring id seen waiting)
    (every : ∀ {rest more x}, x ∈ line rest more ↔ x ∈ rest ∨ x ∈ more) {next : ScopeId}
    {rest : List ScopeId}
    (cut : waiting.dropWhile (fun x => (seen.map w.uri).contains (w.uri x)) = next :: rest) :
    w.Reaches id next ∧ next ∉ seen ∧
      w.Exploring id (next :: seen) (line rest (w.scope next).references) := by
  obtain ⟨fresh, here, left, -⟩ := dropWhileHead cut
  have waits : ∀ x ∈ waiting, w.Reaches id x := fun x mem =>
    exploring.reached x (List.mem_append_right _ mem)
  have unseen : next ∉ seen := fun mem => by
    rw [(exploring.visited apart (waits next here)).mpr mem] at fresh
    cases fresh
  refine ⟨waits next here, unseen, ?_, List.nodup_cons.mpr ⟨unseen, exploring.once⟩⟩
  intro x mem
  rcases List.mem_append.mp mem with old | new
  · rcases List.mem_cons.mp old with rfl | old
    · exact waits x here
    · exact exploring.reached x (List.mem_append_left _ old)
  · rcases every.mp new with old | new
    · exact waits x (left x old)
    · exact (waits next here).tail new

theorem exploreCloses (apart : w.Apart id)
    (every : ∀ {rest more x}, x ∈ line rest more ↔ x ∈ rest ∨ x ∈ more) (steps : Nat)
    (exploring : w.Exploring id seen waiting) (enough : w.scopes.length ≤ steps + seen.length) :
    let met := w.explore line steps (seen.map w.uri) waiting
    (∀ x ∈ met, w.Reaches id x) ∧ (seen ++ met).Nodup ∧ (∀ x ∈ waiting, x ∈ seen ++ met) ∧
      ∀ x ∈ met, ∀ y ∈ (w.scope x).references, y ∈ seen ++ met := by
  have waits : ∀ {x}, x ∈ waiting → w.Reaches id x := fun mem =>
    exploring.reached _ (List.mem_append_right _ mem)
  induction steps generalizing seen waiting with
  | zero =>
    simp only [explore, List.append_nil]
    have full : w.scopes.length ≤ seen.length := by omega
    refine ⟨fun x mem => ?_, exploring.once, fun x mem => exploring.full apart full (waits mem),
      fun x mem => ?_⟩
    · cases mem
    · cases mem
  | succ steps ih =>
    unfold explore
    split
    · rename_i empty
      rw [List.dropWhile_eq_nil_iff] at empty
      simp only [List.append_nil]
      refine ⟨fun x mem => ?_, exploring.once, fun x mem => ?_, fun x mem => ?_⟩
      · cases mem
      · exact (exploring.visited apart (waits mem)).mp (empty x mem)
      · cases mem
    · rename_i next rest cut
      obtain ⟨here, unseen, later⟩ := exploring.next apart every cut
      obtain ⟨-, -, -, parts⟩ := dropWhileHead cut
      obtain ⟨sound, nodup, queued, closed⟩ := ih later (by rw [List.length_cons]; omega)
        fun mem => later.reached _ (List.mem_append_right _ mem)
      rw [List.map_cons] at sound nodup queued closed
      -- the scope met now stands before what was seen in one list and behind it in the other
      have moved : ∀ {met : List ScopeId},
          (next :: seen ++ met).Perm (seen ++ next :: met) := List.perm_middle.symm
      refine ⟨fun x mem => ?_, moved.nodup_iff.mp nodup, fun x mem => ?_, fun x mem y refers => ?_⟩
      · rcases List.mem_cons.mp mem with rfl | mem
        · exact here
        · exact sound x mem
      · rw [← moved.mem_iff]
        rcases parts x mem with met | rfl | rest_
        · have old := (exploring.visited apart (waits mem)).mp met
          exact List.mem_append_left _ (List.mem_cons_of_mem _ old)
        · exact List.mem_append_left _ List.mem_cons_self
        · exact queued x (every.mpr (.inl rest_))
      · rw [← moved.mem_iff]
        rcases List.mem_cons.mp mem with rfl | mem
        · exact queued y (every.mpr (.inr refers))
        · exact closed x mem y refers

theorem exploreEnds (apart : w.Apart id)
    (every : ∀ {rest more x}, x ∈ line rest more ↔ x ∈ rest ∨ x ∈ more) (steps more : Nat)
    (exploring : w.Exploring id seen waiting) (enough : w.scopes.length ≤ steps + seen.length) :
    w.explore line (steps + more) (seen.map w.uri) waiting =
      w.explore line steps (seen.map w.uri) waiting := by
  induction steps generalizing seen waiting with
  | zero =>
    have full : w.scopes.length ≤ seen.length := by omega
    have done : waiting.dropWhile (fun x => (seen.map w.uri).contains (w.uri x)) = [] := by
      rw [List.dropWhile_eq_nil_iff]
      intro x mem
      have here := exploring.reached x (List.mem_append_right _ mem)
      exact (exploring.visited apart here).mpr (exploring.full apart full here)
    cases more with
    | zero => rfl
    | succ more => simp only [explore, done]
  | succ steps ih =>
    rw [Nat.succ_add]
    unfold explore
    split
    · rfl
    · rename_i next rest cut
      obtain ⟨-, -, later⟩ := exploring.next apart every cut
      have same := ih later (by rw [List.length_cons]; omega)
      rw [List.map_cons] at same
      rw [same]

end Explore

theorem exploringRefers (w : Workspace) (id : ScopeId) :
    w.Exploring id [id] (w.scope id).references := by
  refine ⟨fun x mem => ?_, List.nodup_singleton id⟩
  rcases List.mem_append.mp mem with own | refers
  · rw [List.mem_singleton.mp own]
    exact .refl
  · exact .single refers

theorem consultedReached (apart : w.Apart id) :
    (w.consulted id .deep).Nodup ∧ ∀ x, x ∈ w.consulted id .deep ↔ w.Reaches id x := by
  obtain ⟨sound, once, queued, closed⟩ :=
    exploreCloses apart List.mem_append w.scopes.length (w.exploringRefers id)
      (Nat.le_succ _)
  rw [← visitExplores] at sound once queued closed
  refine ⟨once, fun x => ⟨fun mem => ?_, Reaches.stays List.mem_cons_self fun y mem => ?_⟩⟩
  · rcases List.mem_cons.mp mem with rfl | mem
    · exact .refl
    · exact sound x mem
  · rcases List.mem_cons.mp mem with rfl | mem
    · exact queued
    · exact closed y mem

end Workspace
end TypeScope
