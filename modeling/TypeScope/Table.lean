/-! Tables that keep the order in which their keys first arrived. Answers list names, files and
scopes in that order, so it is part of the value. -/
namespace TypeScope

def distinct {κ : Type} [DecidableEq κ] : List κ → List κ
  | [] => []
  | k :: rest => k :: (distinct rest).filter (fun later => later ≠ k)

theorem memDistinct {κ : Type} [DecidableEq κ] {ks : List κ} {k : κ} :
    k ∈ distinct ks ↔ k ∈ ks := by
  induction ks with
  | nil => simp [distinct]
  | cons first rest ih =>
    by_cases same : k = first <;> simp [distinct, ih, same]

theorem distinctNodup {κ : Type} [DecidableEq κ] (ks : List κ) : (distinct ks).Nodup := by
  induction ks with
  | nil => simp [distinct]
  | cons first rest ih =>
    refine List.Pairwise.cons (fun k mem => ?_) (List.Pairwise.filter _ ih)
    have other : k ≠ first := by simpa using (List.mem_filter.mp mem).2
    exact other.symm

structure Table (κ : Type) (α : Type) where
  entries : List (κ × α)
  deriving Repr

namespace Table
variable {κ α : Type} [DecidableEq κ]

def empty : Table κ α := ⟨[]⟩

instance : Inhabited (Table κ α) := ⟨empty⟩

def find : List (κ × α) → κ → Option α
  | [], _ => none
  | (key, value) :: rest, k => if key = k then some value else find rest k

def get? (t : Table κ α) (k : κ) : Option α := find t.entries k

def contains (t : Table κ α) (k : κ) : Bool := (t.get? k).isSome

def keys (t : Table κ α) : List κ := t.entries.map Prod.fst

def values (t : Table κ α) : List α := t.entries.map Prod.snd

def write : List (κ × α) → κ → α → List (κ × α)
  | [], k, v => [(k, v)]
  | (key, value) :: rest, k, v =>
      if key = k then (key, v) :: rest else (key, value) :: write rest k v

def put (t : Table κ α) (k : κ) (v : α) : Table κ α := ⟨write t.entries k v⟩

def erase (t : Table κ α) (k : κ) : Table κ α := ⟨t.entries.filter (fun e => e.1 ≠ k)⟩

def keep (t : Table κ α) (p : κ → Bool) : Table κ α := ⟨t.entries.filter (fun e => p e.1)⟩

def size (t : Table κ α) : Nat := t.entries.length

def gather (key : α → κ) (xs : List α) : Table κ (List α) :=
  xs.foldl (fun t x => t.put (key x) ((t.get? (key x)).getD [] ++ [x])) empty

theorem findWrite {entries : List (κ × α)} {k j : κ} {v : α} :
    find (write entries k v) j = if k = j then some v else find entries j := by
  induction entries with
  | nil => simp [write, find]
  | cons e rest ih =>
    obtain ⟨key, value⟩ := e
    simp only [write]
    by_cases same : key = k
    · simp only [if_pos same, find]
      subst same
      split <;> rfl
    · simp only [if_neg same, find, ih]
      by_cases here : key = j
      · simp [here, show k ≠ j from fun e => same (here.trans e.symm)]
      · simp [here]

theorem getPut {t : Table κ α} {k j : κ} {v : α} :
    (t.put k v).get? j = if k = j then some v else t.get? j := findWrite

theorem findFilter {entries : List (κ × α)} {p : κ → Bool} {j : κ} :
    find (entries.filter (fun e => p e.1)) j = if p j then find entries j else none := by
  induction entries with
  | nil => simp [find]
  | cons e rest ih =>
    obtain ⟨key, value⟩ := e
    by_cases pass : p key = true
    · simp only [List.filter_cons, pass, if_true, find, ih]
      by_cases here : key = j
      · subst here; simp [pass]
      · simp [here]
    · simp only [List.filter_cons, pass, find]
      by_cases here : key = j
      · subst here; simp [ih, pass]
      · simp [here, ih]

theorem getErase {t : Table κ α} {k j : κ} :
    (t.erase k).get? j = if j = k then none else t.get? j := by
  have h : find (t.entries.filter (fun e => decide (e.1 ≠ k))) j =
      if decide (j ≠ k) then find t.entries j else none :=
    findFilter (p := fun key => decide (key ≠ k))
  by_cases same : j = k <;> simp_all [erase, get?]

theorem getKeep {t : Table κ α} {p : κ → Bool} {j : κ} :
    (t.keep p).get? j = if p j then t.get? j else none := findFilter

theorem keysWrite {entries : List (κ × α)} {k : κ} {v : α} :
    (write entries k v).map Prod.fst =
      if k ∈ entries.map Prod.fst then entries.map Prod.fst else entries.map Prod.fst ++ [k] := by
  induction entries with
  | nil => simp [write]
  | cons e rest ih =>
    obtain ⟨key, value⟩ := e
    simp only [write]
    by_cases same : key = k
    · simp [same]
    · rw [if_neg same, List.map_cons, ih]
      simp only [List.map_cons, List.mem_cons, show k ≠ key from fun e => same e.symm, false_or]
      split <;> simp

theorem keysPut {t : Table κ α} {k : κ} {v : α} :
    (t.put k v).keys = if k ∈ t.keys then t.keys else t.keys ++ [k] := keysWrite

theorem findSome {entries : List (κ × α)} {k : κ} {v : α} (h : find entries k = some v) :
    (k, v) ∈ entries := by
  induction entries with
  | nil => simp [find] at h
  | cons e rest ih =>
    obtain ⟨key, value⟩ := e
    simp only [find] at h
    split at h
    · rename_i same
      cases h
      simp [same]
    · exact List.mem_cons_of_mem _ (ih h)

end Table
end TypeScope
