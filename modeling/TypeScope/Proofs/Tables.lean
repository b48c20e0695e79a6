import TypeScope.Table
import Mathlib.Data.List.Induction
import Mathlib.Data.List.Nodup

/-! What a table holds after a write, an erasure or a gathering, entry by entry. A table whose
keys differ is determined by its lookups; writing and erasing keep the keys different. -/
namespace TypeScope

section Distinct
variable {κ : Type} [DecidableEq κ]

theorem distinctAppend (ks : List κ) (k : κ) :
    distinct (ks ++ [k]) = if k ∈ ks then distinct ks else distinct ks ++ [k] := by
  induction ks with
  | nil => rfl
  | cons first rest ih =>
    simp only [List.cons_append, distinct, ih]
    by_cases same : k = first
    · subst same
      by_cases later : k ∈ rest <;> simp [later]
    · by_cases later : k ∈ rest <;> simp [later, same]

theorem distinctFilter (p : κ → Bool) (ks : List κ) :
    distinct (ks.filter p) = (distinct ks).filter p := by
  induction ks with
  | nil => rfl
  | cons first rest ih =>
    by_cases pass : p first = true
    · simp only [List.filter_cons, pass, if_true, distinct, ih, List.filter_filter]
      congr 1
      exact List.filter_congr fun k _ => Bool.and_comm ..
    · have skip : distinct ((first :: rest).filter p) = (distinct rest).filter p := by
        simp [pass, ih]
      rw [skip, distinct, List.filter_cons, if_neg pass, List.filter_filter]
      refine List.filter_congr fun k _ => ?_
      by_cases same : k = first <;> simp [same, pass]

end Distinct

namespace Table
variable {κ α : Type} [DecidableEq κ]

theorem memOfGet {t : Table κ α} {k : κ} {v : α} (h : t.get? k = some v) : (k, v) ∈ t.entries :=
  findSome h

theorem valueOfGet {t : Table κ α} {k : κ} {v : α} (h : t.get? k = some v) : v ∈ t.values :=
  List.mem_map.mpr ⟨(k, v), memOfGet h, rfl⟩

theorem getNone {t : Table κ α} {k : κ} : t.get? k = none ↔ k ∉ t.keys := by
  obtain ⟨entries⟩ := t
  induction entries with
  | nil => simp [get?, find, keys]
  | cons e rest ih =>
    obtain ⟨key, value⟩ := e
    simp only [get?, keys] at ih
    simp only [get?, find, keys, List.map_cons, List.mem_cons]
    by_cases same : key = k
    · simp [same]
    · simp [same, ih, show k ≠ key from fun e => same e.symm]

theorem getIffMem {t : Table κ α} (unique : t.keys.Nodup) {k : κ} {v : α} :
    t.get? k = some v ↔ (k, v) ∈ t.entries := by
  refine ⟨memOfGet, fun mem => ?_⟩
  obtain ⟨entries⟩ := t
  induction entries with
  | nil => simp at mem
  | cons e rest ih =>
    obtain ⟨key, value⟩ := e
    obtain ⟨fresh, tail⟩ := List.nodup_cons.mp unique
    simp only [get?, find]
    rcases List.mem_cons.mp mem with same | later
    · cases same
      simp
    · have other : key ≠ k := fun same =>
        fresh (same ▸ List.mem_map.mpr ⟨(k, v), later, rfl⟩)
      rw [if_neg other]
      exact ih tail later

theorem keysNodupPut {t : Table κ α} {k : κ} {v : α} (h : t.keys.Nodup) :
    (t.put k v).keys.Nodup := by
  rw [keysPut]
  split
  · exact h
  · rename_i fresh
    exact List.nodup_append.mpr
      ⟨h, List.nodup_singleton k, fun a mem b last same => fresh (by simp_all)⟩

theorem keysErase {t : Table κ α} {k : κ} : (t.erase k).keys = t.keys.filter (fun j => j ≠ k) := by
  simp only [keys, erase, List.filter_map]
  rfl

theorem keysNodupErase {t : Table κ α} {k : κ} (h : t.keys.Nodup) : (t.erase k).keys.Nodup := by
  rw [keysErase]
  exact h.filter _

theorem valuesPut {t : Table κ α} {k : κ} {v u : α} (h : u ∈ (t.put k v).values) :
    u = v ∨ u ∈ t.values := by
  obtain ⟨entries⟩ := t
  simp only [values, put] at h ⊢
  induction entries with
  | nil =>
    left
    simpa [write] using h
  | cons e rest ih =>
    obtain ⟨key, value⟩ := e
    simp only [write] at h
    split at h
    · simp only [List.map_cons, List.mem_cons] at h ⊢
      rcases h with same | later
      · exact .inl same
      · exact .inr (.inr later)
    · simp only [List.map_cons, List.mem_cons] at h ⊢
      rcases h with same | later
      · exact .inr (.inl same)
      · exact (ih later).imp_right .inr

theorem putSome {t : Table κ α} {k j : κ} {v u : α} (h : (t.put k v).get? j = some u) :
    k = j ∧ v = u ∨ t.get? j = some u := by
  rw [getPut] at h
  split at h
  · rename_i same
    exact .inl ⟨same, Option.some.inj h⟩
  · exact .inr h

theorem putNew {t : Table κ α} {k : κ} {v : α} (h : k ∉ t.keys) :
    (t.put k v).entries = t.entries ++ [(k, v)] := by
  obtain ⟨entries⟩ := t
  simp only [keys, put] at h ⊢
  induction entries with
  | nil => rfl
  | cons e rest ih =>
    simp only [List.map_cons, List.mem_cons, not_or] at h
    rw [write, if_neg (fun same => h.1 same.symm), ih h.2, List.cons_append]

theorem writeAt {ks : List κ} (f : κ → α) {k : κ} (v : α) (unique : ks.Nodup) (mem : k ∈ ks) :
    write (ks.map (fun j => (j, f j))) k v = ks.map (fun j => (j, if j = k then v else f j)) := by
  induction ks with
  | nil => simp at mem
  | cons j rest ih =>
    obtain ⟨fresh, tail⟩ := List.nodup_cons.mp unique
    simp only [List.map_cons, write]
    by_cases same : j = k
    · subst same
      rw [if_pos rfl, if_pos rfl]
      congr 1
      refine List.map_congr_left fun i later => ?_
      have other : i ≠ j := fun same => fresh (same ▸ later)
      rw [if_neg other]
    · rw [if_neg same, if_neg same, ih tail ((List.mem_cons.mp mem).resolve_left (Ne.symm same))]

theorem gatherEntries (key : α → κ) (xs : List α) :
    (gather key xs).entries =
      (distinct (xs.map key)).map (fun k => (k, xs.filter (fun x => key x = k))) := by
  induction xs using List.reverseRecOn with
  | nil => rfl
  | append_singleton xs x ih =>
    have unique := distinctNodup (xs.map key)
    have last : gather key (xs ++ [x]) =
        (gather key xs).put (key x) (((gather key xs).get? (key x)).getD [] ++ [x]) := by
      simp [gather, List.foldl_append]
    have keysSame : (gather key xs).keys = distinct (xs.map key) := by
      simp [keys, ih, Function.comp_def]
    rw [last, List.map_append, List.map_cons, List.map_nil, distinctAppend]
    by_cases known : key x ∈ xs.map key
    · have group : (gather key xs).get? (key x) = some (xs.filter (fun y => key y = key x)) := by
        rw [getIffMem (keysSame ▸ unique), ih, List.mem_map]
        exact ⟨key x, memDistinct.mpr known, rfl⟩
      rw [if_pos known, group, Option.getD_some, put, ih,
        writeAt _ _ unique (memDistinct.mpr known)]
      refine List.map_congr_left fun k _ => ?_
      by_cases same : k = key x
      · simp [same]
      · simp [same, List.filter_append, show key x ≠ k from fun e => same e.symm]
    · have fresh : key x ∉ (gather key xs).keys := by rwa [keysSame, memDistinct]
      rw [if_neg known, getNone.mpr fresh, putNew fresh, ih, List.map_append]
      congr 1
      · refine List.map_congr_left fun k mem => ?_
        have other : key x ≠ k := by
          rintro rfl
          exact known (memDistinct.mp mem)
        simp [List.filter_append, other]
      · have alone : xs.filter (fun y => decide (key y = key x)) = [] := by
          rw [List.filter_eq_nil_iff]
          intro y mem
          have other : key y ≠ key x := fun same => known (same ▸ List.mem_map.mpr ⟨y, mem, rfl⟩)
          simpa using other
        simp [List.filter_append, alone]

end Table
end TypeScope
