import TypeScope.Proofs.Tables
import TypeScope.Store

/-! The index of spellings. Its lists never hold a name twice, and hold it only under its lower-case
form; taking a name out or putting one in changes nothing but that name. -/
namespace TypeScope.Store

abbrev Spellings := Table String (List String)

def listed (folded : Spellings) (key : String) : List String := (folded.get? key).getD []

structure Tidy (folded : Spellings) : Prop where
  keys : folded.keys.Nodup
  once : ∀ key, (listed folded key).Nodup
  lowered : ∀ key, ∀ name ∈ listed folded key, Text.lowered name = key

theorem tidyEmpty : Tidy Table.empty where
  keys := List.nodup_nil
  once _ := List.nodup_nil
  lowered _ _ mem := nomatch mem

theorem dropCases (folded : Spellings) (name : String) :
    folded.get? (Text.lowered name) = none ∧ dropSpelling folded name = folded ∨
      ∃ spellings, folded.get? (Text.lowered name) = some spellings ∧
        (spellings.filter (fun s => s ≠ name) = [] ∧
            dropSpelling folded name = folded.erase (Text.lowered name) ∨
          dropSpelling folded name =
            folded.put (Text.lowered name) (spellings.filter (fun s => s ≠ name))) := by
  unfold dropSpelling
  dsimp only
  split
  · rename_i unknown
    exact .inl ⟨unknown, rfl⟩
  · rename_i spellings known
    refine .inr ⟨spellings, known, ?_⟩
    split
    · rename_i none
      exact .inl ⟨none, rfl⟩
    · exact .inr rfl

theorem listedDrop (folded : Spellings) (name key : String) :
    listed (dropSpelling folded name) key =
      if key = Text.lowered name then (listed folded key).filter (fun s => s ≠ name)
      else listed folded key := by
  unfold listed
  rcases dropCases folded name with ⟨unknown, same⟩ | ⟨spellings, known, ⟨none, erased⟩ | written⟩
  · rw [same]
    by_cases here : key = Text.lowered name <;> simp [here, unknown]
  · rw [erased, Table.getErase]
    by_cases here : key = Text.lowered name
    · simpa [here, known] using none
    · simp [here]
  · rw [written, Table.getPut]
    by_cases here : Text.lowered name = key
    · simp [here ▸ known, here]
    · simp [here, show key ≠ Text.lowered name from fun same => here same.symm]

theorem listedAdd (folded : Spellings) (name key : String) :
    listed (addSpelling folded name) key =
      if key = Text.lowered name ∧ name ∉ listed folded key then listed folded key ++ [name]
      else listed folded key := by
  unfold addSpelling listed
  by_cases here : key = Text.lowered name
  · subst here
    by_cases known : name ∈ (folded.get? (Text.lowered name)).getD [] <;>
      simp [Table.getPut, known]
  · have other : Text.lowered name ≠ key := fun same => here same.symm
    simp [Table.getPut, here, other]

theorem memDrop {folded : Spellings} (tidy : Tidy folded) {name key other : String} :
    other ∈ listed (dropSpelling folded name) key ↔ other ∈ listed folded key ∧ other ≠ name := by
  rw [listedDrop]
  split
  · simp
  · rename_i elsewhere
    refine ⟨fun mem => ⟨mem, ?_⟩, fun both => both.1⟩
    rintro rfl
    exact elsewhere (tidy.lowered key other mem).symm

theorem memAdd {folded : Spellings} {name key other : String} :
    other ∈ listed (addSpelling folded name) key ↔
      other ∈ listed folded key ∨ other = name ∧ key = Text.lowered name := by
  rw [listedAdd]
  by_cases here : key = Text.lowered name
  · subst here
    by_cases known : name ∈ listed folded (Text.lowered name)
    · have absorbed : other = name → other ∈ listed folded (Text.lowered name) :=
        fun same => same ▸ known
      simpa [known] using absorbed
    · simp [known]
  · simp [here]

theorem tidyDrop {folded : Spellings} (tidy : Tidy folded) (name : String) :
    Tidy (dropSpelling folded name) where
  keys := by
    rcases dropCases folded name with ⟨_, same⟩ | ⟨spellings, _, ⟨_, erased⟩ | written⟩
    · rw [same]
      exact tidy.keys
    · exact erased ▸ Table.keysNodupErase tidy.keys
    · exact written ▸ Table.keysNodupPut tidy.keys
  once key := by
    rw [listedDrop]
    split
    · exact (tidy.once key).filter _
    · exact tidy.once key
  lowered key other mem := tidy.lowered key other ((memDrop tidy).mp mem).1

theorem tidyAdd {folded : Spellings} (tidy : Tidy folded) (name : String) :
    Tidy (addSpelling folded name) where
  keys := Table.keysNodupPut tidy.keys
  once key := by
    rw [listedAdd]
    split
    · rename_i fresh
      exact List.nodup_append.mpr
        ⟨tidy.once key, List.nodup_singleton name, fun a mem b last same => fresh.2 (by simp_all)⟩
    · exact tidy.once key
  lowered key other mem := by
    rcases memAdd.mp mem with earlier | ⟨rfl, here⟩
    · exact tidy.lowered key other earlier
    · exact here.symm

theorem tidyNodup {folded : Spellings} (tidy : Tidy folded) : folded.values.flatten.Nodup := by
  -- no name stands in two lists, since a list holds only names of its own key
  have entry {e} (mem : e ∈ folded.entries) : listed folded e.1 = e.2 := by
    rw [listed, (Table.getIffMem tidy.keys).mpr mem, Option.getD_some]
  rw [List.nodup_flatten]
  constructor
  · intro spellings mem
    obtain ⟨e, inside, rfl⟩ := List.mem_map.mp mem
    exact entry inside ▸ tidy.once e.1
  · rw [Table.values, List.pairwise_map]
    have apart : folded.entries.Pairwise (fun e f => e.1 ≠ f.1) := List.pairwise_map.mp tidy.keys
    refine apart.imp_of_mem fun {e f} left right different name inE inF => different ?_
    have first := tidy.lowered e.1 name (entry left ▸ inE)
    have second := tidy.lowered f.1 name (entry right ▸ inF)
    exact first.symm.trans second

theorem tidyEntries {folded : Spellings} (tidy : Tidy folded) {key name : String} :
    (∃ spellings, (key, spellings) ∈ folded.entries ∧ name ∈ spellings) ↔
      name ∈ listed folded key := by
  simp only [← Table.getIffMem tidy.keys, listed]
  cases folded.get? key <;> simp

end TypeScope.Store
