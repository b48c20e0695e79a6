/-! Texts with dots in them: their pieces, where they are cut, and how two are joined. -/
namespace TypeScope.Dotted

def cutLast : List Char → Option (List Char × List Char)
  | [] => none
  | c :: rest =>
      match cutLast rest with
      | some (before, after) => some (c :: before, after)
      | none => if c = '.' then some ([], rest) else none

def split (s : String) : String × String :=
  match cutLast s.toList with
  | some (before, after) => (String.ofList before, String.ofList after)
  | none => ("", s)

def pieces : List Char → List (List Char)
  | [] => [[]]
  | c :: rest =>
      if c = '.' then [] :: pieces rest
      else
        match pieces rest with
        | [] => [[c]]
        | p :: ps => (c :: p) :: ps

def segments (s : String) : List String := (pieces s.toList).map String.ofList

theorem piecesNonempty (cs : List Char) : pieces cs ≠ [] := by
  cases cs with
  | nil => simp [pieces]
  | cons c rest =>
    simp only [pieces]
    split
    · simp
    · split <;> simp

def starts : List Char → List (List Char)
  | [] => []
  | c :: rest =>
      if c = '.' then [] :: (starts rest).map (c :: ·) else (starts rest).map (c :: ·)

def enclosing (s : String) : List String := (starts s.toList).reverse.map String.ofList

def selfAndEnclosing (s : String) : List String :=
  (s :: enclosing s).takeWhile (fun start => start != "")

def join (outer inner : String) : String :=
  if outer = "" then inner else outer ++ "." ++ inner

def joinAll (outer : String) (names : List String) : String := names.foldl join outer

def after? (start s : String) : Option String :=
  if start.toList.isPrefixOf s.toList then some (String.ofList (s.toList.drop start.length))
  else none

def isBelow (inner outer : String) : Bool := (after? (outer ++ ".") inner).isSome

def relative (outer s : String) : String :=
  if outer = "" then s else (after? (outer ++ ".") s).getD s

theorem cutLastNone {cs : List Char} (uncut : cutLast cs = none) : '.' ∉ cs := by
  induction cs with
  | nil => exact List.not_mem_nil
  | cons c rest ih =>
    simp only [cutLast] at uncut
    split at uncut <;> try contradiction
    rename_i clean
    split at uncut <;> try contradiction
    rename_i other
    intro mem
    rcases List.mem_cons.mp mem with same | later
    · exact other same.symm
    · exact ih clean later

theorem cutLastSound {cs before after : List Char} (h : cutLast cs = some (before, after)) :
    cs = before ++ '.' :: after ∧ '.' ∉ after := by
  induction cs generalizing before after with
  | nil => simp [cutLast] at h
  | cons c rest ih =>
    simp only [cutLast] at h
    split at h
    · rename_i b a found
      simp only [Option.some.injEq, Prod.mk.injEq] at h
      obtain ⟨rfl, rfl⟩ := h
      obtain ⟨whole, clean⟩ := ih found
      exact ⟨by simp [whole], clean⟩
    · rename_i none
      split at h <;> try contradiction
      rename_i dot
      simp only [Option.some.injEq, Prod.mk.injEq] at h
      obtain ⟨rfl, rfl⟩ := h
      exact ⟨by simp [dot], cutLastNone none⟩

theorem splitSimple (s : String) : '.' ∉ (split s).2.toList := by
  unfold split
  split
  · rename_i cut
    rw [String.toList_ofList]
    exact (cutLastSound cut).2
  · rename_i uncut
    exact cutLastNone uncut

theorem lastDotUnique {before after before' after' : List Char} (simple : '.' ∉ after)
    (simple' : '.' ∉ after') (same : before ++ '.' :: after = before' ++ '.' :: after') :
    before = before' ∧ after = after' := by
  induction before generalizing before' with
  | nil =>
    cases before' with
    | nil => exact ⟨rfl, List.tail_eq_of_cons_eq same⟩
    | cons c rest =>
      refine absurd ?_ simple
      rw [List.tail_eq_of_cons_eq same]
      exact List.mem_append_right rest List.mem_cons_self
  | cons c rest ih =>
    cases before' with
    | nil =>
      refine absurd ?_ simple'
      rw [← List.tail_eq_of_cons_eq same]
      exact List.mem_append_right rest List.mem_cons_self
    | cons c' rest' =>
      obtain ⟨rfl, tails⟩ := List.cons_eq_cons.mp same
      obtain ⟨rfl, rfl⟩ := ih tails
      exact ⟨rfl, rfl⟩

theorem startsSound {cs start : List Char} (h : start ∈ starts cs) :
    ∃ tail, cs = start ++ '.' :: tail := by
  induction cs generalizing start with
  | nil => simp [starts] at h
  | cons c rest ih =>
    simp only [starts] at h
    split at h
    · rename_i dot
      rcases List.mem_cons.mp h with same | later
      · exact ⟨rest, by simp [same, dot]⟩
      · obtain ⟨s, mem, rfl⟩ := List.mem_map.mp later
        obtain ⟨tail, whole⟩ := ih mem
        exact ⟨tail, by simp [whole]⟩
    · obtain ⟨s, mem, rfl⟩ := List.mem_map.mp h
      obtain ⟨tail, whole⟩ := ih mem
      exact ⟨tail, by simp [whole]⟩

end TypeScope.Dotted
