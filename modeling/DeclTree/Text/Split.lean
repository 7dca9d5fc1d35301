/-!
Splitting a text at a character. A text with n separators has n + 1 parts, empty ones included,
and joining the parts gives the text back. From whichever end the separators are looked for, the
parts are the same.
-/
namespace DeclTree.Text

/-- The parts of a list between the separators, first part apart so that there is always one. -/
def splitParts (sep : Char) : List Char → List Char × List (List Char)
  | [] => ([], [])
  | c :: cs =>
    let (first, others) := splitParts sep cs
    if c = sep then ([], first :: others) else (c :: first, others)

def splitList (sep : Char) (cs : List Char) : List (List Char) :=
  (splitParts sep cs).1 :: (splitParts sep cs).2

/-- The parts of a text between the separators. -/
def split (sep : Char) (s : String) : List String :=
  (splitList sep s.toList).map String.ofList

/-- The segments of a dotted name. -/
def segments (s : String) : List String := split '.' s

/-- The parts of a text between the separators, found from the end: the last part comes first. -/
def splitFromEnd (sep : Char) (s : String) : List String :=
  (splitList sep s.toList.reverse).map fun part => String.ofList part.reverse

/-- The segments of a dotted name from the last one to the first. -/
def segmentsFromEnd (s : String) : List String := splitFromEnd '.' s

theorem splitList_ne_nil (sep : Char) (cs : List Char) : splitList sep cs ≠ [] := by
  simp [splitList]

theorem intercalate_splitList (sep : Char) (cs : List Char) :
    [sep].intercalate (splitList sep cs) = cs := by
  unfold splitList
  induction cs with
  | nil => simp [splitParts, List.intercalate]
  | cons c cs ih =>
    cases hp : splitParts sep cs with
    | mk first others =>
      rw [hp] at ih
      by_cases hc : c = sep
      · subst hc
        simp only [splitParts, hp, ↓reduceIte]
        simpa [List.intercalate, List.intersperse] using ih
      · simp only [splitParts, hp, if_neg hc]
        cases others with
        | nil => simpa [List.intercalate, List.intersperse] using ih
        | cons second others => simpa [List.intercalate, List.intersperse] using ih

theorem not_mem_of_mem_splitList {sep : Char} {cs part : List Char}
    (h : part ∈ splitList sep cs) : sep ∉ part := by
  unfold splitList at h
  induction cs generalizing part with
  | nil => simp_all [splitParts]
  | cons c cs ih =>
    by_cases hc : c = sep
    · subst hc
      simp only [splitParts, ↓reduceIte] at h
      rcases List.mem_cons.1 h with rfl | h
      · simp
      · exact ih h
    · simp only [splitParts, if_neg hc] at h
      rcases List.mem_cons.1 h with rfl | h
      · have hs := ih (List.mem_cons_self ..)
        simp [Ne.symm hc, hs]
      · exact ih (List.mem_cons_of_mem _ h)

theorem splitParts_append {sep : Char} {part : List Char} (h : sep ∉ part) (cs : List Char) :
    splitParts sep (part ++ cs) = (part ++ (splitParts sep cs).1, (splitParts sep cs).2) := by
  induction part with
  | nil => rfl
  | cons c part ih =>
    have hc : c ≠ sep := fun heq => h (heq ▸ List.mem_cons_self ..)
    have hpart : sep ∉ part := fun hmem => h (List.mem_cons_of_mem _ hmem)
    simp only [List.cons_append, splitParts, ih hpart, if_neg hc]

/-- Parts without a separator are found again once they are joined. -/
theorem splitList_intercalate {sep : Char} {parts : List (List Char)} (hne : parts ≠ [])
    (h : ∀ part ∈ parts, sep ∉ part) : splitList sep ([sep].intercalate parts) = parts := by
  induction parts with
  | nil => exact absurd rfl hne
  | cons part parts ih =>
    have hpart : sep ∉ part := h part (List.mem_cons_self ..)
    cases parts with
    | nil =>
      have hsplit := splitParts_append hpart []
      simp only [List.append_nil, splitParts] at hsplit
      simp [splitList, List.intercalate, hsplit]
    | cons second others =>
      have hrest := ih (List.cons_ne_nil _ _) fun part hmem => h part (List.mem_cons_of_mem _ hmem)
      rw [List.intercalate_cons_cons, List.append_assoc, splitList, splitParts_append hpart]
      simp only [List.singleton_append, splitParts, ↓reduceIte, List.append_nil]
      exact congrArg (part :: ·) hrest

theorem intercalate_concat {sep : Char} {parts : List (List Char)} (hne : parts ≠ [])
    (last : List Char) :
    [sep].intercalate (parts ++ [last]) = [sep].intercalate parts ++ sep :: last := by
  induction parts with
  | nil => exact absurd rfl hne
  | cons part parts ih =>
    cases parts with
    | nil => simp [List.intercalate]
    | cons second others =>
      have hrest := ih (List.cons_ne_nil _ _)
      rw [List.cons_append, List.cons_append, List.intercalate_cons_cons, ← List.cons_append, hrest,
        List.intercalate_cons_cons]
      simp only [List.append_assoc]

theorem reverse_intercalate (sep : Char) (parts : List (List Char)) :
    ([sep].intercalate parts).reverse = [sep].intercalate (parts.map List.reverse).reverse := by
  induction parts with
  | nil => rfl
  | cons part parts ih =>
    cases parts with
    | nil => simp [List.intercalate]
    | cons second others =>
      have hne : ((second :: others).map List.reverse).reverse ≠ [] := by simp
      have hreverse : ((part :: second :: others).map List.reverse).reverse =
          ((second :: others).map List.reverse).reverse ++ [part.reverse] := by simp
      rw [List.intercalate_cons_cons, List.reverse_append, ih, hreverse, intercalate_concat hne,
        List.reverse_append, List.reverse_singleton, List.singleton_append]

theorem splitList_reverse (sep : Char) (cs : List Char) :
    splitList sep cs.reverse = ((splitList sep cs).map List.reverse).reverse := by
  have hne : ((splitList sep cs).map List.reverse).reverse ≠ [] := by simp [splitList]
  have hparts : ∀ part ∈ ((splitList sep cs).map List.reverse).reverse, sep ∉ part := by
    intro part hmem
    obtain ⟨found, hfound, rfl⟩ := List.mem_map.1 (List.mem_reverse.1 hmem)
    simpa using not_mem_of_mem_splitList hfound
  have hsplit := splitList_intercalate hne hparts
  rwa [← reverse_intercalate, intercalate_splitList] at hsplit

theorem segmentsFromEnd_eq_reverse (s : String) : segmentsFromEnd s = (segments s).reverse := by
  rw [segmentsFromEnd, splitFromEnd, splitList_reverse, List.map_reverse, List.map_map, segments,
    split]
  simp [Function.comp_def]

/-- The segments of a dotted name make up the name again. -/
theorem intercalate_segments (s : String) : ".".intercalate (segments s) = s := by
  have hdot : ".".toList = ['.'] := rfl
  rw [← String.toList_inj, String.toList_intercalate, hdot, segments, split, List.map_map]
  simpa [Function.comp_def] using intercalate_splitList '.' s.toList

/-- Names without a dot are the segments of the dotted name that they make. -/
theorem segments_intercalate {names : List String} (hne : names ≠ [])
    (h : ∀ name ∈ names, '.' ∉ name.toList) : segments (".".intercalate names) = names := by
  have hdot : ".".toList = ['.'] := rfl
  have hparts : ∀ part ∈ names.map String.toList, '.' ∉ part := by
    intro part hmem
    obtain ⟨name, hname, rfl⟩ := List.mem_map.1 hmem
    exact h name hname
  rw [segments, split, String.toList_intercalate, hdot,
    splitList_intercalate (by simpa using hne) hparts, List.map_map]
  simp [Function.comp_def]

end DeclTree.Text
