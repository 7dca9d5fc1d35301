import DeclTree.Proofs.JsonWords
/-!
The texts of a JSON value. Blanks may stand around each part of a value, so that it has many texts, of
which printing makes one. Whatever the text, reading it gives the value back.
-/
namespace DeclTree.Json

/-- Characters that may stand around the parts of a value. -/
def Gap (cs : List Char) : Prop := ∀ c ∈ cs, isSpace c = true

mutual

/-- A text of a value, without blanks around it. -/
inductive Spells : Json → List Char → Prop
  | ofNull : Spells null "null".toList
  | ofTrue : Spells (bool true) "true".toList
  | ofFalse : Spells (bool false) "false".toList
  | ofNat (n : Nat) : Spells (nat n) (Nat.toDigits 10 n)
  | ofText (s : JsonText) : Spells (text s) (quote s)
  | emptyArray {gap : List Char} : Gap gap → Spells (array []) ('[' :: gap ++ [']'])
  | array {items : List Json} {gap cs : List Char} : Gap gap → SpellsItems items cs →
      Spells (array items) ('[' :: gap ++ cs)
  | emptyObject {gap : List Char} : Gap gap → Spells (object []) ('{' :: gap ++ ['}'])
  | object {members : List (JsonText × Json)} {gap cs : List Char} : Gap gap →
      SpellsMembers members cs → Spells (object members) ('{' :: gap ++ cs)

/-- The items of an array from one of them on, with the closing bracket. -/
inductive SpellsItems : List Json → List Char → Prop
  | last {j : Json} {cs after : List Char} : Spells j cs → Gap after →
      SpellsItems [j] (cs ++ after ++ [']'])
  | cons {j : Json} {items : List Json} {cs after before more : List Char} : Spells j cs →
      Gap after → Gap before → SpellsItems items more →
      SpellsItems (j :: items) (cs ++ after ++ ',' :: before ++ more)

/-- The members of an object from one of them on, with the closing brace. -/
inductive SpellsMembers : List (JsonText × Json) → List Char → Prop
  | last {key : JsonText} {j : Json} {gap before cs after : List Char} : Gap gap → Gap before →
      Spells j cs → Gap after →
      SpellsMembers [(key, j)] (quote key ++ gap ++ ':' :: before ++ cs ++ after ++ ['}'])
  | cons {key : JsonText} {j : Json} {members : List (JsonText × Json)}
      {gap before cs after next more : List Char} : Gap gap → Gap before → Spells j cs →
      Gap after → Gap next → SpellsMembers members more →
      SpellsMembers ((key, j) :: members)
        (quote key ++ gap ++ ':' :: before ++ cs ++ after ++ ',' :: next ++ more)

end

section Blanks
variable {gap rest : List Char} {c : Char}

theorem gap_nil : Gap [] := by simp [Gap]

theorem not_digit_of_isSpace (h : isSpace c = true) :
    c.isDigit = false ∧ c ≠ '.' ∧ c ≠ 'e' ∧ c ≠ 'E' := by
  simp only [isSpace, Bool.or_eq_true, beq_iff_eq] at h
  rcases h with ((rfl | rfl) | rfl) | rfl <;> decide

theorem EndsNumber.afterGap (hrest : EndsNumber rest) (hgap : Gap gap) : EndsNumber (gap ++ rest) := by
  cases gap with
  | nil => exact hrest
  | cons c gap =>
    rintro _ ⟨⟩
    exact not_digit_of_isSpace (hgap c List.mem_cons_self)

theorem endsNumber_nil : EndsNumber [] := by
  rintro _ ⟨⟩

theorem endsNumber_cons (h : c.isDigit = false ∧ c ≠ '.' ∧ c ≠ 'e' ∧ c ≠ 'E') :
    EndsNumber (c :: rest) := by
  rintro _ ⟨⟩
  exact h

theorem skipSpace_gap (hgap : Gap gap) (hc : isSpace c = false) :
    skipSpace (gap ++ c :: rest) = c :: rest := by
  rw [skipSpace, List.dropWhile_append_of_pos hgap, List.dropWhile_cons_of_neg (by simp [hc])]

theorem dropWord?_append (word : String) (rest : List Char) :
    dropWord? word (word.toList ++ rest) = some rest := by
  have hprefix : word.toList.isPrefixOf (word.toList ++ rest) = true :=
    List.isPrefixOf_iff_prefix.2 (List.prefix_append _ _)
  rw [dropWord?, if_pos hprefix, ← String.length_toList, List.drop_left]

end Blanks

/-- Texts are read back at a depth that allows for two calls for each of their characters. -/
structure ReadsBack (depth : Nat) : Prop where
  value : ∀ {j cs gap rest}, Spells j cs → Gap gap → EndsNumber rest → 2 * cs.length ≤ depth →
    value? depth (gap ++ (cs ++ rest)) = some (j, rest)
  items : ∀ {items cs gap rest}, SpellsItems items cs → Gap gap → 2 * cs.length + 1 ≤ depth →
    items? depth (gap ++ (cs ++ rest)) = some (items, rest)
  members : ∀ {members cs gap rest}, SpellsMembers members cs → Gap gap →
    2 * cs.length + 1 ≤ depth → members? depth (gap ++ (cs ++ rest)) = some (members, rest)

/-- What a value begins with. -/
def BeginsValue (c : Char) : Prop := isSpace c = false ∧ c ≠ ']' ∧ c ≠ '}'

instance (c : Char) : Decidable (BeginsValue c) :=
  inferInstanceAs (Decidable (isSpace c = false ∧ c ≠ ']' ∧ c ≠ '}'))

theorem beginsValue_of_isDigit {d : Char} (hd : d.isDigit = true) : BeginsValue d := by
  refine ⟨?_, ?_, ?_⟩
  · cases hspace : isSpace d with
    | false => rfl
    | true => rw [(not_digit_of_isSpace hspace).1] at hd; cases hd
  · rintro rfl
    exact absurd hd (by decide)
  · rintro rfl
    exact absurd hd (by decide)

theorem Spells.exists_head {j : Json} {cs : List Char} (h : Spells j cs) :
    ∃ c tail, cs = c :: tail ∧ BeginsValue c := by
  cases h with
  | ofNat n =>
    obtain ⟨d, ds, hhead, hdigit⟩ := exists_toDigits_eq_cons n
    exact ⟨d, ds, hhead, beginsValue_of_isDigit hdigit⟩
  | ofText s =>
    obtain ⟨cs, hcs, -⟩ := exists_quote s
    exact ⟨'"', cs, hcs, by decide⟩
  | ofNull => exact ⟨'n', _, rfl, by decide⟩
  | ofTrue => exact ⟨'t', _, rfl, by decide⟩
  | ofFalse => exact ⟨'f', _, rfl, by decide⟩
  | emptyArray | array => exact ⟨'[', _, rfl, by decide⟩
  | emptyObject | object => exact ⟨'{', _, rfl, by decide⟩

theorem SpellsItems.exists_head {items : List Json} {cs : List Char} (h : SpellsItems items cs) :
    ∃ c tail, cs = c :: tail ∧ BeginsValue c := by
  cases h with
  | last hj =>
    obtain ⟨c, tail, rfl, hc⟩ := hj.exists_head
    exact ⟨c, _, rfl, hc⟩
  | cons hj =>
    obtain ⟨c, tail, rfl, hc⟩ := hj.exists_head
    exact ⟨c, _, rfl, hc⟩

theorem SpellsMembers.exists_head {members : List (JsonText × Json)} {cs : List Char}
    (h : SpellsMembers members cs) : ∃ tail, cs = '"' :: tail := by
  cases h with
  | @last key =>
    obtain ⟨tail, hkey, -⟩ := exists_quote key
    exact ⟨_, by rw [hkey]; rfl⟩
  | @cons key =>
    obtain ⟨tail, hkey, -⟩ := exists_quote key
    exact ⟨_, by rw [hkey]; rfl⟩

section Steps
variable {depth : Nat} {gap rest cs : List Char} {j : Json}

theorem value?_digit {d : Char} (hgap : Gap gap) (hd : d.isDigit = true) :
    value? (depth + 1) (gap ++ d :: cs) = number? (d :: cs) := by
  unfold value?
  rw [skipSpace_gap hgap (beginsValue_of_isDigit hd).1]
  split
  all_goals first
    | rfl
    | rename_i heq
      cases heq
      exact absurd hd (by decide)

theorem value?_array {items : List Json} {inner : List Char} (hgap : Gap gap) (hinner : Gap inner)
    (hitems : SpellsItems items cs) (hread : items? depth (cs ++ rest) = some (items, rest)) :
    value? (depth + 1) (gap ++ '[' :: (inner ++ (cs ++ rest))) = some (array items, rest) := by
  obtain ⟨c, tail, rfl, hspace, hbracket, -⟩ := hitems.exists_head
  rw [value?, skipSpace_gap hgap rfl]
  rw [List.cons_append] at hread ⊢
  simp [skipSpace_gap hinner hspace, hbracket, hread]

theorem value?_object {members : List (JsonText × Json)} {inner : List Char} (hgap : Gap gap)
    (hinner : Gap inner) (hmembers : SpellsMembers members cs)
    (hread : members? depth (cs ++ rest) = some (members, rest)) :
    value? (depth + 1) (gap ++ '{' :: (inner ++ (cs ++ rest))) = some (object members, rest) := by
  obtain ⟨tail, rfl⟩ := hmembers.exists_head
  rw [value?, skipSpace_gap hgap rfl]
  rw [List.cons_append] at hread ⊢
  have hquote : isSpace '"' = false := rfl
  simp [skipSpace_gap hinner hquote, hread]

theorem ReadsBack.value_succ (h : ReadsBack depth) (hj : Spells j cs) (hgap : Gap gap)
    (hrest : EndsNumber rest) (hdepth : 2 * cs.length ≤ depth + 1) :
    value? (depth + 1) (gap ++ (cs ++ rest)) = some (j, rest) := by
  cases hj with
  | ofNat n =>
    obtain ⟨d, ds, hhead, hdigit⟩ := exists_toDigits_eq_cons n
    have hnumber := number?_toDigits n hrest
    rw [hhead, List.cons_append] at hnumber ⊢
    rw [value?_digit hgap hdigit, hnumber]
  | ofText s =>
    obtain ⟨cs, hcs, hread⟩ := exists_quote s
    rw [hcs, List.cons_append, value?, skipSpace_gap hgap rfl]
    simp [hread]
  | ofNull =>
    have hword := dropWord?_append "ull" rest
    change value? _ (gap ++ 'n' :: ("ull".toList ++ rest)) = _
    rw [value?, skipSpace_gap hgap rfl]
    simp only [hword, Option.map_some]
  | ofTrue =>
    have hword := dropWord?_append "rue" rest
    change value? _ (gap ++ 't' :: ("rue".toList ++ rest)) = _
    rw [value?, skipSpace_gap hgap rfl]
    simp only [hword, Option.map_some]
  | ofFalse =>
    have hword := dropWord?_append "alse" rest
    change value? _ (gap ++ 'f' :: ("alse".toList ++ rest)) = _
    rw [value?, skipSpace_gap hgap rfl]
    simp only [hword, Option.map_some]
  | emptyArray hinner =>
    rw [List.cons_append, List.cons_append, List.append_assoc, value?, skipSpace_gap hgap rfl]
    have hbracket : isSpace ']' = false := rfl
    simp [skipSpace_gap hinner hbracket]
  | @array items inner cs hinner hitems =>
    simp only [List.cons_append, List.length_cons, List.length_append] at hdepth
    have hread : items? depth ([] ++ (cs ++ rest)) = some (items, rest) :=
      h.items hitems gap_nil (by omega)
    rw [List.cons_append, List.cons_append, List.append_assoc]
    exact value?_array hgap hinner hitems hread
  | emptyObject hinner =>
    rw [List.cons_append, List.cons_append, List.append_assoc, value?, skipSpace_gap hgap rfl]
    have hbrace : isSpace '}' = false := rfl
    simp [skipSpace_gap hinner hbrace]
  | @object members inner cs hinner hmembers =>
    simp only [List.cons_append, List.length_cons, List.length_append] at hdepth
    have hread : members? depth ([] ++ (cs ++ rest)) = some (members, rest) :=
      h.members hmembers gap_nil (by omega)
    rw [List.cons_append, List.cons_append, List.append_assoc]
    exact value?_object hgap hinner hmembers hread

theorem endsNumber_after {after : List Char} {c : Char} (rest : List Char) (hafter : Gap after)
    (hc : c = ',' ∨ c = ']' ∨ c = '}') : EndsNumber (after ++ c :: rest) := by
  refine (endsNumber_cons ?_).afterGap hafter
  rcases hc with rfl | rfl | rfl <;> decide

theorem ReadsBack.items_succ (h : ReadsBack depth) {items : List Json}
    (hitems : SpellsItems items cs) (hgap : Gap gap) (hdepth : 2 * cs.length ≤ depth) :
    items? (depth + 1) (gap ++ (cs ++ rest)) = some (items, rest) := by
  cases hitems with
  | @last j cs after hj hafter =>
    simp only [List.length_append] at hdepth
    have hread := h.value hj hgap (endsNumber_after rest hafter (.inr (.inl rfl)))
      (by omega)
    have hbracket : isSpace ']' = false := rfl
    simp [items?, hread, skipSpace_gap hafter hbracket]
  | @cons j items cs after before more hj hafter hbefore hmore =>
    simp only [List.length_append, List.length_cons] at hdepth
    have hread := h.value hj hgap
      (endsNumber_after (before ++ (more ++ rest)) hafter (.inl rfl)) (by omega)
    have hrest : items? depth (before ++ (more ++ rest)) = some (items, rest) :=
      h.items hmore hbefore (by omega)
    have hcomma : isSpace ',' = false := rfl
    simp [items?, hread, skipSpace_gap hafter hcomma, hrest]

theorem ReadsBack.members_succ (h : ReadsBack depth) {members : List (JsonText × Json)}
    (hmembers : SpellsMembers members cs) (hgap : Gap gap) (hdepth : 2 * cs.length ≤ depth) :
    members? (depth + 1) (gap ++ (cs ++ rest)) = some (members, rest) := by
  have hquote : isSpace '"' = false := rfl
  have hcolon : isSpace ':' = false := rfl
  cases hmembers with
  | @last key j inner before cs after hinner hbefore hj hafter =>
    obtain ⟨tail, hkey, hstring⟩ := exists_quote key
    simp only [List.length_append, List.length_cons] at hdepth
    have hread := h.value hj hbefore (endsNumber_after rest hafter (.inr (.inr rfl)))
      (by omega)
    have hbrace : isSpace '}' = false := rfl
    simp [members?, hkey, skipSpace_gap hgap hquote, hstring, skipSpace_gap hinner hcolon, hread,
      skipSpace_gap hafter hbrace]
  | @cons key j members inner before cs after next more hinner hbefore hj hafter hnext hmore =>
    obtain ⟨tail, hkey, hstring⟩ := exists_quote key
    simp only [List.length_append, List.length_cons] at hdepth
    have hread := h.value hj hbefore
      (endsNumber_after (next ++ (more ++ rest)) hafter (.inl rfl)) (by omega)
    have hrest : members? depth (next ++ (more ++ rest)) = some (members, rest) :=
      h.members hmore hnext (by omega)
    have hcomma : isSpace ',' = false := rfl
    simp [members?, hkey, skipSpace_gap hgap hquote, hstring, skipSpace_gap hinner hcolon, hread,
      skipSpace_gap hafter hcomma, hrest]

end Steps

theorem readsBack (depth : Nat) : ReadsBack depth := by
  induction depth with
  | zero =>
    refine ⟨fun hj _ _ hdepth => ?_, fun _ _ hdepth => ?_, fun _ _ hdepth => ?_⟩
    · obtain ⟨c, tail, rfl, -⟩ := hj.exists_head
      exact absurd hdepth (by simp)
    · exact absurd hdepth (by simp)
    · exact absurd hdepth (by simp)
  | succ depth ih =>
    exact ⟨ih.value_succ, fun hitems hgap hdepth => ih.items_succ hitems hgap (by omega),
      fun hmembers hgap hdepth => ih.members_succ hmembers hgap (by omega)⟩

/-- A text that is a value with blanks around it. -/
def SpellsWhole (j : Json) (text : String) : Prop :=
  ∃ before cs after, text.toList = before ++ cs ++ after ∧ Gap before ∧ Spells j cs ∧ Gap after

/-- Every text of a value is read as the value. -/
theorem SpellsWhole.parse?_eq {j : Json} {text : String} (h : SpellsWhole j text) :
    parse? text = some j := by
  obtain ⟨before, cs, after, htext, hbefore, hj, hafter⟩ := h
  have hlength : text.length = before.length + cs.length + after.length := by
    rw [← String.length_toList, htext, List.length_append, List.length_append]
  have hend : EndsNumber after := by
    rw [← List.append_nil after]
    exact endsNumber_nil.afterGap hafter
  have hread := (readsBack (2 * text.length + 2)).value hj hbefore hend (by omega)
  have hnothing : skipSpace after = [] := by
    rw [skipSpace, ← List.append_nil after, List.dropWhile_append_of_pos hafter]
    rfl
  rw [parse?, htext, List.append_assoc, hread]
  simp [hnothing]

end DeclTree.Json
