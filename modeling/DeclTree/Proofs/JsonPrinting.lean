import DeclTree.Proofs.JsonSpelling
/-!
Printing a JSON value makes one of its texts, with each item on a line of its own as well as without
any blanks.
-/
namespace DeclTree.Json

/-- A value whose numbers are natural ones. -/
inductive Plain : Json → Prop
  | null : Plain null
  | bool (b : Bool) : Plain (bool b)
  | nat (n : Nat) : Plain (nat n)
  | text (s : JsonText) : Plain (text s)
  | array {items : List Json} (h : ∀ j ∈ items, Plain j) : Plain (array items)
  | object {members : List (JsonText × Json)} (h : ∀ m ∈ members, Plain m.2) :
      Plain (object members)

/-- Where blanks go in a printed value: before each item of a level, and after colons. -/
structure Layout where
  line : Nat → List Char
  colon : List Char
  gap_line : ∀ level, Gap (line level)
  gap_colon : Gap colon

namespace Layout

mutual

/-- The text of a value that stands on a level. -/
def chars (l : Layout) (level : Nat) : Json → List Char
  | null => "null".toList
  | bool true => "true".toList
  | bool false => "false".toList
  | nat n => Nat.toDigits 10 n
  | otherNumber spelling => spelling.toList
  | text s => quote s
  | array [] => "[]".toList
  | array (item :: items) =>
    '[' :: l.line (level + 1) ++ l.chars (level + 1) item ++ l.itemChars (level + 1) items ++
      l.line level ++ [']']
  | object [] => "\x7b\x7d".toList
  | object ((key, value) :: members) =>
    '{' :: l.line (level + 1) ++ quote key ++ ':' :: l.colon ++ l.chars (level + 1) value ++
      l.memberChars (level + 1) members ++ l.line level ++ ['}']

/-- The items after the first. -/
def itemChars (l : Layout) (level : Nat) : List Json → List Char
  | [] => []
  | item :: items => ',' :: l.line level ++ l.chars level item ++ l.itemChars level items

/-- The members after the first. -/
def memberChars (l : Layout) (level : Nat) : List (JsonText × Json) → List Char
  | [] => []
  | (key, value) :: members =>
    ',' :: l.line level ++ quote key ++ ':' :: l.colon ++ l.chars level value ++
      l.memberChars level members

end

def print (l : Layout) (j : Json) : String := String.ofList (l.chars 0 j)

mutual

theorem spells_chars (l : Layout) (level : Nat) : ∀ j : Json, Plain j → Spells j (l.chars level j)
  | null, _ => .ofNull
  | bool true, _ => .ofTrue
  | bool false, _ => .ofFalse
  | nat n, _ => .ofNat n
  | otherNumber spelling, h => by cases h
  | text s, _ => .ofText s
  | array [], _ => .emptyArray gap_nil
  | array (item :: items), .array h => by
    have hitem := l.spells_chars (level + 1) item (h item List.mem_cons_self)
    have hitems := l.spellsItems_itemChars (level + 1) level items
      (fun j hj => h j (List.mem_cons_of_mem item hj)) hitem
    have hall := Spells.array (l.gap_line (level + 1)) hitems
    simpa [chars] using hall
  | object [], _ => .emptyObject gap_nil
  | object ((key, value) :: members), .object h => by
    have hvalue := l.spells_chars (level + 1) value (h (key, value) List.mem_cons_self)
    have hmembers := l.spellsMembers_memberChars (level + 1) level members
      (fun m hm => h m (List.mem_cons_of_mem (key, value) hm)) key hvalue
    have hall := Spells.object (l.gap_line (level + 1)) hmembers
    simpa [chars] using hall

/-- The items after one that is spelled, with the end of a line and the closing bracket. -/
theorem spellsItems_itemChars (l : Layout) (level outer : Nat) : ∀ items : List Json,
    (∀ j ∈ items, Plain j) → ∀ {j : Json} {cs : List Char}, Spells j cs →
      SpellsItems (j :: items) (cs ++ (l.itemChars level items ++ (l.line outer ++ [']'])))
  | [], _, j, cs, hj => by
    have hall := SpellsItems.last hj (l.gap_line outer)
    simpa [itemChars] using hall
  | item :: items, h, j, cs, hj => by
    have hitem := l.spells_chars level item (h item List.mem_cons_self)
    have hmore := l.spellsItems_itemChars level outer items
      (fun j hj => h j (List.mem_cons_of_mem item hj)) hitem
    have hall := SpellsItems.cons hj gap_nil (l.gap_line level) hmore
    simpa [itemChars] using hall

theorem spellsMembers_memberChars (l : Layout) (level outer : Nat) :
    ∀ members : List (JsonText × Json), (∀ m ∈ members, Plain m.2) →
    ∀ (key : JsonText) {j : Json} {cs : List Char}, Spells j cs →
      SpellsMembers ((key, j) :: members)
        (quote key ++ (':' :: (l.colon ++
          (cs ++ (l.memberChars level members ++ (l.line outer ++ ['}']))))))
  | [], _, key, j, cs, hj => by
    have hall : SpellsMembers [(key, j)] _ := .last gap_nil l.gap_colon hj (l.gap_line outer)
    simpa [memberChars] using hall
  | (next, value) :: members, h, key, j, cs, hj => by
    have hvalue := l.spells_chars level value (h (next, value) List.mem_cons_self)
    have hmore := l.spellsMembers_memberChars level outer members
      (fun m hm => h m (List.mem_cons_of_mem (next, value) hm)) next hvalue
    have hall : SpellsMembers ((key, j) :: (next, value) :: members) _ :=
      .cons gap_nil l.gap_colon hj gap_nil (l.gap_line level) hmore
    simpa [memberChars] using hall

end

/-- The printed text of a value is one of its texts, in every layout. -/
theorem spellsWhole_print (l : Layout) {j : Json} (h : Plain j) : SpellsWhole j (l.print j) := by
  refine ⟨[], l.chars 0 j, [], ?_, gap_nil, l.spells_chars 0 j h, gap_nil⟩
  rw [print, String.toList_ofList, List.nil_append, List.append_nil]

/-! ### Two layouts -/

/-- All on one line, without blanks. -/
def compact : Layout := ⟨fun _ => [], [], fun _ => gap_nil, gap_nil⟩

theorem gap_newLine (level : Nat) : Gap (newLine level) := by
  intro c hc
  obtain rfl | hc := List.mem_cons.1 hc
  · rfl
  · rw [(List.mem_replicate.1 hc).2]
    rfl

theorem gap_space : Gap [' '] := by
  intro c hc
  obtain rfl := List.mem_singleton.1 hc
  rfl

/-- One item or member a line. -/
def lines : Layout := ⟨newLine, [' '], gap_newLine, gap_space⟩

@[simp] theorem line_lines (level : Nat) : lines.line level = newLine level := rfl

@[simp] theorem colon_lines : lines.colon = [' '] := rfl

mutual

theorem lines_chars (level : Nat) : ∀ j : Json, lines.chars level j = j.chars level
  | null | bool true | bool false | nat _ | otherNumber _ | text _ | array [] | object [] => by
    simp [chars, Json.chars]
  | array (item :: items) => by
    simp [chars, Json.chars, lines_chars (level + 1) item, lines_itemChars (level + 1) items]
  | object ((key, value) :: members) => by
    simp [chars, Json.chars, lines_chars (level + 1) value, lines_memberChars (level + 1) members]

theorem lines_itemChars (level : Nat) : ∀ items : List Json,
    lines.itemChars level items = Json.itemChars level items
  | [] => by simp [itemChars, Json.itemChars]
  | item :: items => by
    simp [itemChars, Json.itemChars, lines_chars level item, lines_itemChars level items]

theorem lines_memberChars (level : Nat) : ∀ members : List (JsonText × Json),
    lines.memberChars level members = Json.memberChars level members
  | [] => by simp [memberChars, Json.memberChars]
  | (key, value) :: members => by
    simp [memberChars, Json.memberChars, lines_chars level value, lines_memberChars level members]

end

theorem lines_print (j : Json) : lines.print j = j.print := by
  rw [print, lines_chars, Json.print]

end Layout

end DeclTree.Json
