/-!
Finite sets of names, kept in ascending order, so that equal sets are equal values. Names are
ordered by code point, which is also the order of their UTF-8 bytes.
-/
namespace DeclTree

/-- Adds a name to an ascending list, where it belongs and at most once. -/
def insertName (name : String) : List String → List String
  | [] => [name]
  | other :: rest =>
    if name < other then name :: other :: rest
    else if name = other then other :: rest
    else other :: insertName name rest

theorem mem_insertName {name x : String} {names : List String} :
    x ∈ insertName name names ↔ x = name ∨ x ∈ names := by
  induction names with
  | nil => simp [insertName]
  | cons other rest ih =>
    unfold insertName
    split
    · simp
    · split
      · rename_i heq
        subst heq
        simp
      · simp only [List.mem_cons, ih]
        constructor
        · rintro (h | h | h) <;> simp [h]
        · rintro (h | h | h) <;> simp [h]

theorem pairwise_insertName {name : String} {names : List String}
    (h : names.Pairwise (· < ·)) : (insertName name names).Pairwise (· < ·) := by
  induction names with
  | nil => simp [insertName]
  | cons other rest ih =>
    have ⟨hother, hrest⟩ := List.pairwise_cons.1 h
    unfold insertName
    split
    · rename_i hlt
      refine List.pairwise_cons.2 ⟨fun x hx => ?_, h⟩
      rcases List.mem_cons.1 hx with rfl | hx
      · exact hlt
      · exact String.lt_trans hlt (hother x hx)
    · split
      · exact h
      · rename_i hlt hne
        refine List.pairwise_cons.2 ⟨fun x hx => ?_, ih hrest⟩
        rcases mem_insertName.1 hx with rfl | hx
        · have hle := String.not_lt.1 hlt
          exact Classical.byContradiction fun hnlt =>
            hne (String.le_antisymm (String.not_lt.1 hnlt) hle)
        · exact hother x hx

/-- A set of names. -/
structure NameSet where
  toList : List String
  ascending : toList.Pairwise (· < ·)
  deriving DecidableEq

namespace NameSet

instance : EmptyCollection NameSet := ⟨⟨[], List.Pairwise.nil⟩⟩

instance : Inhabited NameSet := ⟨∅⟩

def insert (s : NameSet) (name : String) : NameSet :=
  ⟨insertName name s.toList, pairwise_insertName s.ascending⟩

def contains (s : NameSet) (name : String) : Bool := s.toList.contains name

instance : Membership String NameSet := ⟨fun s name => name ∈ s.toList⟩

def isEmpty (s : NameSet) : Bool := s.toList.isEmpty

def size (s : NameSet) : Nat := s.toList.length

def insertAll (s : NameSet) (names : List String) : NameSet := names.foldl insert s

def ofList (names : List String) : NameSet := insertAll ∅ names

theorem mem_def {name : String} {s : NameSet} : name ∈ s ↔ name ∈ s.toList := Iff.rfl

@[simp] theorem not_mem_empty {name : String} : ¬ name ∈ (∅ : NameSet) := List.not_mem_nil

@[simp] theorem mem_insert {name x : String} {s : NameSet} :
    x ∈ s.insert name ↔ x = name ∨ x ∈ s := mem_insertName

theorem contains_iff {name : String} {s : NameSet} : s.contains name ↔ name ∈ s := by
  simp [contains, mem_def]

@[simp] theorem mem_insertAll {x : String} {s : NameSet} {names : List String} :
    x ∈ s.insertAll names ↔ x ∈ names ∨ x ∈ s := by
  induction names generalizing s with
  | nil => simp [insertAll]
  | cons name names ih =>
    have hstep : s.insertAll (name :: names) = (s.insert name).insertAll names := rfl
    rw [hstep, ih, mem_insert, List.mem_cons]
    constructor
    · rintro (h | h | h) <;> simp [h]
    · rintro ((h | h) | h) <;> simp [h]

theorem insertAll_append (s : NameSet) (names others : List String) :
    s.insertAll (names ++ others) = (s.insertAll names).insertAll others := List.foldl_append

theorem mem_ofList {x : String} {names : List String} : x ∈ ofList names ↔ x ∈ names := by
  simp [ofList]

instance : Union NameSet := ⟨fun s t => s.insertAll t.toList⟩

@[simp] theorem mem_union {x : String} {s t : NameSet} : x ∈ s ∪ t ↔ x ∈ s ∨ x ∈ t := by
  change x ∈ s.insertAll t.toList ↔ _
  rw [mem_insertAll, or_comm, mem_def (s := t)]

theorem nodup_toList (s : NameSet) : s.toList.Nodup :=
  s.ascending.imp fun {a b} (hlt : a < b) (heq : a = b) => String.lt_irrefl b (heq ▸ hlt)

/-- Sets with the same names are equal, since both list them in ascending order. -/
theorem ext {s t : NameSet} (h : ∀ x, x ∈ s ↔ x ∈ t) : s = t := by
  have hperm : s.toList.Perm t.toList :=
    (List.perm_ext_iff_of_nodup s.nodup_toList t.nodup_toList).2 h
  have heq : s.toList = t.toList :=
    hperm.eq_of_pairwise (fun _ _ _ _ hlt hgt => absurd hgt (String.lt_asymm hlt))
      s.ascending t.ascending
  cases s
  cases t
  simpa using heq

end NameSet

end DeclTree
