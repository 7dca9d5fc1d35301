/-!
Sets over a finite alphabet of flags, kept as the bits of one word. A flag's place in the alphabet
is its bit, so the word's value and the order of the flags both belong to the set.
-/
namespace DeclTree

/-- A finite alphabet of flags. The n-th flag of `all` owns bit n. -/
class Flag (α : Type) where
  all : List α
  bit : α → Nat
  label : α → String
  getElem?_bit : ∀ f, all[bit f]? = some f

/-- The number of flags of an alphabet. -/
abbrev Flag.width (α : Type) [Flag α] : Nat := (Flag.all (α := α)).length

theorem Flag.bit_lt_width {α : Type} [Flag α] (f : α) : Flag.bit f < Flag.width α :=
  (List.getElem?_eq_some_iff.1 (Flag.getElem?_bit f)).1

theorem Flag.mem_all {α : Type} [Flag α] (f : α) : f ∈ (Flag.all : List α) :=
  List.mem_of_getElem? (Flag.getElem?_bit f)

theorem Flag.bit_inj {α : Type} [Flag α] {f g : α} (h : Flag.bit f = Flag.bit g) : f = g := by
  have hf := Flag.getElem?_bit f
  rw [h, Flag.getElem?_bit g] at hf
  exact (Option.some.inj hf).symm

/-- A set of flags. -/
structure FlagSet (α : Type) [Flag α] where
  bits : BitVec (Flag.width α)
  deriving DecidableEq

namespace FlagSet

variable {α : Type} [Flag α]

instance : EmptyCollection (FlagSet α) := ⟨⟨0⟩⟩

instance : Inhabited (FlagSet α) := ⟨∅⟩

def contains (s : FlagSet α) (f : α) : Bool := s.bits.getLsbD (Flag.bit f)

def single (f : α) : FlagSet α := ⟨BitVec.twoPow _ (Flag.bit f)⟩

def union (s t : FlagSet α) : FlagSet α := ⟨s.bits ||| t.bits⟩

def inter (s t : FlagSet α) : FlagSet α := ⟨s.bits &&& t.bits⟩

def diff (s t : FlagSet α) : FlagSet α := ⟨s.bits &&& ~~~t.bits⟩

instance : Union (FlagSet α) := ⟨union⟩

instance : Inter (FlagSet α) := ⟨inter⟩

instance : SDiff (FlagSet α) := ⟨diff⟩

instance : Membership α (FlagSet α) := ⟨fun s f => s.contains f = true⟩

instance (f : α) (s : FlagSet α) : Decidable (f ∈ s) :=
  inferInstanceAs (Decidable (s.contains f = true))

def ofList (fs : List α) : FlagSet α := fs.foldl (fun s f => s ∪ single f) ∅

/-- The set with a flag exactly if the condition holds. -/
def when (b : Bool) (f : α) : FlagSet α := if b then single f else ∅

/-- The union of the sets that a list's elements give. -/
def unions {β : Type} (g : β → FlagSet α) (bs : List β) : FlagSet α :=
  bs.foldl (fun s b => s ∪ g b) ∅

def ofNat (n : Nat) : FlagSet α := ⟨BitVec.ofNat _ n⟩

def toNat (s : FlagSet α) : Nat := s.bits.toNat

/-- The flags of a set, lowest bit first. -/
def toList (s : FlagSet α) : List α := (Flag.all).filter s.contains

def labels (s : FlagSet α) : List String := s.toList.map Flag.label

/-- The labels of the flags, lowest bit first, with bars between them. -/
def toText (s : FlagSet α) : String := " | ".intercalate s.labels

theorem mem_def {f : α} {s : FlagSet α} : f ∈ s ↔ s.bits.getLsbD (Flag.bit f) = true := Iff.rfl

@[simp] theorem mem_union {f : α} {s t : FlagSet α} : f ∈ s ∪ t ↔ f ∈ s ∨ f ∈ t := by
  change (s.bits ||| t.bits).getLsbD (Flag.bit f) = true ↔ _
  simp [mem_def]

@[simp] theorem mem_inter {f : α} {s t : FlagSet α} : f ∈ s ∩ t ↔ f ∈ s ∧ f ∈ t := by
  change (s.bits &&& t.bits).getLsbD (Flag.bit f) = true ↔ _
  simp [mem_def]

@[simp] theorem mem_diff {f : α} {s t : FlagSet α} : f ∈ s \ t ↔ f ∈ s ∧ ¬ f ∈ t := by
  change (s.bits &&& ~~~t.bits).getLsbD (Flag.bit f) = true ↔ _
  simp [mem_def, Flag.bit_lt_width]

@[simp] theorem mem_single {f g : α} : f ∈ single g ↔ f = g := by
  change (BitVec.twoPow _ (Flag.bit g)).getLsbD (Flag.bit f) = true ↔ _
  simp only [BitVec.getLsbD_twoPow, Flag.bit_lt_width, decide_true, Bool.true_and,
    decide_eq_true_eq]
  exact ⟨fun h => (Flag.bit_inj h).symm, fun h => h ▸ rfl⟩

@[simp] theorem not_mem_empty {f : α} : ¬ f ∈ (∅ : FlagSet α) := by
  change ¬ (0 : BitVec (Flag.width α)).getLsbD (Flag.bit f) = true
  simp

theorem mem_when {b : Bool} {f g : α} : f ∈ (FlagSet.when b g) ↔ b = true ∧ f = g := by
  cases b <;> simp [FlagSet.when]

theorem mem_foldl_union {β : Type} {g : β → FlagSet α} {bs : List β} {s : FlagSet α} {f : α} :
    f ∈ bs.foldl (fun s b => s ∪ g b) s ↔ f ∈ s ∨ ∃ b ∈ bs, f ∈ g b := by
  induction bs generalizing s with
  | nil => simp
  | cons b bs ih => simp [ih, or_assoc]

theorem mem_unions {β : Type} {g : β → FlagSet α} {bs : List β} {f : α} :
    f ∈ unions g bs ↔ ∃ b ∈ bs, f ∈ g b := by
  simp [unions, mem_foldl_union]

theorem unions_map {β γ : Type} (g : γ → FlagSet α) (h : β → γ) (bs : List β) :
    unions g (bs.map h) = unions (fun b => g (h b)) bs := by
  rw [unions, List.foldl_map, unions]

theorem mem_ofList {f : α} {fs : List α} : f ∈ ofList fs ↔ f ∈ fs := by
  simp [ofList, mem_foldl_union]

theorem mem_toList {f : α} {s : FlagSet α} : f ∈ s.toList ↔ f ∈ s := by
  rw [toList, List.mem_filter]
  exact ⟨fun h => h.2, fun h => ⟨Flag.mem_all f, h⟩⟩

theorem union_comm (s t : FlagSet α) : s ∪ t = t ∪ s :=
  congrArg FlagSet.mk (BitVec.or_comm s.bits t.bits)

theorem union_assoc (s t u : FlagSet α) : s ∪ t ∪ u = s ∪ (t ∪ u) :=
  congrArg FlagSet.mk (BitVec.or_assoc s.bits t.bits u.bits)

theorem union_left_comm (s t u : FlagSet α) : s ∪ (t ∪ u) = t ∪ (s ∪ u) := by
  rw [← union_assoc, union_comm s t, union_assoc]

@[simp] theorem union_empty (s : FlagSet α) : s ∪ ∅ = s :=
  congrArg FlagSet.mk (BitVec.or_zero (x := s.bits))

@[simp] theorem empty_union (s : FlagSet α) : ∅ ∪ s = s := by
  rw [union_comm, union_empty]

@[simp] theorem union_self (s : FlagSet α) : s ∪ s = s :=
  congrArg FlagSet.mk (BitVec.or_self (x := s.bits))

theorem union_single_of_mem {f : α} {s : FlagSet α} (h : f ∈ s) : s ∪ single f = s := by
  refine congrArg FlagSet.mk (BitVec.eq_of_getLsbD_eq fun n _ => ?_)
  have hbit : s.bits.getLsbD (Flag.bit f) = true := h
  by_cases hn : Flag.bit f = n
  · simp [← hn, hbit]
  · simp [single, BitVec.getLsbD_twoPow, hn]

theorem foldl_union_eq {β : Type} (g : β → FlagSet α) (bs : List β) (s : FlagSet α) :
    bs.foldl (fun s b => s ∪ g b) s = s ∪ unions g bs := by
  induction bs generalizing s with
  | nil => simp [unions]
  | cons b bs ih => rw [unions, List.foldl_cons, List.foldl_cons, ih, ih, empty_union, union_assoc]

theorem unions_cons {β : Type} (g : β → FlagSet α) (b : β) (bs : List β) :
    unions g (b :: bs) = g b ∪ unions g bs := by
  rw [unions, List.foldl_cons, foldl_union_eq, empty_union]

theorem unions_append {β : Type} (g : β → FlagSet α) (bs cs : List β) :
    unions g (bs ++ cs) = unions g bs ∪ unions g cs := by
  rw [unions, List.foldl_append, foldl_union_eq]
  rfl

/-- Elements that give the empty set may be left out. -/
theorem unions_filter {β : Type} {g : β → FlagSet α} {p : β → Bool}
    (h : ∀ b, p b = false → g b = ∅) (bs : List β) : unions g (bs.filter p) = unions g bs := by
  induction bs with
  | nil => rfl
  | cons b bs ih =>
    rw [List.filter_cons, unions_cons]
    cases hb : p b with
    | true => rw [if_pos rfl, unions_cons, ih]
    | false => rw [if_neg Bool.false_ne_true, ih, h b hb, empty_union]

theorem getLsbD_unions {β : Type} (g : β → FlagSet α) (bs : List β) (n : Nat) :
    (unions g bs).bits.getLsbD n = bs.any fun b => (g b).bits.getLsbD n := by
  induction bs with
  | nil => exact BitVec.getLsbD_zero
  | cons b bs ih =>
    rw [unions_cons, List.any_cons, ← ih]
    exact BitVec.getLsbD_or

/-- Neither order nor repetition matters to a union. -/
theorem unions_eq_of_mem_iff {β : Type} (g : β → FlagSet α) {bs cs : List β}
    (h : ∀ b, b ∈ bs ↔ b ∈ cs) : unions g bs = unions g cs := by
  have hbits : (unions g bs).bits = (unions g cs).bits := by
    refine BitVec.eq_of_getLsbD_eq fun n _ => ?_
    rw [getLsbD_unions, getLsbD_unions, Bool.eq_iff_iff, List.any_eq_true, List.any_eq_true]
    simp only [h]
  exact congrArg FlagSet.mk hbits

theorem when_or (p q : Bool) (f : α) :
    FlagSet.when (p || q) f = FlagSet.when p f ∪ FlagSet.when q f := by
  cases p <;> cases q <;> simp [FlagSet.when]

end FlagSet

end DeclTree
