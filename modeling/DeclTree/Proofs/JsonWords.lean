import DeclTree.Json.Parse
import DeclTree.Json.Print
import Mathlib.Data.List.TakeDrop
/-!
Numbers and strings in JSON text. A natural number is read back from its digits, and a string from its
quoted characters, whatever follows in the text.
-/
namespace DeclTree.Json

section Numbers
variable {rest : List Char} {n : Nat}

/-- What follows does not go on with a number. -/
def EndsNumber (rest : List Char) : Prop :=
  ∀ c ∈ rest.head?, c.isDigit = false ∧ c ≠ '.' ∧ c ≠ 'e' ∧ c ≠ 'E'

theorem digits_append {ds : List Char} (hds : ∀ c ∈ ds, c.isDigit = true)
    (hrest : EndsNumber rest) : digits (ds ++ rest) = (ds, rest) := by
  have hstop : rest.takeWhile Char.isDigit = [] ∧ rest.dropWhile Char.isDigit = rest := by
    cases rest with
    | nil => exact ⟨rfl, rfl⟩
    | cons c rest => simp [(hrest c rfl).1]
  rw [digits, List.span_eq_takeWhile_dropWhile, List.takeWhile_append_of_pos hds,
    List.dropWhile_append_of_pos hds, hstop.1, hstop.2, List.append_nil]

theorem exists_toDigits_eq_cons (n : Nat) :
    ∃ d ds, Nat.toDigits 10 n = d :: ds ∧ d.isDigit = true := by
  obtain ⟨d, ds, hhead⟩ : ∃ d ds, Nat.toDigits 10 n = d :: ds :=
    List.exists_cons_of_ne_nil Nat.toDigits_ne_nil
  refine ⟨d, ds, hhead, ?_⟩
  exact Nat.isDigit_of_mem_toDigits (by decide) (by decide) (hhead ▸ List.mem_cons_self)

/-- Only zero begins with a zero. -/
theorem eq_nil_of_toDigits {ds : List Char} (h : Nat.toDigits 10 n = '0' :: ds) : ds = [] := by
  induction n using Nat.strongRecOn generalizing ds with
  | ind n ih =>
    by_cases hn : n < 10
    · rw [Nat.toDigits_of_lt_base hn] at h
      exact (List.cons.inj h).2.symm
    · rw [Nat.toDigits_of_base_le (by decide) (Nat.le_of_not_lt hn)] at h
      obtain ⟨d, tail, hhead, -⟩ := exists_toDigits_eq_cons (n / 10)
      rw [hhead, List.cons_append] at h
      obtain ⟨rfl, -⟩ := List.cons.inj h
      have htail := ih (n / 10) (by omega) hhead
      have hvalue : Nat.ofDigitChars 10 (Nat.toDigits 10 (n / 10)) 0 = n / 10 :=
        Nat.ofDigitChars_ten_toDigits
      rw [hhead, htail] at hvalue
      have hzero : Nat.ofDigitChars 10 ['0'] 0 = 0 := rfl
      omega

theorem digitsValue_toDigits (n : Nat) : digitsValue (Nat.toDigits 10 n) = n :=
  Nat.ofDigitChars_eq_foldl.symm.trans Nat.ofDigitChars_ten_toDigits

theorem whole?_toDigits (n : Nat) (hrest : EndsNumber rest) :
    whole? (Nat.toDigits 10 n ++ rest) = some (Nat.toDigits 10 n, rest) := by
  have hall : ∀ c ∈ Nat.toDigits 10 n, c.isDigit = true :=
    fun _ => Nat.isDigit_of_mem_toDigits (by decide) (by decide)
  have hdigits := digits_append hall hrest
  obtain ⟨d, ds, hhead, -⟩ := exists_toDigits_eq_cons n
  rw [hhead] at hdigits ⊢
  by_cases hzero : d = '0'
  · subst hzero
    rw [eq_nil_of_toDigits hhead]
    rfl
  · have hwhole : whole? (d :: ds ++ rest) = digits1? (d :: ds ++ rest) := by
      simp [whole?, hzero]
    rw [hwhole, digits1?, hdigits]

theorem number?_toDigits (n : Nat) (hrest : EndsNumber rest) :
    number? (Nat.toDigits 10 n ++ rest) = some (nat n, rest) := by
  have hwhole := whole?_toDigits n hrest
  have hunsigned : ∀ tail, Nat.toDigits 10 n ++ rest ≠ '-' :: tail := by
    intro tail heq
    obtain ⟨d, ds, hhead, hdigit⟩ := exists_toDigits_eq_cons n
    rw [hhead, List.cons_append] at heq
    rw [(List.cons.inj heq).1] at hdigit
    revert hdigit
    decide
  have hfraction : fraction? rest = some ([], rest) := by
    cases rest with
    | nil => rfl
    | cons c rest => simp [fraction?, (hrest c rfl).2.1]
  have hexponent : exponent? rest = some ([], rest) := by
    cases rest with
    | nil => rfl
    | cons c rest => simp [exponent?, (hrest c rfl).2.2]
  unfold number?
  split
  rename_i minus unsigned hsign
  split at hsign
  · exact absurd ‹_› (hunsigned _)
  · cases hsign
    simp [hwhole, hfraction, hexponent, digitsValue_toDigits]

end Numbers

section Strings
variable {rest : List Char}

/-- The letters that are escapes of one letter. -/
theorem stringUnits?_letter {c letter : Char} (h : escaped? letter = some c) (hu : letter ≠ 'u') :
    stringUnits? ('\\' :: letter :: rest) =
      (stringUnits? rest).map fun found => (c.toNat :: found.1, found.2) := by
  rw [stringUnits?.eq_3 _ _ (by simp [hu]), h]
  cases stringUnits? rest <;> rfl

theorem stringUnits?_plain {c : Char} (hquote : c ≠ '"') (hslash : c ≠ '\\')
    (hc : ¬ c.toNat < 0x20) : stringUnits? (c :: rest) =
      (stringUnits? rest).map fun found => (c.toNat :: found.1, found.2) := by
  rw [stringUnits?.eq_4]
  · rw [if_neg (by simp [hslash, hc])]
    cases stringUnits? rest <;> rfl
  all_goals simp [hquote, hslash]

theorem stringUnits?_number {n : Nat} (hn : n < 0x20) :
    stringUnits? ('\\' :: 'u' :: '0' :: '0' :: Nat.digitChar (n / 16) :: Nat.digitChar (n % 16) ::
      rest) = (stringUnits? rest).map fun found => (n :: found.1, found.2) := by
  have hunit : codeUnit? '0' '0' (Nat.digitChar (n / 16)) (Nat.digitChar (n % 16)) = some n := by
    revert n
    decide
  rw [stringUnits?, hunit]
  cases stringUnits? rest <;> rfl

/-- A character stands in a string as a letter, as a number or as itself. -/
theorem escape_cases (c : Char) :
    (∃ letter, escape c = ['\\', letter] ∧ escaped? letter = some c ∧ letter ≠ 'u') ∨
    (escape c = ['\\', 'u', '0', '0', Nat.digitChar (c.toNat / 16), Nat.digitChar (c.toNat % 16)] ∧
      c.toNat < 0x20) ∨
    (escape c = [c] ∧ c ≠ '"' ∧ c ≠ '\\' ∧ ¬ c.toNat < 0x20) := by
  unfold escape
  iterate 7
    split
    · exact .inl ⟨_, rfl, by simp [escaped?, *], by decide⟩
  split
  · exact .inr (.inl ⟨rfl, ‹_›⟩)
  · exact .inr (.inr ⟨rfl, ‹_›, ‹_›, ‹_›⟩)

theorem stringUnits?_escape (c : Char) (rest : List Char) :
    stringUnits? (escape c ++ rest) =
      (stringUnits? rest).map fun found => (c.toNat :: found.1, found.2) := by
  obtain ⟨letter, hescape, hletter, hu⟩ | ⟨hescape, hc⟩ | ⟨hescape, hquote, hslash, hc⟩ :=
    escape_cases c
  · rw [hescape]
    exact stringUnits?_letter hletter hu
  · rw [hescape]
    exact stringUnits?_number hc
  · rw [hescape]
    exact stringUnits?_plain hquote hslash hc

theorem stringUnits?_flatMap_escape (cs rest : List Char) :
    stringUnits? (cs.flatMap escape ++ '"' :: rest) = some (cs.map Char.toNat, rest) := by
  induction cs with
  | nil => rfl
  | cons c cs ih =>
    rw [List.flatMap_cons, List.append_assoc, stringUnits?_escape, ih]
    rfl

/-- No character is half of a surrogate pair. -/
theorem isSurrogate_toNat (c : Char) :
    isHighSurrogate c.toNat = false ∧ isLowSurrogate c.toNat = false := by
  have hvalid : c.toNat < 0xD800 ∨ 0xDFFF < c.toNat ∧ c.toNat < 0x110000 := c.valid
  simp only [isHighSurrogate, isLowSurrogate, Bool.and_eq_false_iff, decide_eq_false_iff_not]
  omega

theorem joinUnits?_map_toNat (cs : List Char) : joinUnits? (cs.map Char.toNat) = some cs := by
  induction cs with
  | nil => rfl
  | cons c cs ih =>
    obtain ⟨hhigh, hlow⟩ := isSurrogate_toNat c
    cases cs with
    | nil => simp [joinUnits?, hhigh, hlow]
    | cons d cs =>
      rw [List.map_cons] at ih
      simp [joinUnits?, hhigh, hlow, ih]

/-- A quoted string is read back, up to its closing quote. -/
theorem exists_quote (s : JsonText) : ∃ cs, quote s = '"' :: cs ∧
    ∀ rest, string? (cs ++ rest) = some (s, rest) := by
  cases s with
  | none => exact ⟨_, rfl, fun rest => rfl⟩
  | some s =>
    refine ⟨s.toList.flatMap escape ++ ['"'], rfl, fun rest => ?_⟩
    rw [string?, List.append_assoc]
    simp [stringUnits?_flatMap_escape, joinUnits?_map_toNat]

end Strings

end DeclTree.Json
