import DeclTree.Diagnostic
import Mathlib.Data.List.Infix
import Mathlib.Logic.Function.Basic
/-!
Templates, taken apart into text and places for arguments. Arguments are filled in one after another;
where neither the text nor an argument has an opening brace, this is as good as filling in all of them
at once.
-/
namespace DeclTree

/-- Whether a text has a place for the argument at an index. -/
def Mentions (text : String) (index : Nat) : Prop :=
  (placeholder index).toList <:+: text.toList

/-- Whether no place for an argument can begin in a text. -/
def Plain (text : String) : Prop := '{' ∉ text.toList

/-- A literal is unfolded to its characters here, which is faster than to decode it. -/
theorem plain_ofList {cs : List Char} (h : '{' ∉ cs) : Plain (String.ofList cs) := by
  rwa [Plain, String.toList_ofList]

namespace Text
variable {c : Char} {piece new cs rest : List Char}

theorem cons_infix_append_iff (h : c ∉ cs) : c :: piece <:+: cs ++ rest ↔ c :: piece <:+: rest := by
  induction cs with
  | nil => rfl
  | cons d cs ih =>
    obtain ⟨hd, hcs⟩ : c ≠ d ∧ c ∉ cs := by simpa using h
    rw [List.cons_append, List.infix_cons_iff, List.cons_prefix_cons, ih hcs]
    simp [hd]

theorem replaceFrom_append_of_not_mem (h : c ∉ cs) :
    replaceFrom (c :: piece) new 0 (cs ++ rest) = cs ++ replaceFrom (c :: piece) new 0 rest := by
  induction cs with
  | nil => rfl
  | cons d cs ih =>
    obtain ⟨hd, hcs⟩ : c ≠ d ∧ c ∉ cs := by simpa using h
    have hno : ¬ (c :: piece).isPrefixOf (d :: (cs ++ rest)) = true := by simp [hd]
    rw [List.cons_append, replaceFrom, if_neg hno, ih hcs, List.cons_append]

theorem replaceFrom_length_append (cs : List Char) :
    replaceFrom piece new cs.length (cs ++ rest) = replaceFrom piece new 0 rest := by
  induction cs with
  | nil => rfl
  | cons c cs ih => rw [List.length_cons, List.cons_append, replaceFrom, ih]

theorem replaceFrom_append_self :
    replaceFrom (c :: piece) new 0 (c :: piece ++ rest) =
      new ++ replaceFrom (c :: piece) new 0 rest := by
  have hpre : (c :: piece).isPrefixOf (c :: (piece ++ rest)) = true :=
    List.isPrefixOf_iff_prefix.2 (List.prefix_append (c :: piece) rest)
  rw [List.cons_append, replaceFrom, if_pos hpre, List.length_cons, Nat.add_sub_cancel,
    replaceFrom_length_append]

end Text

section Placeholders

theorem toList_placeholder (i : Nat) :
    (placeholder i).toList = '{' :: (Nat.toDigits 10 i ++ ['}']) := by
  rw [placeholder, String.toList_append, String.toList_append, Nat.toString_eq_repr,
    Nat.toList_repr]
  rfl

theorem isDigit_of_mem_toDigits {i : Nat} {c : Char} (h : c ∈ Nat.toDigits 10 i) :
    c.isDigit = true :=
  Nat.isDigit_of_mem_toDigits (by decide) (by decide) h

theorem brace_not_mem_tail (i : Nat) : '{' ∉ Nat.toDigits 10 i ++ ['}'] := by
  intro h
  obtain h | h := List.mem_append.1 h
  · exact absurd (isDigit_of_mem_toDigits h) (by decide)
  · exact absurd (List.mem_singleton.1 h) (by decide)

theorem Plain.not_mentions {text : String} (h : Plain text) (i : Nat) : ¬ Mentions text i := by
  intro hplace
  rw [Mentions, toList_placeholder] at hplace
  exact h (hplace.subset List.mem_cons_self)

/-- No place begins with another one. -/
theorem eq_of_placeholder_isPrefixOf {i j : Nat} {rest : List Char}
    (h : (placeholder i).toList <+: (placeholder j).toList ++ rest) : i = j := by
  obtain ⟨more, hmore⟩ := h
  have hdigits (k : Nat) (tail : List Char) :
      (Nat.toDigits 10 k ++ '}' :: tail).takeWhile (·.isDigit) = Nat.toDigits 10 k := by
    rw [List.takeWhile_append_of_pos fun c hc => isDigit_of_mem_toDigits hc]
    simp
  simp only [toList_placeholder, List.cons_append, List.append_assoc, List.cons.injEq,
    true_and, List.nil_append] at hmore
  have hsame := congrArg (List.takeWhile (·.isDigit)) hmore
  rw [hdigits, hdigits] at hsame
  have hnumber := congrArg (fun ds => Nat.ofDigitChars 10 ds 0) hsame
  simpa only [Nat.ofDigitChars_toDigits (by decide : 1 < 10) (by decide : 10 ≤ 10)] using hnumber

theorem replaceFrom_placeholder {i k : Nat} (h : i ≠ k) (new cs : List Char) :
    Text.replaceFrom (placeholder k).toList new 0 ((placeholder i).toList ++ cs) =
      (placeholder i).toList ++ Text.replaceFrom (placeholder k).toList new 0 cs := by
  have hno : ¬ (placeholder k).toList.isPrefixOf ((placeholder i).toList ++ cs) = true :=
    fun hpre => h (eq_of_placeholder_isPrefixOf (List.isPrefixOf_iff_prefix.1 hpre)).symm
  rw [toList_placeholder i, List.cons_append] at hno ⊢
  rw [Text.replaceFrom, if_neg hno, toList_placeholder k,
    Text.replaceFrom_append_of_not_mem (brace_not_mem_tail i), List.cons_append]

end Placeholders

/-- A part of a template. -/
inductive TemplatePart
  | text (s : String)
  | place (index : Nat)
  deriving DecidableEq

namespace TemplatePart

/-- A part with something in the places. -/
def fill (f : Nat → String) : TemplatePart → String
  | text s => s
  | place index => f index

/-- The parts in a row, with something in the places. -/
def join (f : Nat → String) (parts : List TemplatePart) : String :=
  String.join (parts.map (fill f))

/-- The parts that a template consists of. Nothing but the places can begin with a brace. -/
structure MakeUp (parts : List TemplatePart) (template : String) : Prop where
  join_eq : join placeholder parts = template
  plain : ∀ s, text s ∈ parts → Plain s

variable {parts : List TemplatePart} {f : Nat → String}

theorem toList_join_cons (p : TemplatePart) (rest : List TemplatePart) :
    (join f (p :: rest)).toList = (p.fill f).toList ++ (join f rest).toList := by
  rw [join, List.map_cons, String.join_cons, String.toList_append, join]

theorem join_congr {g : Nat → String} (h : ∀ i, place i ∈ parts → f i = g i) :
    join f parts = join g parts := by
  have hfill : parts.map (fill f) = parts.map (fill g) := by
    refine List.map_congr_left fun p hp => ?_
    cases p with
    | text s => rfl
    | place i => exact h i hp
  rw [join, hfill, join]

theorem plain_join (hplain : ∀ s, text s ∈ parts → Plain s)
    (hf : ∀ i, place i ∈ parts → Plain (f i)) : Plain (join f parts) := by
  induction parts with
  | nil => simp [Plain, join]
  | cons p rest ih =>
    have hrest := ih (fun s hs => hplain s (List.mem_cons_of_mem p hs))
      fun i hi => hf i (List.mem_cons_of_mem p hi)
    have hp : Plain (p.fill f) := by
      cases p with
      | text s => exact hplain s List.mem_cons_self
      | place i => exact hf i List.mem_cons_self
    rw [Plain, toList_join_cons, List.mem_append, not_or]
    exact ⟨hp, hrest⟩

/-- The places for arguments in a template are those among its parts. -/
theorem MakeUp.mentions_iff {template : String} (h : MakeUp parts template) (i : Nat) :
    Mentions template i ↔ place i ∈ parts := by
  obtain ⟨rfl, hplain⟩ := h
  rw [Mentions]
  induction parts with
  | nil => simp [join, toList_placeholder]
  | cons p rest ih =>
    have hrest := ih fun s hs => hplain s (List.mem_cons_of_mem p hs)
    rw [toList_join_cons, List.mem_cons, ← hrest]
    cases p with
    | text s =>
      rw [toList_placeholder, fill, Text.cons_infix_append_iff (hplain s List.mem_cons_self)]
      simp
    | place j =>
      have hplace : (placeholder i).toList <+: (placeholder j).toList ++ (join placeholder rest).toList ↔
          place i = place j := by
        refine ⟨fun h => congrArg place (eq_of_placeholder_isPrefixOf h), fun h => ?_⟩
        cases h
        exact List.prefix_append _ _
      rw [← hplace, fill, toList_placeholder j, List.cons_append, List.infix_cons_iff,
        toList_placeholder i, Text.cons_infix_append_iff (brace_not_mem_tail j)]

section Filling
variable (hplain : ∀ s, text s ∈ parts → Plain s)
include hplain

/-- Replacing the place of one argument changes what stands in that place and nothing else. -/
theorem replaceAll_join {k : Nat} (hk : f k = placeholder k)
    (hf : ∀ i ≠ k, f i = placeholder i ∨ Plain (f i)) (arg : String) :
    Text.replaceAll (placeholder k) arg (join f parts) = join (Function.update f k arg) parts := by
  have hrest (p : TemplatePart) (cs : List Char) (hp : ∀ s, p = text s → Plain s) :
      Text.replaceFrom (placeholder k).toList arg.toList 0 ((p.fill f).toList ++ cs) =
        (p.fill (Function.update f k arg)).toList ++
          Text.replaceFrom (placeholder k).toList arg.toList 0 cs := by
    cases p with
    | text s =>
      rw [toList_placeholder k]
      exact Text.replaceFrom_append_of_not_mem (hp s rfl)
    | place i =>
      by_cases hi : i = k
      · rw [hi, fill, fill, hk, Function.update_self, toList_placeholder k]
        exact Text.replaceFrom_append_self
      · rw [fill, fill, Function.update_of_ne hi]
        obtain hplace | hfilled := hf i hi
        · rw [hplace]
          exact replaceFrom_placeholder hi _ _
        · rw [toList_placeholder k]
          exact Text.replaceFrom_append_of_not_mem hfilled
  rw [Text.replaceAll, ← String.toList_inj, String.toList_ofList]
  induction parts with
  | nil => rfl
  | cons p rest ih =>
    have hp (s : String) (hs : p = text s) : Plain s := hplain s (hs ▸ List.mem_cons_self)
    rw [toList_join_cons, hrest p _ hp, toList_join_cons,
      ih fun s hs => hplain s (List.mem_cons_of_mem p hs)]

theorem fillFrom_join {k : Nat} {args : List String} (hargs : ∀ arg ∈ args, Plain arg)
    (hfilled : ∀ i < k, Plain (f i)) (hopen : ∀ i ≥ k, f i = placeholder i) :
    fillFrom k (join f parts) args =
      join (fun i => if i < k then f i else args.getD (i - k) (f i)) parts := by
  induction args generalizing k f with
  | nil => simp [fillFrom]
  | cons arg args ih =>
    have hone := replaceAll_join hplain (hopen k (Nat.le_refl k)) (fun i hi => by
      by_cases hlt : i < k
      · exact .inr (hfilled i hlt)
      · exact .inl (hopen i (by omega))) arg
    have hfilled' : ∀ i < k + 1, Plain (Function.update f k arg i) := by
      intro i hi
      by_cases hik : i = k
      · rw [hik, Function.update_self]
        exact hargs arg List.mem_cons_self
      · rw [Function.update_of_ne hik]
        exact hfilled i (by omega)
    have hopen' : ∀ i ≥ k + 1, Function.update f k arg i = placeholder i := by
      intro i hi
      rw [Function.update_of_ne (by omega)]
      exact hopen i (by omega)
    rw [fillFrom, hone, ih (fun a ha => hargs a (List.mem_cons_of_mem arg ha)) hfilled' hopen']
    congr 1
    funext i
    obtain hlt | rfl | hgt := Nat.lt_trichotomy i k
    · rw [if_pos (by omega), if_pos hlt, Function.update_of_ne (by omega)]
    · simp
    · obtain ⟨n, rfl⟩ : ∃ n, i = k + 1 + n := ⟨i - (k + 1), by omega⟩
      rw [if_neg (by omega), if_neg (by omega), Function.update_of_ne (by omega),
        show k + 1 + n - k = n + 1 by omega, show k + 1 + n - (k + 1) = n by omega,
        List.getD_cons_succ]

end Filling

theorem formatMessage_eq {template : String} (h : MakeUp parts template) {args : List String}
    (hargs : ∀ arg ∈ args, Plain arg) :
    formatMessage template args = join (fun i => args.getD i (placeholder i)) parts := by
  obtain ⟨rfl, hplain⟩ := h
  rw [formatMessage, fillFrom_join hplain hargs (by simp) fun _ _ => rfl]
  simp

end TemplatePart

end DeclTree
