import DeclTree.Proofs.Templates
import Mathlib.Data.List.Infix
/-!
Templates against substitution at one stroke. `formatMessage` fills in one argument after another, so
an argument is filled into what earlier ones have left. This is the same as filling in all of them
at once exactly as long as no place stands in the text that was not in the template: a place that an
argument brings along, or completes together with the text around it, is taken for one of the template.
-/
namespace DeclTree

/-- A text and what comes of it when every place that has an argument is filled at once. What stands
between the places is kept, and what an argument puts into a place is not read again. -/
inductive Fills (args : List String) : List Char → List Char → Prop
  | nil : Fills args [] []
  | place {i : Nat} {arg : String} {cs out : List Char} (harg : args[i]? = some arg)
      (hrest : Fills args cs out) : Fills args ((placeholder i).toList ++ cs) (arg.toList ++ out)
  | char {c : Char} {cs out : List Char}
      (hno : ∀ i < args.length, ¬ (placeholder i).toList <+: c :: cs)
      (hrest : Fills args cs out) : Fills args (c :: cs) (c :: out)

/-- How many places for the argument at an index stand in a text. -/
def places (index : Nat) (text : List Char) : Nat :=
  text.tails.countP ((placeholder index).toList.isPrefixOf ·)

section Places
variable {i : Nat} {c : Char} {cs ds : List Char}

theorem places_cons_of_isPrefix (h : (placeholder i).toList <+: c :: cs) :
    places i (c :: cs) = places i cs + 1 := by
  rw [places, List.tails_cons, List.countP_cons_of_pos (List.isPrefixOf_iff_prefix.2 h), places]

theorem places_cons_of_not_isPrefix (h : ¬ (placeholder i).toList <+: c :: cs) :
    places i (c :: cs) = places i cs := by
  rw [places, List.tails_cons, List.countP_cons_of_neg fun hp => h (List.isPrefixOf_iff_prefix.1 hp),
    places]

theorem places_le_append (i : Nat) (ds cs : List Char) : places i cs ≤ places i (ds ++ cs) := by
  induction ds with
  | nil => exact Nat.le_refl _
  | cons d ds ih =>
    rw [List.cons_append]
    by_cases h : (placeholder i).toList <+: d :: (ds ++ cs)
    · rw [places_cons_of_isPrefix h]
      omega
    · rwa [places_cons_of_not_isPrefix h]

theorem not_isPrefix_placeholder (h : c ≠ '{') : ¬ (placeholder i).toList <+: c :: cs := by
  rw [toList_placeholder, List.cons_prefix_cons]
  exact fun hp => h hp.1.symm

theorem places_append_of_not_mem (h : '{' ∉ ds) : places i (ds ++ cs) = places i cs := by
  induction ds with
  | nil => rfl
  | cons d ds ih =>
    obtain ⟨hd, hds⟩ : '{' ≠ d ∧ '{' ∉ ds := by simpa using h
    rw [List.cons_append, places_cons_of_not_isPrefix (not_isPrefix_placeholder hd.symm), ih hds]

theorem places_placeholder_append (i j : Nat) (cs : List Char) :
    places i ((placeholder j).toList ++ cs) = places i cs + if i = j then 1 else 0 := by
  have hrest : places i (Nat.toDigits 10 j ++ ['}'] ++ cs) = places i cs :=
    places_append_of_not_mem (brace_not_mem_tail j)
  have hcons : (placeholder j).toList ++ cs = '{' :: (Nat.toDigits 10 j ++ ['}'] ++ cs) := by
    rw [toList_placeholder, List.cons_append]
  by_cases h : i = j
  · have hpre : (placeholder i).toList <+: (placeholder j).toList ++ cs := h ▸ List.prefix_append _ _
    rw [hcons] at hpre ⊢
    rw [places_cons_of_isPrefix hpre, hrest, if_pos h]
  · have hno : ¬ (placeholder i).toList <+: (placeholder j).toList ++ cs :=
      fun hp => h (eq_of_placeholder_isPrefixOf hp)
    rw [hcons] at hno ⊢
    rw [places_cons_of_not_isPrefix hno, hrest, if_neg h, Nat.add_zero]

/-- Text in front in which no place begins is copied. -/
theorem replaceFrom_append_of_places_eq (new : List Char)
    (h : places i (ds ++ cs) = places i cs) :
    Text.replaceFrom (placeholder i).toList new 0 (ds ++ cs) =
      ds ++ Text.replaceFrom (placeholder i).toList new 0 cs := by
  induction ds with
  | nil => rfl
  | cons d ds ih =>
    have hle := places_le_append i ds cs
    have hno : ¬ (placeholder i).toList <+: d :: (ds ++ cs) := by
      intro hp
      rw [List.cons_append, places_cons_of_isPrefix hp] at h
      omega
    rw [List.cons_append, places_cons_of_not_isPrefix hno] at h
    rw [List.cons_append, Text.replaceFrom, if_neg fun hp => hno (List.isPrefixOf_iff_prefix.1 hp),
      ih h, List.cons_append]

theorem replaceFrom_placeholder_append (i : Nat) (new cs : List Char) :
    Text.replaceFrom (placeholder i).toList new 0 ((placeholder i).toList ++ cs) =
      new ++ Text.replaceFrom (placeholder i).toList new 0 cs := by
  rw [toList_placeholder]
  exact Text.replaceFrom_append_self

end Places

namespace Fills
variable {args : List String} {cs ds out out' : List Char}

/-- Text in front in which no place begins is kept. -/
theorem of_append_of_not_mem (hds : '{' ∉ ds) (h : Fills args (ds ++ cs) out) :
    ∃ rest, out = ds ++ rest ∧ Fills args cs rest := by
  induction ds generalizing out with
  | nil => exact ⟨out, rfl, h⟩
  | cons d ds ih =>
    obtain ⟨hd, hds⟩ : '{' ≠ d ∧ '{' ∉ ds := by simpa using hds
    generalize htext : d :: ds ++ cs = text at h
    cases h with
    | nil => cases htext
    | place harg hrest =>
      rw [toList_placeholder, List.cons_append, List.cons_append] at htext
      exact absurd (List.cons.inj htext).1.symm hd
    | char hno hrest =>
      obtain ⟨rfl, rfl⟩ := List.cons.inj htext
      obtain ⟨rest, rfl, hcs⟩ := ih hds hrest
      exact ⟨rest, rfl, hcs⟩

/-- A place that has an argument is filled with this argument. -/
theorem of_placeholder_append {i : Nat} {arg : String} (harg : args[i]? = some arg)
    (h : Fills args ((placeholder i).toList ++ cs) out) :
    ∃ rest, out = arg.toList ++ rest ∧ Fills args cs rest := by
  have hi : i < args.length := (List.getElem?_eq_some_iff.1 harg).1
  generalize htext : (placeholder i).toList ++ cs = text at h
  cases h with
  | nil =>
    rw [toList_placeholder] at htext
    cases htext
  | place harg' hrest =>
    obtain rfl := eq_of_placeholder_isPrefixOf ⟨_, htext⟩
    obtain rfl := List.append_cancel_left htext
    obtain rfl := Option.some.inj (harg.symm.trans harg')
    exact ⟨_, rfl, hrest⟩
  | char hno hrest => exact absurd ⟨_, htext⟩ (hno i hi)

theorem unique (h : Fills args cs out) (h' : Fills args cs out') : out = out' := by
  induction h generalizing out' with
  | nil =>
    generalize htext : ([] : List Char) = text at h'
    cases h' with
    | nil => rfl
    | place harg hrest =>
      rw [toList_placeholder] at htext
      cases htext
    | char hno hrest => cases htext
  | place harg hrest ih =>
    obtain ⟨rest, rfl, hrest'⟩ := of_placeholder_append harg h'
    rw [ih hrest']
  | @char c cs out hno hrest ih =>
    generalize htext : c :: cs = text at h'
    cases h' with
    | nil => cases htext
    | place harg hrest' =>
      exact absurd ⟨_, htext.symm⟩ (hno _ (List.getElem?_eq_some_iff.1 harg).1)
    | char hno' hrest' =>
      obtain ⟨rfl, rfl⟩ := List.cons.inj htext
      rw [ih hrest']

/-- Every text can be filled. -/
theorem exists_of (args : List String) (cs : List Char) : ∃ out, Fills args cs out := by
  induction hn : cs.length using Nat.strongRecOn generalizing cs with
  | ind n ih =>
    cases cs with
    | nil => exact ⟨[], .nil⟩
    | cons c cs =>
      by_cases hplace : ∃ i < args.length, (placeholder i).toList <+: c :: cs
      · obtain ⟨i, hi, rest, hrest⟩ := hplace
        have hlt : rest.length < n := by
          rw [← hn, ← hrest, List.length_append, toList_placeholder]
          simp
        obtain ⟨out, hout⟩ := ih rest.length hlt rest rfl
        exact hrest ▸ ⟨_, .place (List.getElem?_eq_getElem hi) hout⟩
      · obtain ⟨out, hout⟩ := ih cs.length (by rw [← hn]; simp) cs rfl
        exact ⟨c :: out, .char (fun i hi hp => hplace ⟨i, hi, hp⟩) hout⟩

/-- A place without an argument is kept, and stands where it stood. -/
theorem placeholder_kept {c : Char} {k : Nat} (hplace : (placeholder k).toList <+: c :: cs)
    (h : Fills args cs out) :
    ∃ tail cs' out', (placeholder k).toList = c :: tail ∧ '{' ∉ tail ∧ cs = tail ++ cs' ∧
      out = tail ++ out' := by
  obtain ⟨cs', hcs⟩ := hplace
  rw [toList_placeholder, List.cons_append] at hcs
  obtain ⟨rfl, rfl⟩ := List.cons.inj hcs
  obtain ⟨out', rfl, -⟩ := of_append_of_not_mem (brace_not_mem_tail k) h
  exact ⟨_, cs', out', toList_placeholder k, brace_not_mem_tail k, rfl, rfl⟩

theorem getElem?_take_eq_some_iff {k i : Nat} {arg : String} :
    (args.take k)[i]? = some arg ↔ i < k ∧ args[i]? = some arg := by
  rw [List.getElem?_take]
  split <;> simp [*]

section Step
variable {k : Nat}

/-- Filling loses no place of a later argument. -/
theorem places_le (h : Fills (args.take k) cs out) : places k cs ≤ places k out := by
  induction h with
  | nil => exact Nat.le_refl _
  | @place i arg cs out harg hrest ih =>
    have hik : i < k := (getElem?_take_eq_some_iff.1 harg).1
    rw [places_placeholder_append, if_neg (Nat.ne_of_gt hik), Nat.add_zero]
    exact ih.trans (places_le_append k _ _)
  | @char c cs out hno hrest ih =>
    by_cases hplace : (placeholder k).toList <+: c :: cs
    · obtain ⟨tail, -, out', htail, -, -, rfl⟩ := placeholder_kept hplace hrest
      have hplace' : (placeholder k).toList <+: c :: (tail ++ out') := ⟨out', by rw [htail]; rfl⟩
      rw [places_cons_of_isPrefix hplace, places_cons_of_isPrefix hplace']
      exact Nat.succ_le_succ ih
    · rw [places_cons_of_not_isPrefix hplace]
      exact ih.trans (places_le_append k [c] out)

/-- The step from the first arguments to one more of them. If no place of the next argument has
come with the earlier ones, then replacing its places fills them in the text as it was. -/
theorem replaceFrom {arg : String} (harg : args[k]? = some arg)
    (h : Fills (args.take k) cs out) (hplaces : places k out = places k cs) :
    Fills (args.take (k + 1)) cs (Text.replaceFrom (placeholder k).toList arg.toList 0 out) := by
  have hk : k < args.length := (List.getElem?_eq_some_iff.1 harg).1
  have hlen : (args.take (k + 1)).length = k + 1 := by
    rw [List.length_take]
    omega
  induction h with
  | nil => exact .nil
  | @place i arg' cs out harg' hrest ih =>
    obtain ⟨hik, hargs⟩ := getElem?_take_eq_some_iff.1 harg'
    have hle := hrest.places_le
    have hle' := places_le_append k arg'.toList out
    rw [places_placeholder_append, if_neg (Nat.ne_of_gt hik), Nat.add_zero] at hplaces
    rw [replaceFrom_append_of_places_eq _ (by omega)]
    exact .place (getElem?_take_eq_some_iff.2 ⟨by omega, hargs⟩) (ih (by omega))
  | @char c cs out hno hrest ih =>
    have hle := hrest.places_le
    by_cases hplace : (placeholder k).toList <+: c :: cs
    · -- The place is the next argument's: it is filled now, and the rest by the hypothesis.
      obtain ⟨tail, cs', out', htail, hplain, rfl, rfl⟩ := placeholder_kept hplace hrest
      have hplace' : (placeholder k).toList <+: c :: (tail ++ out') := ⟨out', by rw [htail]; rfl⟩
      have hrest' := ih (by
        rw [places_cons_of_isPrefix hplace, places_cons_of_isPrefix hplace'] at hplaces
        omega)
      rw [replaceFrom_append_of_places_eq _ (places_append_of_not_mem hplain)] at hrest'
      obtain ⟨filled, hfilled, hrest'⟩ := of_append_of_not_mem hplain hrest'
      rw [← List.cons_append, ← List.cons_append, ← htail, replaceFrom_placeholder_append,
        List.append_cancel_left hfilled]
      exact .place (getElem?_take_eq_some_iff.2 ⟨Nat.lt_succ_self k, harg⟩) hrest'
    · rw [places_cons_of_not_isPrefix hplace] at hplaces
      have hle' := places_le_append k [c] out
      rw [List.singleton_append] at hle'
      have hplace' : ¬ (placeholder k).toList <+: c :: out := by
        intro hp
        rw [places_cons_of_isPrefix hp] at hplaces
        omega
      rw [Text.replaceFrom, if_neg fun hp => hplace' (List.isPrefixOf_iff_prefix.1 hp)]
      refine .char (fun i hi hp => ?_) (ih (by omega))
      rw [hlen] at hi
      obtain hlt | rfl := Nat.lt_succ_iff_lt_or_eq.1 hi
      · exact hno i (by rw [List.length_take]; omega) hp
      · exact hplace hp

end Step

end Fills

section Steps

theorem fillFrom_concat (k : Nat) (template : String) (args : List String) (arg : String) :
    fillFrom k template (args ++ [arg]) =
      Text.replaceAll (placeholder (k + args.length)) arg (fillFrom k template args) := by
  induction args generalizing k template with
  | nil => rfl
  | cons a args ih =>
    rw [List.cons_append, fillFrom, ih, fillFrom, List.length_cons, Nat.add_right_comm, Nat.add_assoc]

variable {args : List String} {k : Nat} {arg : String}

/-- One more argument is filled into the text that the ones before it have left. -/
theorem formatMessage_take_succ (template : String) (harg : args[k]? = some arg) :
    formatMessage template (args.take (k + 1)) =
      Text.replaceAll (placeholder k) arg (formatMessage template (args.take k)) := by
  have hk : k < args.length := (List.getElem?_eq_some_iff.1 harg).1
  rw [formatMessage, List.take_add_one, harg, Option.toList_some, fillFrom_concat, List.length_take,
    Nat.min_eq_left (Nat.le_of_lt hk), Nat.zero_add, formatMessage]

/-- What the first arguments make of a template is their substitution, as long as none of them has
brought a place of a later one. -/
theorem fills_formatMessage_take {template : String} (hk : k ≤ args.length)
    (hplaces : ∀ j < k, places j (formatMessage template (args.take j)).toList =
      places j template.toList) :
    Fills (args.take k) template.toList (formatMessage template (args.take k)).toList := by
  induction k with
  | zero =>
    rw [List.take_zero, formatMessage, fillFrom]
    generalize template.toList = cs
    induction cs with
    | nil => exact .nil
    | cons c cs ih => exact .char (fun i hi => absurd hi (Nat.not_lt_zero i)) ih
  | succ k ih =>
    have harg := List.getElem?_eq_getElem (show k < args.length by omega)
    have hfilled := ih (by omega) fun j hj => hplaces j (by omega)
    rw [formatMessage_take_succ template harg, Text.replaceAll, String.toList_ofList]
    exact hfilled.replaceFrom harg (hplaces k (Nat.lt_succ_self k))

/-- A message is its template with every place filled at once, and nothing else is, provided that
whenever an argument's turn comes its places are as many as in the template. -/
theorem fills_iff_eq_formatMessage {template : String}
    (hplaces : ∀ j < args.length, places j (formatMessage template (args.take j)).toList =
      places j template.toList) (message : String) :
    Fills args template.toList message.toList ↔ message = formatMessage template args := by
  have hfilled := fills_formatMessage_take (Nat.le_refl args.length) hplaces
  rw [List.take_length] at hfilled
  refine ⟨fun h => String.toList_inj.1 (h.unique hfilled), ?_⟩
  rintro rfl
  exact hfilled

def sampleTemplate : String := "\x7b\x7b0\x7d\x7d: \x7b1\x7d"

/-- One argument consists of braces and one looks like a place, but not of a later argument. -/
def sampleArgs : List String := ["\x7b\x7d", "\x7b0\x7d"]

theorem fills_sampleTemplate :
    (∀ j < sampleArgs.length, places j (formatMessage sampleTemplate (sampleArgs.take j)).toList =
      places j sampleTemplate.toList) ∧
      Fills sampleArgs sampleTemplate.toList "\x7b\x7b\x7d\x7d: \x7b0\x7d".toList := by
  have hplaces : ∀ j < sampleArgs.length,
      places j (formatMessage sampleTemplate (sampleArgs.take j)).toList =
        places j sampleTemplate.toList := by
    decide +kernel
  exact ⟨hplaces, (fills_iff_eq_formatMessage hplaces _).2 (by decide +kernel)⟩

/-- Without the condition, a place is read out of an argument, or out of an argument and the braces
around it, and filled with the argument after it. -/
theorem not_fills_formatMessage :
    ¬ Fills ["\x7b1\x7d", "x"] "\x7b0\x7d".toList
        (formatMessage "\x7b0\x7d" ["\x7b1\x7d", "x"]).toList ∧
      ¬ Fills ["1", "x"] "\x7b\x7b0\x7d\x7d".toList
        (formatMessage "\x7b\x7b0\x7d\x7d" ["1", "x"]).toList := by
  have halone : Fills ["\x7b1\x7d", "x"] "\x7b0\x7d".toList "\x7b1\x7d".toList := by
    have hplace := Fills.place (i := 0) (show ["\x7b1\x7d", "x"][0]? = some "\x7b1\x7d" from rfl) .nil
    rwa [List.append_nil, List.append_nil, show placeholder 0 = "\x7b0\x7d" by decide +kernel] at hplace
  have hbraces : Fills ["1", "x"] ['{', '{', '0', '}', '}'] ['{', '1', '}'] := by
    refine .char (by decide +kernel) ?_
    have hplace := Fills.place (i := 0) (show ["1", "x"][0]? = some "1" from rfl)
      (.char (by decide +kernel : ∀ i < 2, ¬ (placeholder i).toList <+: '}' :: []) .nil)
    rwa [show (placeholder 0).toList = ['{', '0', '}'] by decide +kernel] at hplace
  refine ⟨fun h => ?_, fun h => ?_⟩
  · exact absurd (h.unique halone) (by decide +kernel)
  · have htext : "\x7b\x7b0\x7d\x7d".toList = ['{', '{', '0', '}', '}'] := by decide +kernel
    exact absurd ((htext ▸ h).unique hbraces) (by decide +kernel)

end Steps

end DeclTree
