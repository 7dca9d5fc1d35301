import Mathlib.Data.List.Nodup
import DeclTree.Declaration.Modifiers
import DeclTree.Text.Split
/-!
The set that a list of modifier tokens becomes. Two accessibilities are written with two words each,
and stand for both; but for them a set holds what its tokens say. So the words of the set are those of
the tokens, each once, in whichever order and however often the tokens are written.
-/
namespace DeclTree

namespace Modifier
variable {f g : Modifier}

/-- The modifiers that the words of a modifier stand for, one for each word. -/
def parts : Modifier → List Modifier
  | protectedInternalMod => [protectedMod, internalMod]
  | privateProtectedMod => [privateMod, protectedMod]
  | f => [f]

theorem split_keyword (f : Modifier) : Text.split ' ' f.keyword = f.parts.map keyword := by
  cases f <;> decide

theorem nodup_keywords : ((Flag.all : List Modifier).map keyword).Nodup := by decide +kernel

theorem keyword_inj (h : f.keyword = g.keyword) : f = g :=
  List.inj_on_of_nodup_map nodup_keywords (Flag.mem_all f) (Flag.mem_all g) h

theorem nodup_parts (f : Modifier) : f.parts.Nodup := by cases f <;> decide

theorem mem_writtenOrder (f : Modifier) : f ∈ writtenOrder := by cases f <;> decide

theorem nodup_writtenOrder : writtenOrder.Nodup := by decide

section Kinds
variable {k : SyntaxKind}

theorem isSome_ofKind? (k : SyntaxKind) : (ofKind? k).isSome = k.isModifier := by cases k <;> rfl

theorem keywordText?_of_ofKind? (h : ofKind? k = some f) : k.keywordText? = some f.keyword := by
  unfold ofKind? at h
  split at h <;> cases h <;> rfl

/-- A token stands for one word. -/
theorem parts_of_ofKind? (h : ofKind? k = some f) : f.parts = [f] := by
  unfold ofKind? at h
  split at h <;> cases h <;> rfl

theorem ofKind?_inj {k' : SyntaxKind} (h : ofKind? k = some f) (h' : ofKind? k' = some f) :
    k = k' := by
  unfold ofKind? at h
  split at h <;> cases h <;> (unfold ofKind? at h'; split at h' <;> first | rfl | cases h')

theorem exists_keyword_iff {w : String} : (∃ f, ofKind? k = some f ∧ f.keyword = w) ↔
    k.isModifier = true ∧ k.keywordText? = some w := by
  rw [← isSome_ofKind?, Option.isSome_iff_exists]
  constructor
  · rintro ⟨f, hf, rfl⟩
    exact ⟨⟨f, hf⟩, keywordText?_of_ofKind? hf⟩
  · rintro ⟨⟨f, hf⟩, hw⟩
    rw [keywordText?_of_ofKind? hf] at hw
    exact ⟨f, hf, Option.some.inj hw⟩

end Kinds

end Modifier

namespace Modifiers
variable {s : Modifiers} {f g pair : Modifier}

/-- Combining leaves a set alone, or puts one accessibility of two words in the place of two that are
all the accessibilities of the set. -/
theorem combineAccessibility_cases (s : Modifiers) : s.combineAccessibility = s ∨
    ∃ pair, (∀ f, f ∈ s ∧ f ∈ Modifier.accessibilities ↔ f ∈ pair.parts) ∧
      ∀ f, f ∈ s.combineAccessibility ↔ f = pair ∨ f ∈ s ∧ f ∉ Modifier.accessibilities := by
  have hpair {pair : Modifier}
      (haccess : s ∩ .ofList Modifier.accessibilities = .ofList pair.parts) :
      (∀ f, f ∈ s ∧ f ∈ Modifier.accessibilities ↔ f ∈ pair.parts) ∧
        ∀ f, f ∈ (s \ .ofList Modifier.accessibilities) ∪ .single pair ↔
          f = pair ∨ f ∈ s ∧ f ∉ Modifier.accessibilities := by
    refine ⟨fun f => ?_, fun f => ?_⟩
    · have hf : f ∈ s ∩ .ofList Modifier.accessibilities ↔
          f ∈ (FlagSet.ofList pair.parts : Modifiers) := by rw [haccess]
      rwa [FlagSet.mem_inter, FlagSet.mem_ofList, FlagSet.mem_ofList] at hf
    · rw [FlagSet.mem_union, FlagSet.mem_diff, FlagSet.mem_single, FlagSet.mem_ofList, or_comm]
  unfold combineAccessibility
  dsimp only
  split
  · exact .inr ⟨.protectedInternalMod, hpair ‹_›⟩
  · split
    · exact .inr ⟨.privateProtectedMod, hpair ‹_›⟩
    · exact .inl rfl

section Words
variable (hs : ∀ f ∈ s, f.parts = [f])
include hs

/-- Combining keeps what the words of a set stand for. -/
theorem exists_parts_combineAccessibility :
    (∃ f ∈ s.combineAccessibility, g ∈ f.parts) ↔ g ∈ s := by
  have hself {f : Modifier} (hf : f ∈ s) : g ∈ f.parts ↔ g = f := by
    rw [hs f hf, List.mem_singleton]
  obtain hsame | ⟨pair, hparts, hmem⟩ := s.combineAccessibility_cases
  · rw [hsame]
    exact ⟨fun ⟨f, hf, hg⟩ => (hself hf).1 hg ▸ hf, fun hg => ⟨g, hg, (hself hg).2 rfl⟩⟩
  · constructor
    · rintro ⟨f, hf, hg⟩
      obtain rfl | ⟨hf, -⟩ := (hmem f).1 hf
      · exact ((hparts g).2 hg).1
      · exact (hself hf).1 hg ▸ hf
    · intro hg
      by_cases haccess : g ∈ Modifier.accessibilities
      · exact ⟨pair, (hmem pair).2 (.inl rfl), (hparts g).1 ⟨hg, haccess⟩⟩
      · exact ⟨g, (hmem g).2 (.inr ⟨hg, haccess⟩), (hself hg).2 rfl⟩

/-- No two modifiers of a combined set have a word in common. -/
theorem eq_of_mem_parts (hf : f ∈ s.combineAccessibility) (hg : g ∈ s.combineAccessibility)
    {part : Modifier} (hfpart : part ∈ f.parts) (hgpart : part ∈ g.parts) : f = g := by
  have hself {f : Modifier} (hf : f ∈ s) (hpart : part ∈ f.parts) : part = f := by
    rwa [hs f hf, List.mem_singleton] at hpart
  obtain hsame | ⟨pair, hparts, hmem⟩ := s.combineAccessibility_cases
  · rw [hsame] at hf hg
    exact (hself hf hfpart).symm.trans (hself hg hgpart)
  · obtain rfl | ⟨hf, hfaccess⟩ := (hmem f).1 hf
    · obtain rfl | ⟨hg, hgaccess⟩ := (hmem g).1 hg
      · rfl
      · obtain rfl := hself hg hgpart
        exact absurd ((hparts _).2 hfpart).2 hgaccess
    · obtain rfl := hself hf hfpart
      obtain rfl | ⟨hg, -⟩ := (hmem g).1 hg
      · exact absurd ((hparts _).2 hgpart).2 hfaccess
      · exact hself hg hgpart

/-- An accessibility of two words stands alone. -/
theorem eq_pair_of_mem (hpair : pair ∈ s.combineAccessibility) (htwo : pair.parts ≠ [pair])
    (hf : f ∈ s.combineAccessibility) (haccess : f ∈ Modifier.accessibilities) : f = pair := by
  obtain hsame | ⟨other, -, hmem⟩ := s.combineAccessibility_cases
  · rw [hsame] at hpair
    exact absurd (hs pair hpair) htwo
  · obtain rfl | ⟨hpair, -⟩ := (hmem pair).1 hpair
    · obtain rfl | ⟨-, hnot⟩ := (hmem f).1 hf
      · rfl
      · exact absurd haccess hnot
    · exact absurd (hs pair hpair) htwo

end Words

/-- The words of the keywords of a set. -/
theorem flatMap_keywords (m : Modifiers) : m.keywords.flatMap (Text.split ' ') =
    (Modifier.writtenOrder.filter fun f => m.contains f).flatMap fun f =>
      f.parts.map Modifier.keyword := by
  rw [keywords, List.flatMap_map]
  simp only [Modifier.split_keyword]

theorem mem_words {m : Modifiers} {w : String} : w ∈ m.keywords.flatMap (Text.split ' ') ↔
    ∃ part, (∃ f ∈ m, part ∈ f.parts) ∧ part.keyword = w := by
  rw [flatMap_keywords, List.mem_flatMap]
  constructor
  · rintro ⟨f, hf, hw⟩
    obtain ⟨part, hpart, rfl⟩ := List.mem_map.1 hw
    exact ⟨part, ⟨f, (List.mem_filter.1 hf).2, hpart⟩, rfl⟩
  · rintro ⟨part, ⟨f, hf, hpart⟩, rfl⟩
    exact ⟨f, List.mem_filter.2 ⟨f.mem_writtenOrder, hf⟩, List.mem_map_of_mem hpart⟩

theorem nodup_words {m : Modifiers} (hm : ∀ f ∈ m, ∀ g ∈ m, ∀ part ∈ f.parts, part ∈ g.parts → f = g) :
    (m.keywords.flatMap (Text.split ' ')).Nodup := by
  rw [flatMap_keywords, List.nodup_flatMap]
  refine ⟨fun f _ => f.nodup_parts.map fun _ _ => Modifier.keyword_inj, ?_⟩
  refine (Modifier.nodup_writtenOrder.filter _).imp_of_mem fun {f g} hf hg hne => ?_
  refine List.disjoint_left.2 fun w hw hw' => hne ?_
  obtain ⟨part, hpart, rfl⟩ := List.mem_map.1 hw
  obtain ⟨part', hpart', hsame⟩ := List.mem_map.1 hw'
  obtain rfl := Modifier.keyword_inj hsame
  exact hm f (List.mem_filter.1 hf).2 g (List.mem_filter.1 hg).2 _ hpart hpart'

end Modifiers

namespace ModifierToken
variable {a : Arena} {i : NodeIndex} {rest : NodeList}

theorem ofList_cons_of_modifier {k : SyntaxKind} {f : Modifier} (hk : a.kindOf? i = some k)
    (hf : Modifier.ofKind? k = some f) :
    ofList a (i :: rest) = ⟨i, k, f, rest.isEmpty⟩ :: ofList a rest := by
  simp only [ofList, hk, hf]

/-- Entries that name no node, and tokens that are no modifiers, are left out. -/
theorem ofList_cons_of_other (h : (a.kindOf? i).bind Modifier.ofKind? = none) :
    ofList a (i :: rest) = ofList a rest := by
  cases hk : a.kindOf? i with
  | none => simp only [ofList, hk]
  | some k =>
    rw [hk, Option.bind_some] at h
    simp only [ofList, hk, h]

theorem map_modifier_ofList (a : Arena) (tokens : NodeList) :
    (ofList a tokens).map (·.modifier) = (a.kindsOf tokens).filterMap Modifier.ofKind? := by
  rw [Arena.kindsOf, List.filterMap_filterMap]
  induction tokens with
  | nil => rfl
  | cons i rest ih =>
    cases h : (a.kindOf? i).bind Modifier.ofKind? with
    | none => simp only [ofList_cons_of_other h, List.filterMap_cons, h, ih]
    | some f =>
      obtain ⟨k, hk, hf⟩ := Option.bind_eq_some_iff.1 h
      simp only [ofList_cons_of_modifier hk hf, List.filterMap_cons, h, List.map_cons, ih]

theorem mem_map_modifier {tokens : NodeList} {f : Modifier} :
    f ∈ (ofList a tokens).map (·.modifier) ↔
      ∃ k, (∃ i ∈ tokens, a.kindOf? i = some k) ∧ Modifier.ofKind? k = some f := by
  simp only [map_modifier_ofList, Arena.kindsOf, List.mem_filterMap]

end ModifierToken

namespace SyntaxTree

/-- The words of the set that a list of modifier tokens becomes are those of the tokens, each once.
Only the kinds that are in the list matter, not their order or number, and an accessibility of two
words leaves no other one in the set. -/
theorem modifiersOf_words (t : SyntaxTree) (tokens : NodeList) :
    ((t.modifiersOf tokens).keywords.flatMap (Text.split ' ')).Nodup ∧
    (∀ w, w ∈ (t.modifiersOf tokens).keywords.flatMap (Text.split ' ') ↔
      ∃ i ∈ tokens, ∃ k, t.arena.kindOf? i = some k ∧ k.isModifier = true ∧
        k.keywordText? = some w) ∧
    (∀ others : NodeList, (∀ k, (∃ i ∈ others, t.arena.kindOf? i = some k) ↔
        ∃ i ∈ tokens, t.arena.kindOf? i = some k) →
      t.modifiersOf others = t.modifiersOf tokens) ∧
    ∀ pair, pair = Modifier.protectedInternalMod ∨ pair = Modifier.privateProtectedMod →
      pair ∈ t.modifiersOf tokens → ∀ f ∈ t.modifiersOf tokens,
        f ∈ Modifier.accessibilities → f = pair := by
  have hparts : ∀ f ∈ (FlagSet.ofList ((ModifierToken.ofList t.arena tokens).map (·.modifier)) :
      Modifiers), f.parts = [f] := by
    intro f hf
    obtain ⟨k, -, hk⟩ := ModifierToken.mem_map_modifier.1 (FlagSet.mem_ofList.1 hf)
    exact Modifier.parts_of_ofKind? hk
  refine ⟨?_, fun w => ?_, fun others hothers => ?_, ?_⟩
  · exact Modifiers.nodup_words fun f hf g hg _ hfpart hgpart =>
      Modifiers.eq_of_mem_parts hparts hf hg hfpart hgpart
  · rw [Modifiers.mem_words]
    simp only [modifiersOf, Modifiers.exists_parts_combineAccessibility hparts,
      FlagSet.mem_ofList, ModifierToken.mem_map_modifier, ← Modifier.exists_keyword_iff]
    exact ⟨fun ⟨f, ⟨k, ⟨i, hi, hk⟩, hf⟩, hw⟩ => ⟨i, hi, k, hk, f, hf, hw⟩,
      fun ⟨i, hi, k, hk, f, hf, hw⟩ => ⟨f, ⟨k, ⟨i, hi, hk⟩, hf⟩, hw⟩⟩
  · refine congrArg Modifiers.combineAccessibility (FlagSet.unions_eq_of_mem_iff _ fun f => ?_)
    simp only [ModifierToken.mem_map_modifier, hothers]
  · intro pair htwo hpair f hf haccess
    have htwo : pair.parts ≠ [pair] := by
      obtain rfl | rfl := htwo <;> decide
    exact Modifiers.eq_pair_of_mem hparts hpair htwo hf haccess

/-- A file of an old version with a class `partial internal C protected partial`, where `C` is no
modifier. -/
def sampleKeywords : SyntaxTree :=
  let a : Arena := {}
  let a := (a.addToken .partialKeyword ⟨0, 7⟩).2
  let a := (a.addToken .internalKeyword ⟨8, 16⟩).2
  let a := (a.addToken .identifierToken ⟨17, 18⟩).2
  let a := (a.addToken .protectedKeyword ⟨19, 28⟩).2
  let a := (a.addToken .partialKeyword ⟨29, 36⟩).2
  let a := (a.add .typeDecl .classDeclaration ⟨0, 40⟩
    ({ modifiers := [.ofNat 0, .ofNat 1, .ofNat 2, .ofNat 3, .ofNat 4] } : Syntax.TypeDecl)).2
  let a := (a.add .compilationUnit .compilationUnit ⟨0, 40⟩
    ({ members := [.ofNat 5] } : Syntax.CompilationUnit)).2
  ⟨⟨0⟩, "keywords.cs", { version := .v1 }, a, .ofNat 6⟩

theorem sampleKeywords_modifiersOf_words :
    let tokens : NodeList := [.ofNat 0, .ofNat 1, .ofNat 2, .ofNat 3, .ofNat 4]
    let words := (sampleKeywords.modifiersOf tokens).keywords.flatMap (Text.split ' ')
    words.Nodup ∧ "protected" ∈ words ∧
    sampleKeywords.modifiersOf [.ofNat 3, .ofNat 2, .ofNat 1, .ofNat 0] =
      sampleKeywords.modifiersOf tokens ∧
    ∀ f ∈ sampleKeywords.modifiersOf tokens, f ∈ Modifier.accessibilities →
      f = .protectedInternalMod := by
  obtain ⟨hnodup, hwords, hothers, halone⟩ :=
    modifiersOf_words sampleKeywords [.ofNat 0, .ofNat 1, .ofNat 2, .ofNat 3, .ofNat 4]
  refine ⟨hnodup, (hwords "protected").2 ?_, hothers _ fun k => ?_, halone _ (.inl rfl) ?_⟩
  · exact ⟨.ofNat 3, by simp, .protectedKeyword, by decide +kernel, rfl, rfl⟩
  · have hsame : sampleKeywords.arena.kindOf? (.ofNat 4) =
        sampleKeywords.arena.kindOf? (.ofNat 0) := by decide +kernel
    simp only [List.mem_cons, List.not_mem_nil, or_false, exists_eq_or_imp, exists_eq_left, hsame]
    grind
  · decide +kernel

end SyntaxTree

end DeclTree
