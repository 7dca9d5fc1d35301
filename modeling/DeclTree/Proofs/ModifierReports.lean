import DeclTree.Declaration.SourceType
import DeclTree.Proofs.ModifierSets
/-!
What is reported of a list of modifiers, read off the list: the first entry that repeats an earlier
one, each `partial` that is not last, and each feature that the version lacks, at the first entry with
its keyword. The checks find these in one pass that carries what it has seen, and a second one for the
features of the kind of type. The pass is taken apart into passes that look for one thing each.
-/
namespace DeclTree

namespace Feature

/-- The modifier keyword that makes use of a feature. -/
def keyword : Feature → SyntaxKind
  | staticClasses => .staticKeyword
  | partialTypes => .partialKeyword
  | readonlyStructs => .readOnlyKeyword
  | refStructs => .refKeyword
  | fileTypes => .fileKeyword

/-- Whether the keyword makes use of the feature on types of a kind. -/
def concerns : Feature → TypeKind → Bool
  | partialTypes, _ | fileTypes, _ => true
  | staticClasses, kind => kind == .classType
  | readonlyStructs, kind | refStructs, kind => kind == .structType || kind == .recordStructType

end Feature

namespace SyntaxTree
variable (t : SyntaxTree)

/-- The modifier keywords of a list, in order. -/
def modifierKinds (tokens : NodeList) : List SyntaxKind :=
  (t.arena.kindsOf tokens).filter (·.isModifier)

/-- What is reported of repetition: the earliest entry with a keyword that an earlier one has. -/
inductive RepetitionReport (tokens : NodeList) : List Diagnostic → Prop
  | none : (t.modifierKinds tokens).Nodup → RepetitionReport tokens []
  | first {before after : NodeList} {i : NodeIndex} {k : SyntaxKind} {text : String} :
      tokens = before ++ i :: after → (t.modifierKinds before).Nodup →
      t.arena.kindOf? i = some k → k ∈ t.modifierKinds before → k.keywordText? = some text →
      RepetitionReport tokens [⟨Code.duplicateModifier, t.location i, [text]⟩]

/-- What is reported of the place of `partial`: all that are not the last entry. -/
def misplacedReports (tokens : NodeList) : List Diagnostic :=
  (tokens.dropLast.filter fun i => t.arena.kindOf? i == some .partialKeyword).map fun i =>
    ⟨Code.partialMisplaced, t.location i, []⟩

/-- What is reported of a feature: that the version is too old for it, at the first entry with its
keyword. -/
def gateReports (tokens : NodeList) (kind : TypeKind) (f : Feature) : List Diagnostic :=
  match tokens.find? fun i => t.arena.kindOf? i == some f.keyword with
  | some first =>
    if f.concerns kind ∧ ¬ f.since ≤ t.options.version then
      [⟨Code.featureNotAvailable, t.location first,
        [f.toText, t.options.version.toText, f.since.toText]⟩]
    else []
  | none => []

/-- All that is reported of the modifier list of a type, in some order. -/
def ModifierReports (tokens : NodeList) (kind : TypeKind) (reported : List Diagnostic) : Prop :=
  ∃ repeated, t.RepetitionReport tokens repeated ∧ reported.Perm
    (repeated ++ t.misplacedReports tokens ++ Feature.all.flatMap (t.gateReports tokens kind))

end SyntaxTree

/-! ### One pass for each thing -/

namespace ModifierToken

/-- Goes through a list with what has been seen, and gives what is reported at each token. -/
def scan (report : Modifiers → Bool → ModifierToken → List Diagnostic) (seen : Modifiers)
    (repeated : Bool) : List ModifierToken → List Diagnostic
  | [] => []
  | token :: rest => report seen repeated token ++
      scan report (seen ∪ .single token.modifier)
        (repeated || seen.contains token.modifier) rest

theorem scan_append_perm (report others : Modifiers → Bool → ModifierToken → List Diagnostic)
    (seen : Modifiers) (repeated : Bool) (tokens : List ModifierToken) :
    (scan (fun seen repeated token => report seen repeated token ++ others seen repeated token)
      seen repeated tokens).Perm
        (scan report seen repeated tokens ++ scan others seen repeated tokens) := by
  induction tokens generalizing seen repeated with
  | nil => exact .refl _
  | cons token rest ih =>
    refine List.perm_iff_count.2 fun d => ?_
    have hrest := (ih (seen ∪ .single token.modifier)
      (repeated || seen.contains token.modifier)).count_eq d
    simp only [scan, List.count_append] at hrest ⊢
    omega

/-- Where what has been seen does not matter, a pass is one token after another. -/
theorem scan_const (report : ModifierToken → List Diagnostic) (seen : Modifiers) (repeated : Bool)
    (tokens : List ModifierToken) :
    scan (fun _ _ => report) seen repeated tokens = tokens.flatMap report := by
  induction tokens generalizing seen repeated with
  | nil => rfl
  | cons token rest ih => rw [scan, ih, List.flatMap_cons]

end ModifierToken

namespace SyntaxTree
variable (t : SyntaxTree)

/-- The part of a token's diagnostics that is about one feature. -/
def gateAt (m : Modifier) (f : Feature) (seen : Modifiers) (_ : Bool) (token : ModifierToken) :
    List Diagnostic :=
  if token.modifier = m ∧ ¬ m ∈ seen then t.featureDiagnostics f token.node else []

def misplacedAt (token : ModifierToken) : List Diagnostic :=
  if token.modifier = .partialMod ∧ !token.isLast then
    [⟨Code.partialMisplaced, t.location token.node, []⟩]
  else []

def repetitionAt (seen : Modifiers) (repeated : Bool) (token : ModifierToken) : List Diagnostic :=
  if token.modifier ∈ seen ∧ repeated = false then
    [⟨Code.duplicateModifier, t.location token.node, [token.kind.keywordText?.getD ""]⟩]
  else []

variable {t}

theorem tokenDiagnostics_eq_parts (seen : Modifiers) (repeated : Bool) (token : ModifierToken) :
    t.tokenDiagnostics seen repeated token =
      t.gateAt .partialMod .partialTypes seen repeated token ++
        t.gateAt .fileMod .fileTypes seen repeated token ++
        t.misplacedAt token ++ t.repetitionAt seen repeated token := by
  have hseen {f : Modifier} : seen.contains f = true ↔ f ∈ seen := Iff.rfl
  unfold tokenDiagnostics gateAt
  dsimp only
  congr 1
  · congr 1
    split
    · rename_i hm
      cases h : seen.contains .partialMod <;> simp [hm, ← hseen, h]
    · rename_i hm
      cases h : seen.contains .fileMod <;> simp [hm, ← hseen, h]
    · rename_i hpartial hfile
      rw [if_neg fun h => hpartial h.1, if_neg fun h => hfile h.1, List.append_nil]
  · by_cases h : token.modifier ∈ seen <;> cases repeated <;> simp [repetitionAt, hseen, h]

theorem listDiagnostics_eq_scan (seen : Modifiers) (repeated : Bool) (tokens : List ModifierToken) :
    t.listDiagnostics seen repeated tokens =
      ModifierToken.scan t.tokenDiagnostics seen repeated tokens := by
  induction tokens generalizing seen repeated with
  | nil => rfl
  | cons token rest ih => rw [listDiagnostics, ih, ModifierToken.scan]

theorem listDiagnostics_perm (t : SyntaxTree) (seen : Modifiers) (repeated : Bool)
    (tokens : List ModifierToken) :
    (t.listDiagnostics seen repeated tokens).Perm
      (ModifierToken.scan (t.gateAt .partialMod .partialTypes) seen repeated tokens ++
        ModifierToken.scan (t.gateAt .fileMod .fileTypes) seen repeated tokens ++
        tokens.flatMap t.misplacedAt ++
        ModifierToken.scan t.repetitionAt seen repeated tokens) := by
  have hparts : t.tokenDiagnostics = fun seen repeated token =>
      t.gateAt .partialMod .partialTypes seen repeated token ++
        t.gateAt .fileMod .fileTypes seen repeated token ++
        t.misplacedAt token ++ t.repetitionAt seen repeated token := by
    funext seen repeated token
    exact tokenDiagnostics_eq_parts seen repeated token
  rw [listDiagnostics_eq_scan, hparts, ← ModifierToken.scan_const t.misplacedAt seen repeated]
  refine (ModifierToken.scan_append_perm _ _ seen repeated tokens).trans (.append_right _ ?_)
  refine (ModifierToken.scan_append_perm _ _ seen repeated tokens).trans (.append_right _ ?_)
  exact ModifierToken.scan_append_perm _ _ seen repeated tokens

/-! ### Features -/

section Features
variable {tokens : NodeList}

theorem featureDiagnostics_eq_ite (f : Feature) (i : NodeIndex) : t.featureDiagnostics f i =
    if f.since ≤ t.options.version then []
    else [⟨Code.featureNotAvailable, t.location i,
      [f.toText, t.options.version.toText, f.since.toText]⟩] := by
  simp [featureDiagnostics, LanguageVersion.supports]

theorem gateReports_eq_keywordDiagnostics (kind : TypeKind) (f : Feature) :
    t.gateReports tokens kind f =
      if f.concerns kind then t.keywordDiagnostics tokens f.keyword f else [] := by
  unfold gateReports keywordDiagnostics
  cases tokens.find? fun i => t.arena.kindOf? i == some f.keyword with
  | none => simp
  | some first =>
    simp only [featureDiagnostics_eq_ite]
    cases f.concerns kind <;> by_cases h : f.since ≤ t.options.version <;> simp [h]

theorem kindDiagnostics_eq_gateReports (kind : TypeKind) : t.kindDiagnostics tokens kind =
    t.gateReports tokens kind .staticClasses ++ t.gateReports tokens kind .readonlyStructs ++
      t.gateReports tokens kind .refStructs := by
  simp only [gateReports_eq_keywordDiagnostics]
  cases kind <;> simp [kindDiagnostics, Feature.concerns, Feature.keyword]

/-- A pass for a feature reports at the first token of the modifier, unless it has been seen. -/
theorem scan_gateAt (m : Modifier) (f : Feature) (seen : Modifiers) (repeated : Bool)
    (tokens : List ModifierToken) : ModifierToken.scan (t.gateAt m f) seen repeated tokens =
      if m ∈ seen then []
      else match tokens.find? (·.modifier == m) with
      | some token => t.featureDiagnostics f token.node
      | none => [] := by
  induction tokens generalizing seen repeated with
  | nil => simp [ModifierToken.scan]
  | cons token rest ih =>
    rw [ModifierToken.scan, ih, gateAt]
    by_cases hm : token.modifier = m
    · by_cases hseen : m ∈ seen <;> simp [hm, hseen]
    · have hne : ¬ m = token.modifier := fun h => hm h.symm
      simp [hm, hne]

/-- The first modifier token of a kind is the first entry of that kind. -/
theorem map_node_find? {k : SyntaxKind} {m : Modifier} (hk : Modifier.ofKind? k = some m)
    (tokens : NodeList) :
    ((ModifierToken.ofList t.arena tokens).find? (·.modifier == m)).map (·.node) =
      tokens.find? fun i => t.arena.kindOf? i == some k := by
  induction tokens with
  | nil => rfl
  | cons i rest ih =>
    cases h : (t.arena.kindOf? i).bind Modifier.ofKind? with
    | none =>
      have hne : ¬ t.arena.kindOf? i = some k := by
        intro hi
        rw [hi, Option.bind_some, hk] at h
        cases h
      rw [ModifierToken.ofList_cons_of_other h, List.find?_cons_of_neg (by simpa using hne), ih]
    | some m' =>
      obtain ⟨k', hi, hm'⟩ := Option.bind_eq_some_iff.1 h
      rw [ModifierToken.ofList_cons_of_modifier hi hm']
      by_cases hsame : m' = m
      · subst hsame
        obtain rfl := Modifier.ofKind?_inj hm' hk
        rw [List.find?_cons_of_pos (by simp), List.find?_cons_of_pos (by simp [hi])]
        rfl
      · have hne : k' ≠ k := by
          rintro rfl
          exact hsame (Option.some.inj (hm'.symm.trans hk))
        rw [List.find?_cons_of_neg (by simpa using hsame),
          List.find?_cons_of_neg (by simpa [hi] using hne), ih]

theorem scan_gateAt_eq_gateReports {m : Modifier} {f : Feature}
    (hk : Modifier.ofKind? f.keyword = some m) (kind : TypeKind) (hkind : f.concerns kind = true)
    (tokens : NodeList) : ModifierToken.scan (t.gateAt m f) ∅ false
      (ModifierToken.ofList t.arena tokens) = t.gateReports tokens kind f := by
  rw [scan_gateAt, if_neg FlagSet.not_mem_empty, gateReports_eq_keywordDiagnostics, if_pos hkind,
    keywordDiagnostics, ← map_node_find? hk]
  cases (ModifierToken.ofList t.arena tokens).find? (·.modifier == m) <;> rfl

end Features

/-! ### The place of `partial` -/

theorem misplacedAt_of_modifier {i : NodeIndex} {k : SyntaxKind} {f : Modifier}
    (hf : Modifier.ofKind? k = some f) (isLast : Bool) :
    t.misplacedAt ⟨i, k, f, isLast⟩ = if k = .partialKeyword ∧ isLast = false then
      [⟨Code.partialMisplaced, t.location i, []⟩] else [] := by
  have hpartial : f = .partialMod ↔ k = .partialKeyword := by
    constructor
    · rintro rfl
      exact Modifier.ofKind?_inj hf rfl
    · rintro rfl
      exact (Option.some.inj hf).symm
  simp [misplacedAt, hpartial]

theorem flatMap_misplacedAt (tokens : NodeList) :
    (ModifierToken.ofList t.arena tokens).flatMap t.misplacedAt = t.misplacedReports tokens := by
  unfold misplacedReports
  induction tokens with
  | nil => rfl
  | cons i rest ih =>
    have hfirst : (ModifierToken.ofList t.arena (i :: rest)).flatMap t.misplacedAt =
        (if t.arena.kindOf? i = some .partialKeyword ∧ rest ≠ [] then
          [⟨Code.partialMisplaced, t.location i, []⟩] else []) ++
          (ModifierToken.ofList t.arena rest).flatMap t.misplacedAt := by
      cases h : (t.arena.kindOf? i).bind Modifier.ofKind? with
      | none =>
        have hne : ¬ t.arena.kindOf? i = some .partialKeyword := by
          intro hi
          rw [hi] at h
          cases h
        rw [ModifierToken.ofList_cons_of_other h, if_neg fun hboth => hne hboth.1, List.nil_append]
      | some f =>
        obtain ⟨k, hi, hf⟩ := Option.bind_eq_some_iff.1 h
        rw [ModifierToken.ofList_cons_of_modifier hi hf, List.flatMap_cons,
          misplacedAt_of_modifier hf]
        simp [hi]
    rw [hfirst, ih]
    cases rest with
    | nil => simp
    | cons j later =>
      rw [List.dropLast_cons_of_ne_nil (List.cons_ne_nil j later), List.filter_cons]
      by_cases hi : t.arena.kindOf? i = some .partialKeyword <;> simp [hi]

/-! ### Repetition -/

section Repetition
variable {before after tokens : NodeList} {i : NodeIndex} {k : SyntaxKind} {f : Modifier}

theorem modifierKinds_append (before after : NodeList) :
    t.modifierKinds (before ++ after) = t.modifierKinds before ++ t.modifierKinds after := by
  simp [modifierKinds, Arena.kindsOf]

theorem modifierKinds_of_modifier (hi : t.arena.kindOf? i = some k)
    (hf : Modifier.ofKind? k = some f) : t.modifierKinds [i] = [k] := by
  simp [modifierKinds, Arena.kindsOf, hi, ← Modifier.isSome_ofKind?, hf]

theorem modifierKinds_of_other (h : (t.arena.kindOf? i).bind Modifier.ofKind? = none) :
    t.modifierKinds [i] = [] := by
  cases hi : t.arena.kindOf? i with
  | none => simp [modifierKinds, Arena.kindsOf, hi]
  | some k =>
    rw [hi, Option.bind_some] at h
    simp [modifierKinds, Arena.kindsOf, hi, ← Modifier.isSome_ofKind?, h]

theorem not_nodup_modifierKinds (hi : t.arena.kindOf? i = some k)
    (hk : k ∈ t.modifierKinds before) :
    ¬ (t.modifierKinds (before ++ i :: after)).Nodup := by
  have hmem : k ∈ t.modifierKinds (i :: after) := by
    have hmodifier : k.isModifier = true := (List.mem_filter.1 hk).2
    simp [modifierKinds, Arena.kindsOf, hi, hmodifier]
  rw [modifierKinds_append]
  exact fun hnodup => (List.nodup_append.1 hnodup).2.2 k hk k hmem rfl

/-- Entries without repetition do not reach beyond an entry that repeats. -/
theorem length_le_of_nodup {before' after' : NodeList}
    (heq : before ++ i :: after = before' ++ after') (hi : t.arena.kindOf? i = some k)
    (hk : k ∈ t.modifierKinds before) (hnodup : (t.modifierKinds before').Nodup) :
    before'.length ≤ before.length := by
  obtain ⟨gap, rfl, hgap⟩ | ⟨gap, rfl, -⟩ := List.append_eq_append_iff.1 heq
  · cases gap with
    | nil => simp
    | cons j gap =>
      obtain ⟨rfl, -⟩ := List.cons.inj hgap
      exact absurd hnodup (not_nodup_modifierKinds hi hk)
  · simp

/-- There is one such report of a list. -/
theorem RepetitionReport.unique {reported others : List Diagnostic}
    (h : t.RepetitionReport tokens reported) (h' : t.RepetitionReport tokens others) :
    reported = others := by
  cases h with
  | none hnodup =>
    cases h' with
    | none => rfl
    | first heq _ hi hk =>
      rw [heq] at hnodup
      exact absurd hnodup (not_nodup_modifierKinds hi hk)
  | first heq hbefore hi hk htext =>
    cases h' with
    | none hnodup =>
      rw [heq] at hnodup
      exact absurd hnodup (not_nodup_modifierKinds hi hk)
    | first heq' hbefore' hi' hk' htext' =>
      have hsame := heq.symm.trans heq'
      have hlength := Nat.le_antisymm (length_le_of_nodup hsame.symm hi' hk' hbefore)
        (length_le_of_nodup hsame hi hk hbefore')
      obtain ⟨rfl, hrest⟩ := List.append_inj hsame hlength
      obtain ⟨rfl, -⟩ := List.cons.inj hrest
      cases hi.symm.trans hi'
      cases htext.symm.trans htext'
      rfl

/-- The modifiers of the entries before, which a pass has seen. -/
def seenIn (t : SyntaxTree) (before : NodeList) : Modifiers :=
  .ofList ((ModifierToken.ofList t.arena before).map (·.modifier))

theorem mem_seenIn (hf : Modifier.ofKind? k = some f) :
    f ∈ t.seenIn before ↔ k ∈ t.modifierKinds before := by
  rw [seenIn, FlagSet.mem_ofList, ModifierToken.mem_map_modifier, modifierKinds, List.mem_filter,
    ← Modifier.isSome_ofKind?, hf, Arena.kindsOf, List.mem_filterMap]
  constructor
  · rintro ⟨k', hk', hf'⟩
    obtain rfl := Modifier.ofKind?_inj hf hf'
    exact ⟨hk', rfl⟩
  · rintro ⟨hk', -⟩
    exact ⟨k, hk', hf⟩

theorem seenIn_concat (before : NodeList) (i : NodeIndex) : t.seenIn (before ++ [i]) =
    t.seenIn before ∪ .ofList ((t.arena.kindOf? i).bind Modifier.ofKind?).toList := by
  have hentry : ([i].filterMap t.arena.kindOf?).filterMap Modifier.ofKind? =
      ((t.arena.kindOf? i).bind Modifier.ofKind?).toList := by
    rw [List.filterMap_filterMap]
    cases h : (t.arena.kindOf? i).bind Modifier.ofKind? <;> simp [h]
  simp only [seenIn, ModifierToken.map_modifier_ofList, Arena.kindsOf, List.filterMap_append, hentry]
  exact FlagSet.unions_append _ _ _

/-- Once a repetition has been reported, no other one is. -/
theorem scan_repetitionAt_repeated (seen : Modifiers) (tokens : List ModifierToken) :
    ModifierToken.scan t.repetitionAt seen true tokens = [] := by
  induction tokens generalizing seen with
  | nil => rfl
  | cons token rest ih =>
    rw [ModifierToken.scan, Bool.true_or, ih, repetitionAt]
    simp

theorem repetitionReport_scan (before : NodeList) (hbefore : (t.modifierKinds before).Nodup)
    (after : NodeList) : t.RepetitionReport (before ++ after)
      (ModifierToken.scan t.repetitionAt (t.seenIn before) false
        (ModifierToken.ofList t.arena after)) := by
  induction after generalizing before with
  | nil =>
    rw [List.append_nil]
    exact .none hbefore
  | cons i rest ih =>
    have hsplit : before ++ i :: rest = before ++ [i] ++ rest := by simp
    have hseen := t.seenIn_concat before i
    cases h : (t.arena.kindOf? i).bind Modifier.ofKind? with
    | none =>
      have hkinds : t.modifierKinds (before ++ [i]) = t.modifierKinds before := by
        rw [modifierKinds_append, modifierKinds_of_other h, List.append_nil]
      have hsame : t.seenIn (before ++ [i]) = t.seenIn before := by
        rw [hseen, h]
        exact FlagSet.union_empty _
      rw [ModifierToken.ofList_cons_of_other h, hsplit, ← hsame]
      exact ih _ (hkinds ▸ hbefore)
    | some f =>
      obtain ⟨k, hi, hf⟩ := Option.bind_eq_some_iff.1 h
      rw [ModifierToken.ofList_cons_of_modifier hi hf, ModifierToken.scan, repetitionAt]
      by_cases hk : k ∈ t.modifierKinds before
      · have htext := Modifier.keywordText?_of_ofKind? hf
        have hmem := (mem_seenIn hf).2 hk
        have hrepeated : (t.seenIn before).contains f = true := hmem
        rw [if_pos ⟨hmem, rfl⟩, hrepeated, Bool.or_true, scan_repetitionAt_repeated, htext,
          List.append_nil]
        exact .first rfl hbefore hi hk htext
      · have hmem : ¬ f ∈ t.seenIn before := fun hmem => hk ((mem_seenIn hf).1 hmem)
        have hfirst : (t.seenIn before).contains f = false := Bool.eq_false_iff.2 hmem
        have hnodup : (t.modifierKinds (before ++ [i])).Nodup := by
          rw [modifierKinds_append, modifierKinds_of_modifier hi hf]
          exact List.nodup_append_comm.2 (List.nodup_cons.2 ⟨hk, hbefore⟩)
        have hsame : t.seenIn (before ++ [i]) = t.seenIn before ∪ .single f := by
          rw [hseen, h]
          exact congrArg (t.seenIn before ∪ ·) (FlagSet.empty_union _)
        rw [if_neg fun hboth => hmem hboth.1, hfirst, Bool.or_false, List.nil_append, hsplit,
          ← hsame]
        exact ih _ hnodup

end Repetition

/-- Whatever is in a modifier list, what is reported of it, in some order, is one repetition at most, the
misplaced `partial` tokens, and the features that the version lacks; and the diagnostics that a type had
before stay in front of these. -/
theorem modifierDiagnostics_exact (t : SyntaxTree) :
    (∀ tokens kind reported, t.ModifierReports tokens kind reported ↔
      reported.Perm (t.modifierDiagnostics tokens kind)) ∧
    (∀ hints i kind d, ∃ appended, (t.classHeader hints i kind d).diagnostics =
      t.constraintDiagnostics (Syntax.arity d.typeParameters) d.constraintClauses ++ appended ∧
        t.ModifierReports d.modifiers kind appended) ∧
    (∀ hints i d, ∃ appended, (t.delegateHeader hints i d).diagnostics =
      t.constraintDiagnostics (Syntax.arity d.typeParameters) d.constraintClauses ++ appended ∧
        t.ModifierReports d.modifiers .delegateType appended) ∧
    ∀ hints i d, t.ModifierReports d.modifiers .enumType (t.enumHeader hints i d).diagnostics := by
  have hreports (tokens : NodeList) (kind : TypeKind) :
      t.ModifierReports tokens kind (t.modifierDiagnostics tokens kind) := by
    have hrepeated : t.RepetitionReport tokens
        (ModifierToken.scan t.repetitionAt ∅ false (ModifierToken.ofList t.arena tokens)) :=
      repetitionReport_scan [] List.nodup_nil tokens
    refine ⟨_, hrepeated, List.perm_iff_count.2 fun d => ?_⟩
    have hlist := (t.listDiagnostics_perm ∅ false (ModifierToken.ofList t.arena tokens)).count_eq d
    rw [scan_gateAt_eq_gateReports rfl kind rfl, scan_gateAt_eq_gateReports rfl kind rfl,
      flatMap_misplacedAt] at hlist
    rw [modifierDiagnostics, kindDiagnostics_eq_gateReports]
    simp only [List.count_append, Feature.all, List.flatMap_cons, List.flatMap_nil,
      List.count_nil] at hlist ⊢
    omega
  refine ⟨fun tokens kind reported => ?_, ?_, ?_, ?_⟩
  · obtain ⟨repeated, hrepeated, hperm⟩ := hreports tokens kind
    constructor
    · rintro ⟨others, hothers, hreported⟩
      rw [hothers.unique hrepeated] at hreported
      exact hreported.trans hperm.symm
    · exact fun hreported => ⟨repeated, hrepeated, hreported.trans hperm⟩
  · exact fun _ _ kind d => ⟨_, rfl, hreports d.modifiers kind⟩
  · exact fun _ _ d => ⟨_, rfl, hreports d.modifiers .delegateType⟩
  · exact fun _ _ d => hreports d.modifiers .enumType

/-- The first `partial` is too new and not last; the second one is last, but repeats. -/
example : (sampleKeywords.modifierDiagnostics
    [.ofNat 0, .ofNat 1, .ofNat 2, .ofNat 3, .ofNat 4] .classType).map (·.code) =
      [Code.featureNotAvailable, Code.partialMisplaced, Code.duplicateModifier] := by
  decide +kernel

end SyntaxTree

end DeclTree
