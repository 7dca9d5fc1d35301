import DeclTree.Proofs.Reportable
import Mathlib.Data.List.Nodup
/-!
Diagnostics that are about different problems. Rows of them are joined by what is known of their codes
and places, and each check that reports something does so once at most for each code and place.
-/
namespace DeclTree

/-- The codes that are reported at modifiers. -/
def Code.ofModifiers : List Code := [featureNotAvailable, partialMisplaced, duplicateModifier]

/-- The codes that are reported at the names of namespaces. -/
def Code.ofNames : List Code := placement ++ [genericName] ++ [aliasedName]

/-- Modifiers that are features on whatever they stand. -/
def Modifier.gated : List Modifier := [.partialMod, .fileMod]

/-- Keywords that are features on types of certain kinds. -/
def SyntaxKind.gated : List SyntaxKind := [.staticKeyword, .readOnlyKeyword, .refKeyword]

/-- What tells one problem from another. -/
def Diagnostic.problem (d : Diagnostic) : Code × Location := (d.code, d.location)

namespace SyntaxTree

/-- Diagnostics that are about different codes or nodes, each where its code may be reported. -/
def ReportsOnce (t : SyntaxTree) (place : Code → NodeIndex → Prop) (reported : List Diagnostic) :
    Prop :=
  ∃ marks : List (Code × NodeIndex),
    reported.map (·.problem) = marks.map (fun mark => (mark.1, t.location mark.2)) ∧
      marks.Nodup ∧ ∀ mark ∈ marks, place mark.1 mark.2

namespace ReportsOnce
variable {t : SyntaxTree} {place place' : Code → NodeIndex → Prop}
  {reported others : List Diagnostic}

theorem nil : t.ReportsOnce place [] := ⟨[], rfl, .nil, by simp⟩

theorem single {code : Code} {i : NodeIndex} {args : List String} (h : place code i) :
    t.ReportsOnce place [⟨code, t.location i, args⟩] :=
  ⟨[(code, i)], rfl, List.nodup_singleton _, by simpa using h⟩

theorem mono (h : t.ReportsOnce place reported) (hplace : ∀ code i, place code i → place' code i) :
    t.ReportsOnce place' reported := by
  obtain ⟨marks, heq, hnodup, hmarks⟩ := h
  exact ⟨marks, heq, hnodup, fun mark hmark => hplace _ _ (hmarks mark hmark)⟩

theorem append (h : t.ReportsOnce place reported) (h' : t.ReportsOnce place' others)
    (hapart : ∀ code i, place code i → ¬ place' code i) :
    t.ReportsOnce (fun code i => place code i ∨ place' code i) (reported ++ others) := by
  obtain ⟨marks, heq, hnodup, hmarks⟩ := h
  obtain ⟨marks', heq', hnodup', hmarks'⟩ := h'
  refine ⟨marks ++ marks', by rw [List.map_append, heq, heq', List.map_append], ?_, ?_⟩
  · refine List.nodup_append.2 ⟨hnodup, hnodup', ?_⟩
    rintro mark hmark _ hmark' rfl
    exact hapart _ _ (hmarks mark hmark) (hmarks' mark hmark')
  · intro mark hmark
    exact (List.mem_append.1 hmark).imp (hmarks mark) (hmarks' mark)

/-- Diagnostics with different codes. -/
theorem appendCodes {codes codes' : List Code}
    (h : t.ReportsOnce (fun code i => code ∈ codes ∧ place code i) reported)
    (h' : t.ReportsOnce (fun code i => code ∈ codes' ∧ place code i) others)
    (hapart : codes.all (· ∉ codes') = true) :
    t.ReportsOnce (fun code i => code ∈ codes ++ codes' ∧ place code i) (reported ++ others) := by
  refine (h.append h' ?_).mono ?_
  · rintro code i ⟨hcode, -⟩ ⟨hcode', -⟩
    exact of_decide_eq_true (List.all_eq_true.1 hapart code hcode) hcode'
  · rintro code i (⟨hcode, hi⟩ | ⟨hcode, hi⟩)
    · exact ⟨List.mem_append_left _ hcode, hi⟩
    · exact ⟨List.mem_append_right _ hcode, hi⟩

/-- Diagnostics of different things that have no place in common. -/
theorem flatMap {α : Type} {things : List α} {reports : α → List Diagnostic}
    {placeOf : α → Code → NodeIndex → Prop} (hthings : things.Nodup)
    (h : ∀ x ∈ things, t.ReportsOnce (placeOf x) (reports x))
    (hapart : ∀ x ∈ things, ∀ y ∈ things, ∀ code i, placeOf x code i → placeOf y code i → x = y) :
    t.ReportsOnce (fun code i => ∃ x ∈ things, placeOf x code i) (things.flatMap reports) := by
  induction things with
  | nil => exact nil
  | cons x rest ih =>
    obtain ⟨hx, hrest⟩ := List.nodup_cons.1 hthings
    have hfirst := h x List.mem_cons_self
    have hothers := ih hrest (fun y hy => h y (List.mem_cons_of_mem x hy))
      fun y hy z hz => hapart y (List.mem_cons_of_mem x hy) z (List.mem_cons_of_mem x hz)
    refine (hfirst.append hothers ?_).mono ?_
    · rintro code i hi ⟨y, hy, hyi⟩
      exact hx (hapart x List.mem_cons_self y (List.mem_cons_of_mem x hy) code i hi hyi ▸ hy)
    · rintro code i (hi | ⟨y, hy, hyi⟩)
      · exact ⟨x, List.mem_cons_self, hi⟩
      · exact ⟨y, List.mem_cons_of_mem x hy, hyi⟩

/-- Where ranges tell nodes apart, locations tell problems apart. -/
theorem nodup (h : t.ReportsOnce place reported)
    (hplace : ∀ code i, place code i → (t.arena.get? i).isSome)
    (hspan : ∀ i j, (t.arena.get? i).isSome → (t.arena.get? j).isSome →
      t.spanOf i = t.spanOf j → i = j) : (reported.map (·.problem)).Nodup := by
  obtain ⟨marks, heq, hnodup, hmarks⟩ := h
  rw [heq]
  refine (List.nodup_map_iff_inj_on hnodup).2 ?_
  rintro ⟨code, i⟩ hi ⟨code', j⟩ hj hsame
  simp only [Prod.mk.injEq, location, Location.mk.injEq, true_and] at hsame
  have hij := hspan i j (hplace _ _ (hmarks _ hi)) (hplace _ _ (hmarks _ hj)) hsame.2
  rw [hsame.1, hij]

end ReportsOnce

section Modifiers
variable {t : SyntaxTree}

theorem sublist_modifierTokens (a : Arena) (tokens : NodeList) :
    ((ModifierToken.ofList a tokens).map (·.node)).Sublist tokens := by
  induction tokens with
  | nil => exact .slnil
  | cons i rest ih =>
    rw [ModifierToken.ofList]
    split
    · split
      · exact ih.cons_cons i
      · exact ih.cons i
    · exact ih.cons i

theorem reportsOnce_featureDiagnostics (f : Feature) (i : NodeIndex) :
    t.ReportsOnce (fun code place => code = Code.featureNotAvailable ∧ place = i)
      (t.featureDiagnostics f i) := by
  unfold featureDiagnostics
  dsimp only
  split
  · exact .nil
  · exact .single ⟨rfl, rfl⟩

/-- What a modifier token may have reported at it. -/
def MarksToken (token : ModifierToken) (code : Code) (place : NodeIndex) : Prop :=
  place = token.node ∧ code ∈ Code.ofModifiers ∧
    (code = Code.featureNotAvailable → token.modifier ∈ Modifier.gated)

theorem reportsOnce_tokenDiagnostics (seen : Modifiers) (repeated : Bool)
    (token : ModifierToken) :
    t.ReportsOnce (MarksToken token) (t.tokenDiagnostics seen repeated token) := by
  have hgate (f : Feature) (hgated : token.modifier ∈ Modifier.gated) (isFirst : Bool) :
      t.ReportsOnce (fun code place => code ∈ [Code.featureNotAvailable] ∧
        MarksToken token code place)
        (if isFirst = true then t.featureDiagnostics f token.node else []) := by
    split
    · refine (reportsOnce_featureDiagnostics f token.node).mono ?_
      rintro code place ⟨rfl, rfl⟩
      exact ⟨List.mem_singleton_self _, rfl, by decide, fun _ => hgated⟩
    · exact .nil
  have hplain (code : Code) {args : List String} {p : Prop} [Decidable p]
      (hcode : code ∈ Code.ofModifiers) (hother : code ≠ Code.featureNotAvailable) :
      t.ReportsOnce (fun code' place => code' ∈ [code] ∧ MarksToken token code' place)
        (if p then [⟨code, t.location token.node, args⟩] else []) := by
    split
    · exact .single ⟨List.mem_singleton_self _, rfl, hcode, fun h => absurd h hother⟩
    · exact .nil
  have hall {gates misplaced duplicate : List Diagnostic}
      (hgates : t.ReportsOnce (fun code place =>
        code ∈ [Code.featureNotAvailable] ∧ MarksToken token code place) gates)
      (hmisplaced : t.ReportsOnce (fun code place =>
        code ∈ [Code.partialMisplaced] ∧ MarksToken token code place) misplaced)
      (hduplicate : t.ReportsOnce (fun code place =>
        code ∈ [Code.duplicateModifier] ∧ MarksToken token code place) duplicate) :
      t.ReportsOnce (MarksToken token) (gates ++ misplaced ++ duplicate) :=
    ((hgates.appendCodes hmisplaced (by decide)).appendCodes hduplicate (by decide)).mono
      fun code place h => h.2
  unfold tokenDiagnostics
  refine hall ?_ (hplain _ (by decide) (by decide)) (hplain _ (by decide) (by decide))
  split
  · exact hgate _ (by rw [‹token.modifier = _›]; decide) _
  · exact hgate _ (by rw [‹token.modifier = _›]; decide) _
  · exact .nil

/-- Where something may be reported in a list of modifier tokens. -/
def MarksTokens (tokens : List ModifierToken) (code : Code) (place : NodeIndex) : Prop :=
  ∃ token ∈ tokens, MarksToken token code place

theorem reportsOnce_listDiagnostics (seen : Modifiers) (repeated : Bool)
    {tokens : List ModifierToken} (hnodup : (tokens.map (·.node)).Nodup) :
    t.ReportsOnce (MarksTokens tokens) (t.listDiagnostics seen repeated tokens) := by
  induction tokens generalizing seen repeated with
  | nil => exact .nil
  | cons token rest ih =>
    obtain ⟨htoken, hrest⟩ := List.nodup_cons.1 hnodup
    have hfirst := reportsOnce_tokenDiagnostics (t := t) seen repeated token
    refine (hfirst.append (ih _ _ hrest) ?_).mono ?_
    · rintro code place ⟨rfl, -⟩ ⟨other, hother, hnode, -⟩
      exact htoken (List.mem_map.2 ⟨other, hother, hnode.symm⟩)
    · rintro code place (h | ⟨other, hother, h⟩)
      · exact ⟨token, List.mem_cons_self, h⟩
      · exact ⟨other, List.mem_cons_of_mem token hother, h⟩

/-- Where a keyword may be reported as a feature. -/
def MarksKeyword (t : SyntaxTree) (tokens : NodeList) (keywords : List SyntaxKind) (code : Code)
    (place : NodeIndex) : Prop :=
  code = Code.featureNotAvailable ∧ place ∈ tokens ∧
    ∃ keyword ∈ keywords, t.arena.kindOf? place = some keyword

theorem reportsOnce_keywordDiagnostics (tokens : NodeList) (keyword : SyntaxKind) (f : Feature) :
    t.ReportsOnce (t.MarksKeyword tokens [keyword]) (t.keywordDiagnostics tokens keyword f) := by
  unfold keywordDiagnostics
  split
  · rename_i token hfind
    refine (reportsOnce_featureDiagnostics f token).mono ?_
    rintro code place ⟨rfl, rfl⟩
    have hkind := List.find?_some hfind
    exact ⟨rfl, List.mem_of_find?_eq_some hfind, keyword, List.mem_singleton_self _,
      beq_iff_eq.1 hkind⟩
  · exact .nil

theorem reportsOnce_kindDiagnostics (tokens : NodeList) (kind : TypeKind) :
    t.ReportsOnce (t.MarksKeyword tokens SyntaxKind.gated) (t.kindDiagnostics tokens kind) := by
  have hgated {keyword : SyntaxKind} (hmem : keyword ∈ SyntaxKind.gated) {code : Code}
      {place : NodeIndex} (h : t.MarksKeyword tokens [keyword] code place) :
      t.MarksKeyword tokens SyntaxKind.gated code place := by
    obtain ⟨hcode, hplace, other, hother, hkind⟩ := h
    exact ⟨hcode, hplace, keyword, hmem, List.mem_singleton.1 hother ▸ hkind⟩
  have hstruct : t.ReportsOnce (t.MarksKeyword tokens SyntaxKind.gated)
      (t.keywordDiagnostics tokens .readOnlyKeyword .readonlyStructs ++
        t.keywordDiagnostics tokens .refKeyword .refStructs) := by
    refine ((reportsOnce_keywordDiagnostics tokens _ _).append
      (reportsOnce_keywordDiagnostics tokens _ _) ?_).mono ?_
    · rintro code place ⟨-, -, k, hk, hkind⟩ ⟨-, -, k', hk', hkind'⟩
      rw [List.mem_singleton.1 hk] at hkind
      rw [List.mem_singleton.1 hk', hkind] at hkind'
      cases hkind'
    · rintro code place (h | h)
      · exact hgated (by decide) h
      · exact hgated (by decide) h
  cases kind with
  | classType =>
    exact (reportsOnce_keywordDiagnostics tokens _ _).mono fun _ _ => hgated (by decide)
  | structType => exact hstruct
  | recordStructType => exact hstruct
  | _ => exact .nil

theorem reportsOnce_modifierDiagnostics {tokens : NodeList} (hnodup : tokens.Nodup)
    (kind : TypeKind) :
    t.ReportsOnce (fun code place => code ∈ Code.ofModifiers ∧ place ∈ tokens)
      (t.modifierDiagnostics tokens kind) := by
  have hlist := reportsOnce_listDiagnostics (t := t) ∅ false
    (hnodup.sublist (sublist_modifierTokens t.arena tokens))
  refine (hlist.append (reportsOnce_kindDiagnostics tokens kind) ?_).mono ?_
  · rintro code place ⟨token, htoken, rfl, -, hgated⟩ ⟨hcode, -, keyword, hkeyword, hkind⟩
    obtain ⟨-, hnode, hmodifier⟩ := mem_modifierTokens htoken
    rw [hnode, Option.some.injEq] at hkind
    rw [hkind] at hmodifier
    have hnone : ∀ keyword ∈ SyntaxKind.gated, ∀ modifier ∈ Modifier.gated,
        Modifier.ofKind? keyword ≠ some modifier := by decide
    exact hnone keyword hkeyword _ (hgated hcode) hmodifier
  · rintro code place (⟨token, htoken, rfl, hcode, -⟩ | ⟨rfl, hplace, -⟩)
    · exact ⟨hcode, (mem_modifierTokens htoken).1⟩
    · exact ⟨by decide, hplace⟩

end Modifiers

theorem reportsOnce_constraintDiagnostics {t : SyntaxTree} (arity : UInt32) (clauses : NodeList) :
    t.ReportsOnce (fun code place => code = Code.constraintOnNonGeneric ∧ place ∈ clauses)
      (t.constraintDiagnostics arity clauses) := by
  unfold constraintDiagnostics
  split
  · split
    · exact .single ⟨rfl, List.mem_cons_self⟩
    · exact .nil
  · exact .nil

theorem reportsOnce_reportAt {t : SyntaxTree} (code : Code) (at? : Option NodeIndex) :
    t.ReportsOnce (fun code' place => code' = code ∧ at? = some place) (t.reportAt code at?) := by
  cases at? with
  | none => exact .nil
  | some i => exact .single ⟨rfl, rfl⟩

/-- The checks of a namespace that report something at its name. -/
theorem reportsOnce_nameDiagnostics {t : SyntaxTree} (name : NodeIndex) {code? : Option Code}
    (hcode : ∀ code, code? = some code → code ∈ Code.placement) (p q : Prop) [Decidable p]
    [Decidable q] :
    t.ReportsOnce (fun code place => code ∈ Code.ofNames ∧ place = name)
      ((code?.map fun code => ⟨code, t.location name, []⟩).toList ++
        (if p then [⟨Code.genericName, t.location name, []⟩] else []) ++
        (if q then [⟨Code.aliasedName, t.location name, []⟩] else [])) := by
  have hplacement : t.ReportsOnce (fun code place => code ∈ Code.placement ∧ place = name)
      (code?.map fun code => ⟨code, t.location name, []⟩).toList := by
    cases code? with
    | none => exact .nil
    | some code => exact .single ⟨hcode code rfl, rfl⟩
  have hat (code : Code) (r : Prop) [Decidable r] :
      t.ReportsOnce (fun code' place => code' ∈ [code] ∧ place = name)
        (if r then [⟨code, t.location name, []⟩] else []) := by
    split
    · exact .single ⟨List.mem_singleton_self _, rfl⟩
    · exact .nil
  exact (hplacement.appendCodes (hat Code.genericName p) (by decide)).appendCodes
    (hat Code.aliasedName q) (by decide)

end SyntaxTree

end DeclTree
