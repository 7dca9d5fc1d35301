import Mathlib.Data.List.TakeWhile
import DeclTree.Proofs.UnitOrder
/-!
What a file says of its `using` directives. Which sorts of directive there are does not depend on their
order; that a global one comes too late is reported once, at the first one that does.
-/
namespace DeclTree

namespace Syntax.UsingDirective

def isGlobal (d : UsingDirective) : Bool := d.globalKeyword.isPresent

/-- A directive that is not global comes before a global one. -/
def OutOfOrder (directives : List UsingDirective) : Prop :=
  ∃ ordinary late, [ordinary, late].Sublist directives ∧ ordinary.isGlobal = false ∧
    late.isGlobal = true

/-- The first global directive with one before it that is not global. -/
def FirstLate (directives : List UsingDirective) (late : UsingDirective) : Prop :=
  ∃ before after, directives = before ++ late :: after ∧ late.isGlobal = true ∧
    (∃ ordinary ∈ before, ordinary.isGlobal = false) ∧ ¬ OutOfOrder before

variable {directives globals ordinary : List UsingDirective} {late : UsingDirective}

theorem FirstLate.outOfOrder (h : FirstLate directives late) : OutOfOrder directives := by
  obtain ⟨before, after, rfl, hlate, ⟨d, hd, hordinary⟩, -⟩ := h
  have hpair : ([d] ++ [late]).Sublist (before ++ late :: after) :=
    (List.singleton_sublist.2 hd).append (List.singleton_sublist.2 List.mem_cons_self)
  exact ⟨d, late, hpair, hordinary, hlate⟩

/-- Global directives and then others are in order. -/
theorem not_outOfOrder_append (hglobals : ∀ d ∈ globals, d.isGlobal = true)
    (hordinary : ∀ d ∈ ordinary, d.isGlobal = false) : ¬ OutOfOrder (globals ++ ordinary) := by
  rintro ⟨first, second, hsublist, hfirst, hsecond⟩
  have hpairwise : (globals ++ ordinary).Pairwise fun d e => e.isGlobal = true → d.isGlobal = true := by
    refine List.pairwise_append.2 ⟨?_, ?_, fun d hd _ _ _ => hglobals d hd⟩
    · exact List.pairwise_of_forall_mem_list fun d hd _ _ _ => hglobals d hd
    · refine List.pairwise_of_forall_mem_list fun _ _ e he hglobal => ?_
      rw [hordinary e he] at hglobal
      cases hglobal
  have hglobal := List.pairwise_iff_forall_sublist.1 hpairwise hsublist hsecond
  rw [hfirst] at hglobal
  cases hglobal

/-- The directive that is looked for after the leading global ones is the first late one. -/
theorem firstLate_of_find? (h : (directives.dropWhile isGlobal).find? isGlobal = some late) :
    FirstLate directives late := by
  have hsplit := List.takeWhile_append_dropWhile (p := isGlobal) (l := directives)
  have hleading : ∀ d ∈ directives.takeWhile isGlobal, d.isGlobal = true :=
    fun d hd => List.mem_takeWhile_imp hd
  obtain ⟨hlate, between, after, hdropped, hbetween⟩ := List.find?_eq_some_iff_append.1 h
  have hordinary : ∀ d ∈ between, d.isGlobal = false := by simpa using hbetween
  refine ⟨directives.takeWhile isGlobal ++ between, after, ?_, hlate, ?_,
    not_outOfOrder_append hleading hordinary⟩
  · rw [List.append_assoc, ← hdropped, hsplit]
  · -- what is left begins with a directive that is not global, so that the late one is not its first
    cases between with
    | nil =>
      have hhead := List.head_dropWhile_not isGlobal (l := directives) (by simp [hdropped])
      simp [hdropped, hlate] at hhead
    | cons d rest => exact ⟨d, by simp, hordinary d List.mem_cons_self⟩

theorem not_outOfOrder_of_find? (h : (directives.dropWhile isGlobal).find? isGlobal = none) :
    ¬ OutOfOrder directives := by
  have hordinary : ∀ d ∈ directives.dropWhile isGlobal, d.isGlobal = false := by simpa using h
  rw [← List.takeWhile_append_dropWhile (p := isGlobal) (l := directives)]
  exact not_outOfOrder_append (fun d hd => List.mem_takeWhile_imp hd) hordinary

end Syntax.UsingDirective

namespace SyntaxTree
variable {t : SyntaxTree} {unit d : Syntax.CompilationUnit} {s : Sources}
  {directives : List Syntax.UsingDirective}
open Syntax.UsingDirective

theorem usingOrderDiagnostics_eq_find? (directives : List Syntax.UsingDirective) :
    t.usingOrderDiagnostics directives =
      match (directives.dropWhile isGlobal).find? isGlobal with
      | some late => [⟨Code.globalUsingOutOfOrder, t.location late.globalKeyword, []⟩]
      | none => [] := rfl

theorem usingOrderDiagnostics_of_outOfOrder (h : OutOfOrder directives) :
    ∃ late, FirstLate directives late ∧ t.usingOrderDiagnostics directives =
      [⟨Code.globalUsingOutOfOrder, t.location late.globalKeyword, []⟩] := by
  rw [usingOrderDiagnostics_eq_find?]
  cases hfind : (directives.dropWhile isGlobal).find? isGlobal with
  | none => exact absurd h (not_outOfOrder_of_find? hfind)
  | some late => exact ⟨late, firstLate_of_find? hfind, rfl⟩

theorem usingOrderDiagnostics_of_not (h : ¬ OutOfOrder directives) :
    t.usingOrderDiagnostics directives = [] := by
  rw [usingOrderDiagnostics_eq_find?]
  cases hfind : (directives.dropWhile isGlobal).find? isGlobal with
  | none => rfl
  | some late => exact absurd (firstLate_of_find? hfind).outOfOrder h

/-- What the root says of itself does not depend on the order of its directives, but for the report of
a global one that comes too late. -/
theorem rootDeclaration_withUnit (h : d.Reorders unit) (row : List Declaration) :
    (t.withUnit d).rootDeclaration d row =
      { t.rootDeclaration unit row with
        diagnostics := t.usingOrderDiagnostics (t.arena.usingDirectives d.usings) } := by
  have hdirectives : (t.arena.usingDirectives d.usings).Perm (t.arena.usingDirectives unit.usings) :=
    h.usings.filterMap _
  have harena : (t.withUnit d).arena.usingDirectives = t.arena.usingDirectives := rfl
  simp only [rootDeclaration_eq_any, harena, hdirectives.any_eq, h.externs, h.attributeLists,
    h.referenceDirectives]
  rw [(t.agrees_withUnit d).arena.aliasHints_eq, Arena.aliasHints_of_perm h.usings]
  rfl

/-- A file tells of both sorts of `using` directive whether it has any. It reports the first global one
that comes too late, and nothing if none does; where the global ones are brought to the front the file
is the same without that report. -/
theorem declare_usingOrder {options : DeclarationOptions} {r : RootDeclaration}
    (hr : t.declare options = .ok r)
    (hunit : t.arena.payload? .compilationUnit t.root = some unit) :
    (r.hasUsings = true ↔ ∃ d ∈ t.arena.usingDirectives unit.usings, d.isGlobal = false) ∧
    (r.hasGlobalUsings = true ↔ ∃ d ∈ t.arena.usingDirectives unit.usings, d.isGlobal = true) ∧
    (¬ OutOfOrder (t.arena.usingDirectives unit.usings) → r.diagnostics = []) ∧
    (OutOfOrder (t.arena.usingDirectives unit.usings) →
      ∃ late, FirstLate (t.arena.usingDirectives unit.usings) late ∧
        r.diagnostics = [⟨Code.globalUsingOutOfOrder, t.location late.globalKeyword, []⟩]) ∧
    ∀ usings, usings.Perm unit.usings → ¬ OutOfOrder (t.arena.usingDirectives usings) →
      (t.withUnit { unit with usings }).declare options = .ok { r with diagnostics := [] } := by
  obtain ⟨s, hs, rfl⟩ := declare_eq_ok hr
  obtain ⟨-, -, -, hunit', -⟩ := sources_stages hs
  cases hunit.symm.trans hunit'
  refine ⟨?_, ?_, ?_, ?_, fun usings hperm horder => ?_⟩
  · rw [rootDeclaration_eq_any]
    simp [isGlobal, NodeIndex.isPresent]
  · rw [rootDeclaration_eq_any]
    simp [isGlobal]
  · rw [rootDeclaration_eq_any]
    exact usingOrderDiagnostics_of_not
  · rw [rootDeclaration_eq_any]
    exact usingOrderDiagnostics_of_outOfOrder
  · have hreorders : Syntax.CompilationUnit.Reorders { s.unit with usings } s.unit :=
      ⟨rfl, hperm, rfl, .refl _, rfl⟩
    obtain ⟨s', hs', -, -, hsame⟩ := sources_withUnit hs hreorders
    rw [declare_eq, hs', Outcome.ok_bind, hsame rfl, rootDeclaration_withUnit hreorders,
      rootChildren_withUnit hunit hreorders rfl options s.listed s.built,
      usingOrderDiagnostics_of_not horder]

/-- The file `using A; global using B; global using C;`, with a keyword among the directives. -/
def sampleUsings : SyntaxTree :=
  let a : Arena := {}
  let a := (a.addToken .globalKeyword ⟨9, 15⟩).2
  let a := (a.addToken .globalKeyword ⟨25, 31⟩).2
  let a := (a.add .usingDirective .usingDirective ⟨0, 8⟩ ({} : Syntax.UsingDirective)).2
  let a := (a.add .usingDirective .usingDirective ⟨9, 24⟩
    ({ globalKeyword := .ofNat 0 } : Syntax.UsingDirective)).2
  let a := (a.add .usingDirective .usingDirective ⟨25, 40⟩
    ({ globalKeyword := .ofNat 1 } : Syntax.UsingDirective)).2
  let a := (a.add .compilationUnit .compilationUnit ⟨0, 40⟩
    ({ usings := [.ofNat 2, .ofNat 0, .ofNat 3, .ofNat 4] } : Syntax.CompilationUnit)).2
  ⟨⟨0⟩, "usings.cs", {}, a, .ofNat 5⟩

theorem sampleUsings_declare_usingOrder : ∃ r, sampleUsings.declare {} = .ok r ∧
    r.hasUsings = true ∧ r.hasGlobalUsings = true ∧
    r.diagnostics = [⟨Code.globalUsingOutOfOrder, ⟨⟨0⟩, ⟨9, 15⟩⟩, []⟩] ∧
    (sampleUsings.withUnit
      { usings := [.ofNat 3, .ofNat 0, .ofNat 4, .ofNat 2] }).declare {} =
        .ok { r with diagnostics := [] } := by
  obtain ⟨r, hr⟩ : ∃ r, sampleUsings.declare {} = .ok r :=
    Outcome.exists_eq_ok (by decide +kernel)
  have hunit : sampleUsings.arena.payload? .compilationUnit sampleUsings.root =
      some ({ usings := [.ofNat 2, .ofNat 0, .ofNat 3, .ofNat 4] } : Syntax.CompilationUnit) := by
    decide +kernel
  have hdirectives : sampleUsings.arena.usingDirectives [.ofNat 2, .ofNat 0, .ofNat 3, .ofNat 4] =
      [({} : Syntax.UsingDirective), { globalKeyword := .ofNat 0 }, { globalKeyword := .ofNat 1 }] := by
    decide +kernel
  have hsorted : sampleUsings.arena.usingDirectives [.ofNat 3, .ofNat 0, .ofNat 4, .ofNat 2] =
      [{ globalKeyword := .ofNat 0 }, { globalKeyword := .ofNat 1 }] ++
        [({} : Syntax.UsingDirective)] := by decide +kernel
  have hreported : (sampleUsings.declare {}).map (·.diagnostics) =
      .ok [⟨Code.globalUsingOutOfOrder, ⟨⟨0⟩, ⟨9, 15⟩⟩, []⟩] := by decide +kernel
  obtain ⟨husings, hglobals, -, -, hreorder⟩ := declare_usingOrder hr hunit
  rw [hdirectives] at husings hglobals
  have horder : ¬ OutOfOrder
      (sampleUsings.arena.usingDirectives [.ofNat 3, .ofNat 0, .ofNat 4, .ofNat 2]) := by
    rw [hsorted]
    exact not_outOfOrder_append (by decide) (by decide)
  rw [hr] at hreported
  exact ⟨r, hr, husings.2 (by decide), hglobals.2 (by decide), Except.ok.inj hreported,
    hreorder _ (by decide) horder⟩

end SyntaxTree

end DeclTree
