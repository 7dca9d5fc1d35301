import DeclTree.Proofs.Depth
/-!
What a name in a syntax tree is made of: the names in it, the segments between its dots, the simple
name of a segment, and the text of a name without what qualifies it. These are relations that speak of
no depth, and what is computed with a depth is compared with them.
-/
namespace DeclTree

namespace Arena
variable {a : Arena} {i j : NodeIndex} {text : String}

/-- Where reading a name goes on from a node: to type arguments, and to both sides of a dot or of
two colons. -/
inductive NameCall (a : Arena) : NodeIndex → NodeIndex → Prop
  | typeArgument {i j : NodeIndex} {d : Syntax.GenericName} :
      a.payload? .genericName i = some d → j ∈ d.typeArguments → NameCall a j i
  | left {i : NodeIndex} {d : Syntax.QualifiedName} :
      a.payload? .qualifiedName i = some d → NameCall a d.left i
  | right {i : NodeIndex} {d : Syntax.QualifiedName} :
      a.payload? .qualifiedName i = some d → NameCall a d.right i

theorem NameCall.mem_links (h : a.NameCall j i) : j ∈ a.links i := by
  cases h with
  | typeArgument hd hj =>
    rw [links_of_payload? hd]
    exact List.mem_cons_of_mem _ hj
  | left hd =>
    rw [links_of_payload? hd]
    exact List.mem_cons_self
  | right hd =>
    rw [links_of_payload? hd]
    exact List.mem_cons_of_mem _ List.mem_cons_self

theorem Descends.rank_lt_of_nameCall (h : a.Descends) (hcall : a.NameCall j i) :
    a.rank j < a.rank i := h.lowers i j hcall.mem_links

theorem Descends.wellFounded_nameCall (h : a.Descends) : WellFounded a.NameCall :=
  Subrelation.wf (fun hcall => h.rank_lt_of_nameCall hcall) (InvImage.wf a.rank Nat.lt_wfRel.wf)

theorem qualified?_eq_some_iff {d : Syntax.QualifiedName} : a.qualified? i = some d ↔
    a.kindOf? i = some .qualifiedName ∧ a.payload? .qualifiedName i = some d := by
  simp [qualified?]

theorem qualified?_eq_none_iff : a.qualified? i = none ↔
    (a.kindOf? i = some .qualifiedName → a.payload? .qualifiedName i = none) := by
  simp [qualified?]

theorem nameEnds_of_wellFounded (h : WellFounded a.NameCall) (i : NodeIndex) : a.NameEnds i := by
  induction i using h.induction with
  | _ i ih =>
    cases hd : a.qualified? i with
    | none => exact .simple hd
    | some d => exact .qualified hd (ih d.left (.left (qualified?_eq_some_iff.1 hd).2))

/-- The segments of a name, outermost first, each with the name that ends at it. What is no
qualified name, or one without its parts, is a segment as a whole. -/
inductive Dotted (a : Arena) : NodeIndex → List NameSegment → Prop
  | single {i : NodeIndex} :
      (a.kindOf? i = some .qualifiedName → a.payload? .qualifiedName i = none) → Dotted a i [⟨i, i⟩]
  | qualified {i : NodeIndex} {d : Syntax.QualifiedName} {segments : List NameSegment} :
      a.kindOf? i = some .qualifiedName → a.payload? .qualifiedName i = some d →
      Dotted a d.left segments → Dotted a i (segments ++ [⟨d.right, i⟩])

namespace Dotted
variable {segments : List NameSegment}

theorem nameEnds (h : a.Dotted i segments) : a.NameEnds i := by
  induction h with
  | single hsimple => exact .simple (qualified?_eq_none_iff.2 hsimple)
  | qualified hk hd _ ih => exact .qualified (qualified?_eq_some_iff.2 ⟨hk, hd⟩) ih

theorem segments_eq (h : a.Dotted i segments) : a.segments i = segments := by
  induction h with
  | single hsimple => exact segmentsFrom_of_simple (qualified?_eq_none_iff.2 hsimple) a.size
  | @qualified i d segments hk hd hleft ih =>
    have hqualified : a.qualified? i = some d := qualified?_eq_some_iff.2 ⟨hk, hd⟩
    have hend : a.NameEnds i := .qualified hqualified hleft.nameEnds
    rw [← hend.segmentsFrom_eq (Nat.le_succ a.size), segmentsFrom_of_qualified hqualified, ← ih,
      Arena.segments]

theorem exists_eq_concat (h : a.Dotted i segments) : ∃ outer last, segments = outer ++ [last] := by
  cases h with
  | single => exact ⟨[], _, rfl⟩
  | qualified => exact ⟨_, _, rfl⟩

end Dotted

theorem NameEnds.exists_dotted (h : a.NameEnds i) : ∃ segments, a.Dotted i segments := by
  induction h with
  | simple hsimple => exact ⟨_, .single (qualified?_eq_none_iff.1 hsimple)⟩
  | qualified hd _ ih =>
    obtain ⟨segments, hsegments⟩ := ih
    obtain ⟨hk, hd⟩ := qualified?_eq_some_iff.1 hd
    exact ⟨_, .qualified hk hd hsegments⟩

theorem Descends.exists_dotted (h : a.Descends) (i : NodeIndex) :
    ∃ segments, a.Dotted i segments :=
  (nameEnds_of_wellFounded h.wellFounded_nameCall i).exists_dotted

/-- The text of a name without what qualifies it and without type arguments. -/
inductive Unqualified (a : Arena) : NodeIndex → String → Prop
  | identifier {i : NodeIndex} {text : String} :
      a.kindOf? i = some .identifierName ∨ a.kindOf? i = some .identifierToken →
      a.payload? .identifier i = some (⟨text⟩ : Syntax.Identifier) → Unqualified a i text
  | generic {i : NodeIndex} {d : Syntax.GenericName} {text : String} :
      a.kindOf? i = some .genericName → a.payload? .genericName i = some d →
      a.payload? .identifier d.identifier = some (⟨text⟩ : Syntax.Identifier) →
      Unqualified a i text
  | right {i : NodeIndex} {d : Syntax.QualifiedName} {text : String} :
      a.kindOf? i = some .aliasQualifiedName ∨ a.kindOf? i = some .qualifiedName →
      a.payload? .qualifiedName i = some d → Unqualified a d.right text → Unqualified a i text

theorem Unqualified.exists_depth (h : a.Unqualified i text) :
    ∃ depth, a.lastIdentifierFrom depth i = some text := by
  induction h with
  | identifier hk htext =>
    rw [← identifierText?_eq_some_iff] at htext
    refine ⟨1, ?_⟩
    obtain hk | hk := hk <;> simpa [lastIdentifierFrom, hk] using htext
  | generic hk hd htext =>
    rw [← identifierText?_eq_some_iff] at htext
    exact ⟨1, by simpa [lastIdentifierFrom, hk, hd] using htext⟩
  | right hk hd _ ih =>
    obtain ⟨depth, hdepth⟩ := ih
    refine ⟨depth + 1, ?_⟩
    obtain hk | hk := hk <;> simpa [lastIdentifierFrom, hk, hd] using hdepth

theorem unqualified_of_lastIdentifierFrom {depth : Nat}
    (h : a.lastIdentifierFrom depth i = some text) : a.Unqualified i text := by
  induction depth generalizing i with
  | zero => cases h
  | succ depth ih =>
    unfold lastIdentifierFrom at h
    split at h
    · exact .identifier (.inl ‹_›) (identifierText?_eq_some_iff.1 h)
    · exact .identifier (.inr ‹_›) (identifierText?_eq_some_iff.1 h)
    · obtain ⟨d, hd, htext⟩ := Option.bind_eq_some_iff.1 h
      exact .generic ‹_› hd (identifierText?_eq_some_iff.1 htext)
    · obtain ⟨d, hd, hright⟩ := Option.bind_eq_some_iff.1 h
      exact .right (.inr ‹_›) hd (ih hright)
    · obtain ⟨d, hd, hright⟩ := Option.bind_eq_some_iff.1 h
      exact .right (.inl ‹_›) hd (ih hright)
    · cases h

theorem lastIdentifier?_eq_some_iff_unqualified :
    a.lastIdentifier? i = some text ↔ a.Unqualified i text :=
  ⟨unqualified_of_lastIdentifierFrom, fun h => lastIdentifier?_eq_some_iff.2 h.exists_depth⟩

theorem segmentText_of_unqualified (h : a.Unqualified i text) : a.segmentText i = text := by
  rw [segmentText, lastIdentifier?_eq_some_iff_unqualified.2 h, Option.getD_some]

theorem segmentText_of_forall_not (h : ∀ text, ¬ a.Unqualified i text) : a.segmentText i = "" := by
  cases htext : a.lastIdentifier? i with
  | none => rw [segmentText, htext, Option.getD_none]
  | some text => exact absurd (lastIdentifier?_eq_some_iff_unqualified.1 htext) (h text)

/-- The simple name of a segment: the name behind the colons of `alias::Name`, and the segment itself
where there are no colons. An alias without what it qualifies stands for itself. -/
inductive SimpleName (a : Arena) : NodeIndex → NodeIndex → Prop
  | itself {i : NodeIndex} : a.kindOf? i ≠ some .aliasQualifiedName → SimpleName a i i
  | aliased {i : NodeIndex} {d : Syntax.QualifiedName} :
      a.kindOf? i = some .aliasQualifiedName → a.payload? .qualifiedName i = some d →
      SimpleName a i d.right
  | malformed {i : NodeIndex} : a.kindOf? i = some .aliasQualifiedName →
      a.payload? .qualifiedName i = none → SimpleName a i i

theorem simpleName_eq_iff {simple : NodeIndex} :
    a.simpleName i = simple ↔ a.SimpleName i simple := by
  unfold simpleName
  constructor
  · rintro rfl
    split
    · rename_i halias
      split
      · exact .aliased halias ‹_›
      · exact .malformed halias ‹_›
    · exact .itself ‹_›
  · intro h
    cases h with
    | itself hplain => rw [if_neg hplain]
    | aliased halias hd => rw [if_pos halias, hd]
    | malformed halias hd => rw [if_pos halias, hd]

end Arena

end DeclTree
