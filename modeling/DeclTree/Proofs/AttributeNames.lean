import DeclTree.Declaration.Hints
import DeclTree.Proofs.NameParts
/-!
Which attributes the hints of a list of attributes, or of a list of `using` directives, stand for:
those that a name in the list could mean. What counts of a name is its text without what qualifies it.
-/
namespace DeclTree

namespace AttributeHint
variable {h g : AttributeHint} {name : String}

/-- A name could mean the attribute: it is the attribute's name, or that name with one suffix. -/
def Matches (h : AttributeHint) (name : String) : Prop :=
  name = h.attributeName ∨ name = h.attributeName ++ attributeSuffix

theorem attributeName_inj (hname : h.attributeName = g.attributeName) : h = g := by
  cases h <;> cases g <;> first | rfl | exact absurd hname (by decide)

theorem shortName_attributeName (h : AttributeHint) :
    shortName h.attributeName = h.attributeName := by
  cases h <;> decide +kernel

theorem shortName_append (short : String) : shortName (short ++ attributeSuffix) = short := by
  have hsuffix : attributeSuffix.toList.isSuffixOf (short ++ attributeSuffix).toList = true := by
    rw [List.isSuffixOf_iff_suffix, String.toList_append]
    exact List.suffix_append _ _
  rw [shortName, if_pos hsuffix, String.toList_append, List.length_append, Nat.add_sub_cancel,
    List.take_left, String.ofList_toList]

theorem eq_or_eq_append_shortName (name : String) :
    name = shortName name ∨ name = shortName name ++ attributeSuffix := by
  by_cases hsuffix : attributeSuffix.toList.isSuffixOf name.toList = true
  · obtain ⟨front, hfront⟩ := List.isSuffixOf_iff_suffix.1 hsuffix
    have hname : name = String.ofList front ++ attributeSuffix := by
      rw [← String.toList_inj, String.toList_append, String.toList_ofList, hfront]
    rw [hname, shortName_append]
    exact .inr rfl
  · rw [shortName, if_neg hsuffix]
    exact .inl rfl

theorem matches_iff_shortName : h.Matches name ↔ shortName name = h.attributeName := by
  constructor
  · rintro (rfl | rfl)
    · exact shortName_attributeName h
    · exact shortName_append h.attributeName
  · intro hshort
    obtain hname | hname := eq_or_eq_append_shortName name
    · exact .inl (hname.trans hshort)
    · rw [hshort] at hname
      exact .inr hname

/-- The hint of a name is that of the attribute which the name could mean, if there is one. -/
theorem mem_ofName : h ∈ ofName name ↔ h.Matches name := by
  rw [matches_iff_shortName, ofName]
  cases hfind : (Flag.all (α := AttributeHint)).find? fun g => g.attributeName == shortName name with
  | none =>
    have hnone := List.find?_eq_none.1 hfind h (Flag.mem_all h)
    exact ⟨fun hempty => absurd hempty FlagSet.not_mem_empty,
      fun hshort => absurd (beq_iff_eq.2 hshort.symm) hnone⟩
  | some g =>
    have hg : g.attributeName = shortName name := by simpa using List.find?_some hfind
    rw [FlagSet.mem_single, ← hg]
    exact ⟨fun heq => heq ▸ rfl, fun heq => (attributeName_inj heq).symm⟩

end AttributeHint

namespace Arena
variable (a : Arena)

def NameMatches (name : NodeIndex) (h : AttributeHint) : Prop :=
  ∃ text, a.Unqualified name text ∧ h.Matches text

/-- Some attribute in the lists has a name that could mean the attribute. -/
def AttributeMatches (attributeLists : NodeList) (h : AttributeHint) : Prop :=
  ∃ list ∈ attributeLists, ∃ d : Syntax.AttributeList, a.payload? .attributeList list = some d ∧
    ∃ entry ∈ d.attributes, ∃ e : Syntax.AttributeEntry,
      a.payload? .attributeEntry entry = some e ∧ a.NameMatches e.name h

/-- A directive gives an alias, and the alias or its target could mean the attribute. -/
def AliasMatches (d : Syntax.UsingDirective) (h : AttributeHint) : Prop :=
  ∃ text, a.identifierText? d.aliasName = some text ∧ (h.Matches text ∨ a.NameMatches d.name h)

/-- Some directive of a list does so, among the global ones or among the other ones. -/
def UsingMatches (usings : NodeList) (isGlobal : Bool) (h : AttributeHint) : Prop :=
  ∃ i ∈ usings, ∃ d : Syntax.UsingDirective, a.payload? .usingDirective i = some d ∧
    d.globalKeyword.isPresent = isGlobal ∧ a.AliasMatches d h

variable {a} {h : AttributeHint}

theorem mem_nameHint {name : NodeIndex} : h ∈ a.nameHint name ↔ a.NameMatches name h := by
  simp only [nameHint, NameMatches, ← lastIdentifier?_eq_some_iff_unqualified]
  cases a.lastIdentifier? name with
  | none => simp
  | some text => simp [AttributeHint.mem_ofName]

theorem mem_attributeNames {attributeLists : NodeList} {name : NodeIndex} :
    name ∈ a.attributeNames attributeLists ↔
      ∃ list ∈ attributeLists, ∃ d : Syntax.AttributeList, a.payload? .attributeList list = some d ∧
        ∃ entry ∈ d.attributes, ∃ e : Syntax.AttributeEntry,
          a.payload? .attributeEntry entry = some e ∧ e.name = name := by
  rw [attributeNames, List.mem_flatMap]
  refine exists_congr fun list => and_congr_right fun _ => ?_
  cases hd : a.payload? .attributeList list with
  | none => simp
  | some d => simp [List.mem_filterMap]

theorem mem_attributeHints {attributeLists : NodeList} :
    h ∈ a.attributeHints attributeLists ↔ a.AttributeMatches attributeLists h := by
  rw [attributeHints, FlagSet.mem_unions]
  constructor
  · rintro ⟨name, hname, hh⟩
    obtain ⟨list, hlist, d, hd, entry, hentry, e, he, rfl⟩ := mem_attributeNames.1 hname
    exact ⟨list, hlist, d, hd, entry, hentry, e, he, mem_nameHint.1 hh⟩
  · rintro ⟨list, hlist, d, hd, entry, hentry, e, he, hh⟩
    exact ⟨e.name, mem_attributeNames.2 ⟨list, hlist, d, hd, entry, hentry, e, he, rfl⟩,
      mem_nameHint.2 hh⟩

theorem mem_aliasHint {d : Syntax.UsingDirective} :
    h ∈ a.aliasHint d ↔ a.AliasMatches d h := by
  unfold aliasHint AliasMatches
  cases a.identifierText? d.aliasName with
  | none => simp
  | some text => simp [AttributeHint.mem_ofName, mem_nameHint]

theorem mem_aliasHints {usings : NodeList} {isGlobal : Bool} :
    h ∈ a.aliasHints usings isGlobal ↔ a.UsingMatches usings isGlobal h := by
  rw [aliasHints, FlagSet.mem_unions]
  constructor
  · rintro ⟨d, hd, hh⟩
    obtain ⟨hlisted, hglobal⟩ := List.mem_filter.1 hd
    obtain ⟨i, hi, hpayload⟩ := List.mem_filterMap.1 hlisted
    exact ⟨i, hi, d, hpayload, by simpa using hglobal, mem_aliasHint.1 hh⟩
  · rintro ⟨i, hi, d, hpayload, hglobal, hh⟩
    have hlisted : d ∈ a.usingDirectives usings := List.mem_filterMap.2 ⟨i, hi, hpayload⟩
    exact ⟨d, List.mem_filter.2 ⟨hlisted, by simpa using hglobal⟩, mem_aliasHint.2 hh⟩

end Arena

end DeclTree
