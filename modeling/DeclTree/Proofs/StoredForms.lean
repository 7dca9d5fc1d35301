import DeclTree.Syntax.Stored
import DeclTree.Proofs.JsonPrinting
/-!
Stored forms. What is written for a part of a tree, or for a tree as a whole, is read back as what it
was written for, and is nothing but texts, natural numbers and lists and records of these.
-/
namespace DeclTree

namespace Json

section Reading
variable {α : Type} {name key : String} {value : Json} {names : List String}
  {members : List (String × Json)}

theorem keyed?_record (members : List (String × Json)) :
    keyed? (members.map fun member => (some member.1, member.2)) = some members := by
  induction members with
  | nil => rfl
  | cons member members ih =>
    simp only [keyed?] at ih
    simp [keyed?, ih]

theorem fieldsBy?_object (rule : RecordRule) (names : List String)
    (members : List (JsonText × Json)) :
    fieldsBy? rule names (object members) = (keyed? members).bind fun members =>
      let parts := members.partition fun member => names.contains member.1
      if (parts.1.map (·.1)).Nodup ∧ (rule.allowsUnknown ∨ parts.2.isEmpty) then some ⟨parts.1⟩
      else none := rfl

/-- A record is read with just the fields that it was written with. -/
theorem fieldsBy?_record (rule : RecordRule) (hnames : members.map (·.1) = names)
    (hnodup : names.Nodup) : fieldsBy? rule names (record members) = some ⟨members⟩ := by
  have hall : members.filter (fun member => names.contains member.1) = members := by
    refine List.filter_eq_self.2 fun member hmember => ?_
    rw [List.contains_iff_mem, ← hnames]
    exact List.mem_map_of_mem hmember
  have hnone : members.filter (fun member => !names.contains member.1) = [] := by
    refine List.filter_eq_nil_iff.2 fun member hmember => ?_
    have hmem : member.1 ∈ names := hnames ▸ List.mem_map_of_mem hmember
    simp [hmem]
  have hpartition : members.partition (fun member => names.contains member.1) = (members, []) := by
    rw [List.partition_eq_filter_filter, hall]
    exact congrArg _ hnone
  have hobject : record members =
      object (members.map fun member => (some member.1, member.2)) := rfl
  rw [hobject, fieldsBy?_object, keyed?_record, Option.bind_some]
  simp only [hpartition, hnames, hnodup, List.isEmpty_nil, or_true, and_self, ↓reduceIte]

theorem bind_fieldsBy?_record (rule : RecordRule) (hnames : members.map (·.1) = names)
    (hnodup : names.Nodup) (read : Fields → Option α) :
    (fieldsBy? rule names (record members)).bind read = read ⟨members⟩ := by
  rw [fieldsBy?_record rule hnames hnodup, Option.bind_some]

theorem lookup_cons_of_ne (h : name ≠ key) :
    ((key, value) :: members).lookup name = members.lookup name := by
  rw [List.lookup_cons, beq_false_of_ne h]

theorem required_cons_self (decode : Json → Option α) :
    Fields.required ⟨(name, value) :: members⟩ name decode = decode value := by
  rw [Fields.required, List.lookup_cons_self, Option.bind_some]

theorem required_cons_of_ne (decode : Json → Option α) (h : name ≠ key) :
    Fields.required ⟨(key, value) :: members⟩ name decode =
      Fields.required ⟨members⟩ name decode := by
  rw [Fields.required, lookup_cons_of_ne h, Fields.required]

theorem optional_cons_of_ne (decode : Json → Option α) (h : name ≠ key) :
    Fields.optional ⟨(key, value) :: members⟩ name decode =
      Fields.optional ⟨members⟩ name decode := by
  rw [Fields.optional, lookup_cons_of_ne h, Fields.optional]

/-- A field that may be absent is written as null if it is, and as nothing that is null if not. -/
theorem optional_cons_self {encode : α → Json} {decode : Json → Option α}
    (h : ∀ x, decode (encode x) = some x) (hnull : ∀ x, encode x ≠ null) (x : Option α) :
    Fields.optional ⟨(name, ofOption encode x) :: members⟩ name decode = some x := by
  rw [Fields.optional, List.lookup_cons_self]
  cases x with
  | none => rfl
  | some x =>
    dsimp only [ofOption]
    split
    · exact absurd ‹_› (by simp)
    · exact absurd (Option.some.inj ‹_›) (hnull x)
    · rename_i value hvalue
      rw [← Option.some.inj hvalue, h, Option.map_some]

theorem defaulted_cons_self (default : α) (decode : Json → Option α) :
    Fields.defaulted ⟨(name, value) :: members⟩ name default decode = decode value := by
  rw [Fields.defaulted, List.lookup_cons_self]

theorem defaulted_cons_of_ne (default : α) (decode : Json → Option α) (h : name ≠ key) :
    Fields.defaulted ⟨(key, value) :: members⟩ name default decode =
      Fields.defaulted ⟨members⟩ name default decode := by
  rw [Fields.defaulted, lookup_cons_of_ne h, Fields.defaulted]

theorem str?_str (text : String) : (str text).str? = some text := rfl

theorem uint32?_nat (n : UInt32) : (nat n.toNat).uint32? = some n := by
  simp [uint32?, nat?, n.toNat_lt]

theorem uint16?_nat (n : UInt16) : (nat n.toNat).uint16? = some n := by
  simp [uint16?, nat?, n.toNat_lt]

theorem list?_ofList {encode : α → Json} {decode : Json → Option α}
    (h : ∀ x, decode (encode x) = some x) (xs : List α) :
    list? decode (ofList encode xs) = some xs := by
  simp only [list?, ofList]
  induction xs with
  | nil => rfl
  | cons x xs ih => simp [h x, ih]

end Reading

end Json

/-! ### Payloads -/

namespace Stored
open Json

theorem index?_ofIndex (i : NodeIndex) : index? (ofIndex i) = some i := by
  simp [index?, ofIndex, ofUInt32, uint32?_nat]

theorem indices?_ofIndices (is : NodeList) : indices? (ofIndices is) = some is := by
  unfold indices? ofIndices
  refine Eq.trans (bind_fieldsBy?_record {} rfl ?_ _) ?_
  · simp
  · rw [required_cons_self, list?_ofList index?_ofIndex]

theorem optional_ofIndices (name : String) (members : List (String × Json)) (is : Option NodeList) :
    Fields.optional ⟨(name, ofOption ofIndices is) :: members⟩ name indices? = some is :=
  optional_cons_self indices?_ofIndices (fun _ h => nomatch h) is

theorem optional_str (name : String) (members : List (String × Json)) (text : Option String) :
    Fields.optional ⟨(name, ofOption str text) :: members⟩ name str? = some text :=
  optional_cons_self str?_str (fun _ h => nomatch h) text

end Stored

/-- Each payload is read back. -/
theorem Shape.decode?_encode (s : Shape) (d : s.Data) : s.decode? (s.encode d) = some d := by
  cases s
  all_goals
    simp only [decode?, encode, Stored.identifier?, Stored.ofIdentifier, Stored.genericName?,
      Stored.ofGenericName, Stored.qualifiedName?, Stored.ofQualifiedName, Stored.compilationUnit?,
      Stored.ofCompilationUnit, Stored.externAlias?, Stored.ofExternAlias, Stored.usingDirective?,
      Stored.ofUsingDirective, Stored.referenceDirective?, Stored.ofReferenceDirective,
      Stored.attributeList?, Stored.ofAttributeList, Stored.attributeEntry?,
      Stored.ofAttributeEntry, Stored.namespaceDecl?, Stored.ofNamespace, Stored.typeDecl?,
      Stored.ofTypeDecl, Stored.delegate?, Stored.ofDelegate, Stored.enumDecl?, Stored.ofEnumDecl,
      Stored.enumMember?, Stored.ofEnumMember, Stored.field?, Stored.ofField, Stored.declarator?,
      Stored.ofDeclarator, Stored.method?, Stored.ofMethod, Stored.property?, Stored.ofProperty,
      Stored.accessor?, Stored.ofAccessor, Stored.parameter?, Stored.ofParameter,
      Stored.typeParameter?, Stored.ofTypeParameter, Stored.constraintClause?,
      Stored.ofConstraintClause, Stored.globalStatement?, Stored.ofGlobalStatement,
      Stored.incompleteMember?, Stored.ofIncompleteMember, Stored.composite?, Stored.ofComposite]
    refine Eq.trans (Json.bind_fieldsBy?_record {} rfl ?_ _) ?_
    · simp
    · simp [Json.required_cons_self, Json.required_cons_of_ne, Json.optional_cons_of_ne,
        Json.str?_str, Stored.index?_ofIndex, Stored.indices?_ofIndices,
        Stored.optional_ofIndices, Stored.optional_str]

/-! ### Headers, arenas and trees -/

namespace Stored
open Json

theorem choice?_str {α : Type} {ofName? : String → Option α} {name : α → String}
    (h : ∀ x, ofName? (name x) = some x) (x : α) : choice? ofName? (str (name x)) = some x :=
  h x

theorem header?_ofHeader (h : Header) : header? (ofHeader h) = some h := by
  unfold header? ofHeader
  refine Eq.trans (bind_fieldsBy?_record {} rfl ?_ _) ?_
  · simp
  · simp [required_cons_self, required_cons_of_ne, choice?_str SyntaxKind.ofName?_name, uint16?_nat,
      ofUInt32, uint32?_nat]

theorem parent?_ofParent (parent : NodeIndex) : parent? (ofParent parent) = some parent := by
  unfold parent? ofParent
  refine Eq.trans (bind_fieldsBy?_record {} rfl ?_ _) ?_
  · simp
  · rw [required_cons_self, index?_ofIndex]

theorem parseOptions?_ofParseOptions (options : ParseOptions) :
    parseOptions? (ofParseOptions options) = some options := by
  unfold parseOptions? ofParseOptions
  refine Eq.trans (bind_fieldsBy?_record _ rfl ?_ _) ?_
  · simp
  · simp [defaulted_cons_self, defaulted_cons_of_ne, choice?_str SourceKind.ofName?_name,
      choice?_str LanguageVersion.ofName?_name]

theorem nodup_poolNames : (Shape.all.map Shape.poolName).Nodup := by
  decide +kernel

/-- A pool is found by its name. -/
theorem lookup_poolName {f : Shape → Json} {shapes : List Shape}
    (hnodup : (shapes.map Shape.poolName).Nodup) {s : Shape} (hs : s ∈ shapes) :
    (shapes.map fun t => (t.poolName, f t)).lookup s.poolName = some (f s) := by
  induction shapes with
  | nil => cases hs
  | cons t shapes ih =>
    rw [List.map_cons, List.nodup_cons] at hnodup
    rw [List.map_cons]
    obtain rfl | hs := List.mem_cons.1 hs
    · exact List.lookup_cons_self
    · have hne : s.poolName ≠ t.poolName := by
        intro heq
        exact hnodup.1 (heq ▸ List.mem_map_of_mem hs)
      rw [lookup_cons_of_ne hne, ih hnodup.2 hs]

/-- The fields of a stored arena. -/
def arenaFields (a : Arena) : List (String × Json) :=
  ("nodes", .ofList ofHeader a.headers.toList) ::
  ("extended_info", .ofList ofParent a.parents.toList) ::
  Shape.all.map fun s => (s.poolName, .ofList s.encode (a.pools.of s).toList)

theorem pool?_arenaFields (a : Arena) (s : Shape) :
    pool? ⟨arenaFields a⟩ s = some (a.pools.of s) := by
  have hother : s.poolName ≠ "nodes" ∧ s.poolName ≠ "extended_info" := by
    cases s <;> decide
  rw [pool?, arenaFields, required_cons_of_ne _ hother.1, required_cons_of_ne _ hother.2,
    Fields.required, lookup_poolName nodup_poolNames s.mem_all, Option.bind_some,
    list?_ofList s.decode?_encode, Option.map_some, Array.toArray_toList]

theorem pools?_of_pool? {fs : Fields} {p : Pools} (h : ∀ s, pool? fs s = some (p.of s)) :
    pools? fs = some p := by
  simp only [pools?, h]
  rfl

theorem arena?_ofArena (a : Arena) : arena? (ofArena a) = some a := by
  have hnames : (arenaFields a).map (·.1) =
      "nodes" :: "extended_info" :: Shape.all.map Shape.poolName := by
    rw [arenaFields, List.map_cons, List.map_cons, List.map_map]
    rfl
  unfold arena? ofArena
  refine Eq.trans (bind_fieldsBy?_record {} hnames ?_ _) ?_
  · decide +kernel
  · have hheaders : Fields.required ⟨arenaFields a⟩ "nodes" (list? header?) =
        some a.headers.toList :=
      (required_cons_self _).trans (list?_ofList header?_ofHeader _)
    have hparents : Fields.required ⟨arenaFields a⟩ "extended_info" (list? parent?) =
        some a.parents.toList :=
      (required_cons_of_ne _ (by decide)).trans
        ((required_cons_self _).trans (list?_ofList parent?_ofParent _))
    simp [hheaders, hparents, pools?_of_pool? (pool?_arenaFields a)]

/-- A stored tree is read back. -/
theorem tree?_ofTree (t : SyntaxTree) : tree? (ofTree t) = some t := by
  unfold tree? ofTree
  refine Eq.trans (bind_fieldsBy?_record {} rfl ?_ _) ?_
  · simp
  · simp [required_cons_self, required_cons_of_ne, str?_str, ofUInt32, uint32?_nat,
      parseOptions?_ofParseOptions, arena?_ofArena, index?_ofIndex]

end Stored

/-! ### Plain values -/

namespace Json
variable {α : Type} {encode : α → Json}

theorem plain_record {members : List (String × Json)} (h : ∀ m ∈ members, Plain m.2) :
    Plain (record members) := by
  refine .object fun member hmember => ?_
  obtain ⟨m, hm, rfl⟩ := List.mem_map.1 hmember
  exact h m hm

theorem plain_ofList (h : ∀ x, Plain (encode x)) (xs : List α) : Plain (ofList encode xs) := by
  refine .array fun j hj => ?_
  obtain ⟨x, -, rfl⟩ := List.mem_map.1 hj
  exact h x

theorem plain_ofOption (h : ∀ x, Plain (encode x)) (x : Option α) : Plain (ofOption encode x) := by
  cases x with
  | none => exact .null
  | some x => exact h x

theorem plain_str (text : String) : Plain (str text) := .text _

end Json

namespace Stored
open Json

theorem plain_ofIndex (i : NodeIndex) : Plain (ofIndex i) := .nat _

theorem plain_ofIndices (is : NodeList) : Plain (ofIndices is) := by
  refine plain_record ?_
  simp [plain_ofList plain_ofIndex]

end Stored

theorem Shape.plain_encode (s : Shape) (d : s.Data) : (s.encode d).Plain := by
  cases s
  all_goals
    refine Json.plain_record ?_
    simp [Json.plain_str, Json.plain_ofOption, Stored.plain_ofIndex, Stored.plain_ofIndices]

namespace Stored
open Json

theorem plain_ofHeader (h : Header) : Plain (ofHeader h) := by
  refine plain_record ?_
  simp [plain_str, Plain.nat, ofUInt32]

theorem plain_ofParent (parent : NodeIndex) : Plain (ofParent parent) := by
  refine plain_record ?_
  simp [plain_ofIndex]

theorem plain_ofArena (a : Arena) : Plain (ofArena a) := by
  refine plain_record ?_
  simp [plain_ofList plain_ofHeader, plain_ofList plain_ofParent, plain_ofList (Shape.plain_encode _)]

theorem plain_ofTree (t : SyntaxTree) : Plain (ofTree t) := by
  refine plain_record ?_
  have hoptions : Plain (ofParseOptions t.options) := plain_record (by simp [plain_str])
  simp [plain_str, Plain.nat, ofUInt32, hoptions, plain_ofArena, plain_ofIndex]

end Stored

end DeclTree
