import DeclTree.Proofs.DottedNames
import DeclTree.Proofs.Growth
import DeclTree.Proofs.Listing
/-!
Names that are composed from a dotted text. The text is split at its dots, and the segments are
nested to the left; read again in whichever way, the node gives the text or its last segment back.
Segments may be empty.
-/
namespace DeclTree

namespace Text

/-- The last segment of a dotted text has no dot, and all before it ends in one. -/
structure LastSegment (text last : String) : Prop where
  plain : '.' ∉ last.toList
  ends : text = last ∨ ∃ front, text = front ++ "." ++ last

theorem segments_ne_nil (text : String) : segments text ≠ [] := by
  simp [segments, split, splitList_ne_nil]

theorem plain_of_mem_segments {text segment : String} (h : segment ∈ segments text) :
    '.' ∉ segment.toList := by
  obtain ⟨part, hpart, rfl⟩ := List.mem_map.1 h
  rw [String.toList_ofList]
  exact not_mem_of_mem_splitList hpart

theorem intercalate_append_singleton {front : List String} (hfront : front ≠ []) (last : String) :
    ".".intercalate (front ++ [last]) = ".".intercalate front ++ "." ++ last := by
  have hdot : ".".toList = ['.'] := rfl
  rw [← String.toList_inj, String.toList_append, String.toList_append, String.toList_intercalate,
    String.toList_intercalate, hdot, List.map_append, List.map_singleton,
    intercalate_concat (by simpa using hfront)]
  simp

theorem lastSegment_of_segments {text last : String} {front : List String}
    (h : segments text = front ++ [last]) : LastSegment text last where
  plain := by
    have hlast : last ∈ segments text := by simp [h]
    exact plain_of_mem_segments hlast
  ends := by
    have htext := intercalate_segments text
    rw [h] at htext
    cases front with
    | nil => exact .inl (by simpa using htext.symm)
    | cons first rest =>
      rw [intercalate_append_singleton (List.cons_ne_nil first rest)] at htext
      exact .inr ⟨_, htext.symm⟩

/-- A further segment goes to the end. -/
theorem segments_append {segment : String} (h : '.' ∉ segment.toList) (text : String) :
    segments (text ++ "." ++ segment) = segments text ++ [segment] := by
  have hall : ∀ name ∈ segments text ++ [segment], '.' ∉ name.toList := by
    intro name hname
    obtain hname | hname := List.mem_append.1 hname
    · exact plain_of_mem_segments hname
    · rwa [List.mem_singleton.1 hname]
  have hsegments := segments_intercalate (by simp) hall
  rwa [intercalate_append_singleton (segments_ne_nil text), intercalate_segments] at hsegments

end Text

namespace Arena
variable {a b : Arena} {i : NodeIndex} {texts : List String}

/-- A name of identifiers, nested to the left, with the texts of its segments. Each part that another
part goes to the right of is older than the whole. -/
inductive Spells (a : Arena) : NodeIndex → List String → Prop
  | identifier {i : NodeIndex} {text : String} :
      a.kindOf? i = some .identifierName →
      a.payload? .identifier i = some (⟨text⟩ : Syntax.Identifier) → Spells a i [text]
  | qualified {i : NodeIndex} {d : Syntax.QualifiedName} {texts : List String} {text : String} :
      a.kindOf? i = some .qualifiedName → a.payload? .qualifiedName i = some d →
      d.left.toNat < i.toNat → Spells a d.left texts → a.kindOf? d.right = some .identifierName →
      a.payload? .identifier d.right = some (⟨text⟩ : Syntax.Identifier) →
      Spells a i (texts ++ [text])

theorem unqualified_of_identifierName {text : String} (hk : a.kindOf? i = some .identifierName)
    (hd : a.payload? .identifier i = some (⟨text⟩ : Syntax.Identifier)) : a.Unqualified i text :=
  .identifier (.inl hk) hd

namespace Spells

theorem grows (h : a.Spells i texts) (hgrows : a.Grows b) : b.Spells i texts := by
  induction h with
  | identifier hk hd =>
    exact .identifier (by rw [hgrows.kindOf? hd, hk]) (hgrows.payload? hd)
  | qualified hk hd hlt _ hright htext ih =>
    exact .qualified (by rw [hgrows.kindOf? hd, hk]) (hgrows.payload? hd) hlt ih
      (by rw [hgrows.kindOf? htext, hright]) (hgrows.payload? htext)

theorem ne_nil (h : a.Spells i texts) : texts ≠ [] := by
  cases h <;> simp

theorem lt_size (h : a.Spells i texts) : i.toNat < a.size := by
  cases h with
  | identifier hk _ => exact lt_size_of_get? (Option.map_eq_some_iff.1 hk).choose_spec.1
  | qualified hk _ _ _ _ _ => exact lt_size_of_get? (Option.map_eq_some_iff.1 hk).choose_spec.1

theorem nameTextFrom_eq (h : a.Spells i texts) {depth : Nat} (hdepth : i.toNat < depth) :
    a.nameTextFrom depth i = some (".".intercalate texts) := by
  induction h generalizing depth with
  | identifier hk hd =>
    obtain ⟨depth, rfl⟩ : ∃ n, depth = n + 1 := ⟨depth - 1, by omega⟩
    simp [nameTextFrom, hk, identifierText?, hd]
  | @qualified i d texts text hk hd hlt hleft hright htext ih =>
    obtain ⟨depth, rfl⟩ : ∃ n, depth = n + 2 := ⟨depth - 2, by omega⟩
    have hleftText : a.nameTextFrom (depth + 1) d.left = some (".".intercalate texts) :=
      ih (by omega)
    rw [nameTextFrom, hk]
    simp only [hd, hleftText, Option.bind_eq_bind, Option.bind_some]
    rw [nameTextFrom, hright]
    simp [identifierText?, htext, Text.intercalate_append_singleton hleft.ne_nil]

/-- The whole name is read again with dots between its segments. -/
theorem nameText?_eq (h : a.Spells i texts) : a.nameText? i = some (".".intercalate texts) :=
  h.nameTextFrom_eq (Nat.lt_succ_of_lt h.lt_size)

theorem lastIdentifier?_eq {front : List String} {last : String} (h : a.Spells i (front ++ [last])) :
    a.lastIdentifier? i = some last := by
  rw [lastIdentifier?_eq_some_iff_unqualified]
  generalize htexts : front ++ [last] = texts at h
  cases h with
  | identifier hk hd =>
    obtain ⟨-, hlast⟩ := List.append_inj' (htexts.trans (List.nil_append _).symm) rfl
    cases hlast
    exact unqualified_of_identifierName hk hd
  | qualified hk hd _ _ hright htext =>
    obtain ⟨-, hlast⟩ := List.append_inj' htexts rfl
    cases hlast
    exact .right (.inr hk) hd (unqualified_of_identifierName hright htext)

/-- The segments of the name are the nodes of its identifiers, in order. -/
theorem exists_dotted (h : a.Spells i texts) : ∃ segments, a.Dotted i segments ∧
    segments.map (fun s => a.segmentText s.segment) = texts := by
  induction h with
  | identifier hk hd =>
    refine ⟨_, .single (by simp [hk]), ?_⟩
    rw [List.map_singleton, segmentText_of_unqualified (unqualified_of_identifierName hk hd)]
  | qualified hk hd _ _ hright htext ih =>
    obtain ⟨segments, hdotted, htexts⟩ := ih
    have hlast := segmentText_of_unqualified (unqualified_of_identifierName hright htext)
    refine ⟨_, .qualified hk hd hdotted, ?_⟩
    rw [List.map_append, htexts, List.map_singleton, hlast]

theorem map_segmentText (h : a.Spells i texts) :
    (a.segments i).map (fun s => a.segmentText s.segment) = texts := by
  obtain ⟨segments, hdotted, htexts⟩ := h.exists_dotted
  rw [hdotted.segments_eq, htexts]

end Spells

end Arena

namespace Arena
variable {a b : Arena} {i : NodeIndex} {s : Shape} {kind : SyntaxKind} {span : Span} {d : s.Data}

/-- The node that makes one arena of another, with its kind and its payload. -/
structure Added (a b : Arena) (i : NodeIndex) (s : Shape) (kind : SyntaxKind) (d : s.Data) :
    Prop where
  toNat_eq : i.toNat = a.size
  kindOf? : b.kindOf? i = some kind
  payload? : b.payload? s i = some d

theorem PoolsFit.added (hfit : a.PoolsFit) (hroom : a.HasRoom) (hs : kind.shape? = some s) :
    Added a (a.add s kind span d).2 (a.add s kind span d).1 s kind d where
  toNat_eq := hroom.toNat_next
  kindOf? := by
    have hget : (a.add s kind span d).2.get? a.next = some (a.header s kind span) :=
      (get?_add hroom a.next).trans (if_pos rfl)
    change (a.add s kind span d).2.kindOf? a.next = some kind
    rw [Arena.kindOf?, hget]
    rfl
  payload? := hfit.payload?_add_next hroom hs

/-- If there are no more nodes than indices after one was added, then there was room for it. -/
theorem hasRoom_of_size_add (h : (a.add s kind span d).2.size < 2 ^ 32) : a.HasRoom := by
  have hlast : NodeIndex.missing.toNat = 2 ^ 32 - 1 := rfl
  rw [size_add] at h
  unfold HasRoom
  omega

/-- A namespace declaration with a dotted name and some members. -/
structure NamesSpace (a : Arena) (i : NodeIndex) (kind : SyntaxKind) (dotted : String)
    (members : NodeList) (name : NodeIndex) : Prop where
  kindOf? : a.kindOf? i = some kind
  payload? : a.payload? .namespaceDecl i = some ({ name, members } : Syntax.Namespace)
  spells : a.Spells name (Text.segments dotted)

theorem NamesSpace.grows {dotted : String} {members : NodeList} {name : NodeIndex}
    (h : a.NamesSpace i kind dotted members name) (hgrows : a.Grows b) :
    b.NamesSpace i kind dotted members name where
  kindOf? := by rw [hgrows.kindOf? h.payload?, h.kindOf?]
  payload? := hgrows.payload? h.payload?
  spells := h.spells.grows hgrows

end Arena

namespace Draft
variable {draft : Draft} {s : Shape} {kind : SyntaxKind} {d : s.Data}

theorem added_leaf (hfit : draft.arena.PoolsFit) (hs : kind.shape? = some s) (width : Nat)
    (hroom : ((leaf s kind width d).run draft).2.arena.size < 2 ^ 32) :
    Arena.Added draft.arena ((leaf s kind width d).run draft).2.arena
      ((leaf s kind width d).run draft).1 s kind d :=
  hfit.added (Arena.hasRoom_of_size_add hroom) hs

theorem added_node (hfit : draft.arena.PoolsFit) (hs : kind.shape? = some s)
    (hroom : ((node s kind d).run draft).2.arena.size < 2 ^ 32) :
    Arena.Added draft.arena ((node s kind d).run draft).2.arena
      ((node s kind d).run draft).1 s kind d :=
  hfit.added (Arena.hasRoom_of_size_add hroom) hs

/-- Each further segment goes to the right of the name so far. -/
theorem spells_qualify {i : NodeIndex} {texts rest : List String} (hfit : draft.arena.PoolsFit)
    (hi : draft.arena.Spells i texts)
    (hroom : ((qualify i rest).run draft).2.arena.size < 2 ^ 32) :
    ((qualify i rest).run draft).2.arena.Spells ((qualify i rest).run draft).1 (texts ++ rest) := by
  induction rest generalizing draft i texts with
  | nil =>
    rw [List.append_nil]
    exact hi
  | cons segment rest ih =>
    -- the segment comes first and then the whole name, each newer than the part to its left
    let right := (identifierName segment).run draft
    let whole := (qualifiedName i right.1).run right.2
    have hright : draft.arena.Grows right.2.arena := (makes_identifierName segment).growing draft
    have hwhole : right.2.arena.Grows whole.2.arena := (makes_qualifiedName _ _).growing right.2
    have hroomWhole : whole.2.arena.size < 2 ^ 32 :=
      Nat.lt_of_le_of_lt ((makes_qualify whole.1 rest).growing whole.2).size_le hroom
    have hroomRight := Nat.lt_of_le_of_lt hwhole.size_le hroomWhole
    have haddedRight : Arena.Added draft.arena right.2.arena right.1 .identifier .identifierName
        (⟨segment⟩ : Syntax.Identifier) := added_leaf hfit rfl _ hroomRight
    have haddedWhole : Arena.Added right.2.arena whole.2.arena whole.1 .qualifiedName .qualifiedName
        (⟨i, right.1⟩ : Syntax.QualifiedName) := added_node (hright.poolsFit hfit) rfl hroomWhole
    have hlt : i.toNat < whole.1.toNat := by
      rw [haddedWhole.toNat_eq]
      exact Nat.lt_of_lt_of_le hi.lt_size hright.size_le
    have hspells : whole.2.arena.Spells whole.1 (texts ++ [segment]) :=
      .qualified haddedWhole.kindOf? haddedWhole.payload? hlt (hi.grows (hright.trans hwhole))
        ((hwhole.kindOf? haddedRight.payload?).trans haddedRight.kindOf?)
        (hwhole.payload? haddedRight.payload?)
    have hall := ih ((hright.trans hwhole).poolsFit hfit) hspells hroom
    rwa [List.append_assoc, List.singleton_append] at hall

theorem spells_name (hfit : draft.arena.PoolsFit) (dotted : String)
    (hroom : ((name dotted).run draft).2.arena.size < 2 ^ 32) :
    ((name dotted).run draft).2.arena.Spells ((name dotted).run draft).1 (Text.segments dotted) := by
  unfold name at hroom ⊢
  split at hroom
  next hnil => exact absurd hnil (Text.segments_ne_nil dotted)
  next first rest hsegments =>
    rw [hsegments]
    let start := (identifierName first).run draft
    have hstart : draft.arena.Grows start.2.arena := (makes_identifierName first).growing draft
    have hrest := (makes_qualify start.1 rest).growing start.2
    have hadded : Arena.Added draft.arena start.2.arena start.1 .identifier .identifierName
        (⟨first⟩ : Syntax.Identifier) :=
      added_leaf hfit rfl _ (Nat.lt_of_le_of_lt hrest.size_le hroom)
    exact spells_qualify (hstart.poolsFit hfit) (.identifier hadded.kindOf? hadded.payload?) hroom

/-- A composed name is read as it was written, and so is what follows its last dot, whatever calls
have been made since. -/
theorem reads_name (hfit : draft.arena.PoolsFit) (dotted : String)
    (hroom : ((name dotted).run draft).2.arena.size < 2 ^ 32) {later : Arena}
    (hgrows : ((name dotted).run draft).2.arena.Grows later) :
    later.nameText? ((name dotted).run draft).1 = some dotted ∧
      ∃ last, later.lastIdentifier? ((name dotted).run draft).1 = some last ∧
        Text.LastSegment dotted last := by
  have hspells := (spells_name hfit dotted hroom).grows hgrows
  obtain ⟨front, last, hlast⟩ : ∃ front last, Text.segments dotted = front ++ [last] :=
    ⟨_, _, (List.dropLast_append_getLast (Text.segments_ne_nil dotted)).symm⟩
  refine ⟨?_, last, ?_, Text.lastSegment_of_segments hlast⟩
  · rw [hspells.nameText?_eq, Text.intercalate_segments]
  · rw [hlast] at hspells
    exact hspells.lastIdentifier?_eq

theorem namesSpace_namespaceOf (hfit : draft.arena.PoolsFit) (hkind : kind.isNamespace = true)
    (dotted : String) (members : NodeList)
    (hroom : ((namespaceOf kind dotted members).run draft).2.arena.size < 2 ^ 32) :
    ∃ name, ((namespaceOf kind dotted members).run draft).2.arena.NamesSpace
      ((namespaceOf kind dotted members).run draft).1 kind dotted members name := by
  have hrun : (namespaceOf kind dotted members).run draft =
      (namespaceWith kind { name := ((name dotted).run draft).1, members }).run
        ((name dotted).run draft).2 := rfl
  have hnamed := (makes_name dotted).growing draft
  have hspells := spells_name hfit dotted
  rw [hrun] at hroom ⊢
  generalize (name dotted).run draft = named at hroom hnamed hspells ⊢
  have hgrows := Growing.node .namespaceDecl kind
    ({ name := named.1, members } : Syntax.Namespace) named.2
  have hadded := added_node (hnamed.poolsFit hfit) (SyntaxKind.shape?_of_isNamespace hkind) hroom
  have hroomName := Nat.lt_of_le_of_lt hgrows.size_le hroom
  exact ⟨named.1, hadded.kindOf?, hadded.payload?, (hspells hroomName).grows hgrows⟩

end Draft

end DeclTree
