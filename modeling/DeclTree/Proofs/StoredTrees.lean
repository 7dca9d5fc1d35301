import DeclTree.Proofs.Loading
import DeclTree.Proofs.StoredForms
/-!
Stored trees are loaded as what they were. Whatever blanks its text has, a tree is read back from it,
and what the command loads is the tree but for its id, the name of a nameless file and the options
that the settings force.
-/
namespace DeclTree

namespace SyntaxTree
variable {t t' : SyntaxTree} {text : String}

/-- A text of the stored form of a tree, with blanks anywhere between its words. -/
def IsStoredAs (t : SyntaxTree) (text : String) : Prop := (Stored.ofTree t).SpellsWhole text

/-- What a tree becomes when it is loaded. -/
def loadedBy (t : SyntaxTree) (settings : Command.Settings) (id : TreeId) (path : String) :
    SyntaxTree where
  id := id
  fileName := if t.fileName = "" then path else t.fileName
  options :=
    { kind := settings.kind.getD t.options.kind
      version := settings.languageVersion.getD t.options.version }
  arena := t.arena
  root := t.root

theorem isStoredAs_print (t : SyntaxTree) (layout : Json.Layout) :
    t.IsStoredAs (layout.print (Stored.ofTree t)) :=
  layout.spellsWhole_print (Stored.plain_ofTree t)

theorem isStoredAs_store (t : SyntaxTree) : t.IsStoredAs t.store := by
  have h := t.isStoredAs_print .lines
  rwa [Json.Layout.lines_print] at h

theorem IsStoredAs.load? (h : t.IsStoredAs text) : load? text = some t := by
  rw [SyntaxTree.load?, Json.SpellsWhole.parse?_eq h, Option.bind_eq_bind, Option.bind_some,
    Stored.tree?_ofTree]

theorem IsStoredAs.unique (h : t.IsStoredAs text) (h' : t'.IsStoredAs text) : t' = t :=
  Option.some.inj (h'.load?.symm.trans h.load?)

section Command
variable {files : Files} {path : String}

theorem IsStoredAs.loadTree (h : t.IsStoredAs text)
    (hfile : files path = some (.file text.toUTF8)) (settings : Command.Settings) (id : TreeId) :
    Command.loadTree files settings id path = .ok (t.loadedBy settings id path) := by
  rw [Command.loadTree_of_load? hfile h.load?]
  simp only [loadedBy, Command.Settings.apply, String.isEmpty_iff]

theorem IsStoredAs.loadNumbered (h : t.IsStoredAs text)
    (hfile : files path = some (.file text.toUTF8)) (settings : Command.Settings) {n : Nat}
    (hn : n < UInt32.size) :
    Command.loadNumbered files settings path n =
      .ok (t.loadedBy settings ⟨UInt32.ofNat n⟩ path) := by
  rw [Command.loadNumbered, if_pos hn, h.loadTree hfile]

end Command

/-- A tree is what it is stored as: it is loaded from each of its texts, which are texts of no other
tree, and under any settings and at any place it keeps all that these do not change. -/
structure RoundTrips (t : SyntaxTree) : Prop where
  store : t.IsStoredAs t.store
  print : ∀ layout : Json.Layout, t.IsStoredAs (layout.print (Stored.ofTree t))
  load : ∀ text, t.IsStoredAs text → load? text = some t
  unique : ∀ text t', t.IsStoredAs text → t'.IsStoredAs text → t' = t
  loadTree : ∀ files settings id path text, t.IsStoredAs text →
    files path = some (.file text.toUTF8) →
    Command.loadTree files settings id path = .ok (t.loadedBy settings id path)
  loadNumbered : ∀ files settings n path text, t.IsStoredAs text →
    files path = some (.file text.toUTF8) → n < UInt32.size →
    Command.loadNumbered files settings path n = .ok (t.loadedBy settings ⟨UInt32.ofNat n⟩ path)

theorem roundTrips (t : SyntaxTree) : t.RoundTrips where
  store := t.isStoredAs_store
  print := t.isStoredAs_print
  load _ h := h.load?
  unique _ _ h h' := h.unique h'
  loadTree _ settings id _ _ h hfile := h.loadTree hfile settings id
  loadNumbered _ settings _ _ _ h hfile hn := h.loadNumbered hfile settings hn

/-- A nameless file with a class whose name has to be escaped. The class has lists of type parameters
and of parameters, and none of bases. -/
def sampleQuoted : SyntaxTree where
  id := ⟨7⟩
  fileName := ""
  options := { version := .v9 }
  arena :=
    let name := Arena.add {} .identifier .identifierName ⟨6, 12⟩ { text := "\"é\n" }
    (name.2.add .typeDecl .classDeclaration ⟨0, 20⟩ {
      identifier := name.1, typeParameters := some [], parameterList := some [.missing] }).2
  root := .ofNat 1

/-- The class is stored without blanks. -/
def sampleDisk : Files := fun path =>
  if path = "class.json" then
    some (.file (Json.Layout.compact.print (Stored.ofTree sampleQuoted)).toUTF8)
  else none

theorem sampleQuoted_roundTrips :
    load? sampleQuoted.store = some sampleQuoted ∧
    Command.loadTree sampleDisk { kind := some .script } ⟨3⟩ "class.json" =
      .ok { sampleQuoted with
        id := ⟨3⟩, fileName := "class.json", options := { kind := .script, version := .v9 } } := by
  have h := roundTrips sampleQuoted
  refine ⟨h.load _ h.store, ?_⟩
  exact h.loadTree sampleDisk { kind := some .script } ⟨3⟩ "class.json" _ (h.print .compact) rfl

end SyntaxTree

end DeclTree
