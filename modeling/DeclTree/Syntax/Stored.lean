import DeclTree.Json.Parse
import DeclTree.Json.Print
import DeclTree.Syntax.Kind.Name
import DeclTree.Syntax.StoredPayload
import DeclTree.Syntax.Tree
/-!
The stored form of syntax trees: writing one as JSON, and reading it back.
-/
namespace DeclTree

namespace Shape

/-- The field of a stored arena that holds the pool of a shape. -/
def poolName : Shape → String
  | .identifier => "identifiers"
  | .genericName => "generic_names"
  | .qualifiedName => "qualified_names"
  | .compilationUnit => "compilation_units"
  | .externAlias => "extern_aliases"
  | .usingDirective => "using_directives"
  | .referenceDirective => "reference_directives"
  | .attributeList => "attribute_lists"
  | .attributeEntry => "attributes"
  | .namespaceDecl => "namespaces"
  | .typeDecl => "type_declarations"
  | .delegate => "delegates"
  | .enumDecl => "enums"
  | .enumMember => "enum_members"
  | .field => "fields"
  | .declarator => "variable_declarators"
  | .method => "methods"
  | .property => "properties"
  | .accessor => "accessors"
  | .parameter => "parameters"
  | .typeParameter => "type_parameters"
  | .constraintClause => "constraint_clauses"
  | .globalStatement => "global_statements"
  | .incompleteMember => "incomplete_members"
  | .composite => "composites"

/-- The stored form of a payload. -/
def encode : (s : Shape) → s.Data → Json
  | .identifier => Stored.ofIdentifier
  | .genericName => Stored.ofGenericName
  | .qualifiedName => Stored.ofQualifiedName
  | .compilationUnit => Stored.ofCompilationUnit
  | .externAlias => Stored.ofExternAlias
  | .usingDirective => Stored.ofUsingDirective
  | .referenceDirective => Stored.ofReferenceDirective
  | .attributeList => Stored.ofAttributeList
  | .attributeEntry => Stored.ofAttributeEntry
  | .namespaceDecl => Stored.ofNamespace
  | .typeDecl => Stored.ofTypeDecl
  | .delegate => Stored.ofDelegate
  | .enumDecl => Stored.ofEnumDecl
  | .enumMember => Stored.ofEnumMember
  | .field => Stored.ofField
  | .declarator => Stored.ofDeclarator
  | .method => Stored.ofMethod
  | .property => Stored.ofProperty
  | .accessor => Stored.ofAccessor
  | .parameter => Stored.ofParameter
  | .typeParameter => Stored.ofTypeParameter
  | .constraintClause => Stored.ofConstraintClause
  | .globalStatement => Stored.ofGlobalStatement
  | .incompleteMember => Stored.ofIncompleteMember
  | .composite => Stored.ofComposite

def decode? : (s : Shape) → Json → Option s.Data
  | .identifier => Stored.identifier?
  | .genericName => Stored.genericName?
  | .qualifiedName => Stored.qualifiedName?
  | .compilationUnit => Stored.compilationUnit?
  | .externAlias => Stored.externAlias?
  | .usingDirective => Stored.usingDirective?
  | .referenceDirective => Stored.referenceDirective?
  | .attributeList => Stored.attributeList?
  | .attributeEntry => Stored.attributeEntry?
  | .namespaceDecl => Stored.namespaceDecl?
  | .typeDecl => Stored.typeDecl?
  | .delegate => Stored.delegate?
  | .enumDecl => Stored.enumDecl?
  | .enumMember => Stored.enumMember?
  | .field => Stored.field?
  | .declarator => Stored.declarator?
  | .method => Stored.method?
  | .property => Stored.property?
  | .accessor => Stored.accessor?
  | .parameter => Stored.parameter?
  | .typeParameter => Stored.typeParameter?
  | .constraintClause => Stored.constraintClause?
  | .globalStatement => Stored.globalStatement?
  | .incompleteMember => Stored.incompleteMember?
  | .composite => Stored.composite?

end Shape

namespace Stored

open Json

/-! ### Headers and options -/

def ofHeader (h : Header) : Json := .record [
  ("kind", .str h.kind.name), ("flags", .nat h.flags.toNat), ("pos", ofUInt32 h.span.start),
  ("end", ofUInt32 h.span.stop), ("data_index", ofUInt32 h.slot)]

def header? (j : Json) : Option Header := do
  let fs ← j.fields? ["kind", "flags", "pos", "end", "data_index"]
  return {
    kind := ← fs.required "kind" (choice? SyntaxKind.ofName?)
    flags := ← fs.required "flags" uint16?
    span := ⟨← fs.required "pos" uint32?, ← fs.required "end" uint32?⟩
    slot := ← fs.required "data_index" uint32? }

def ofParent (parent : NodeIndex) : Json := .record [("parent", ofIndex parent)]

def parent? (j : Json) : Option NodeIndex := do
  let fs ← j.fields? ["parent"]
  fs.required "parent" index?

def ofParseOptions (options : ParseOptions) : Json := .record [
  ("kind", .str options.kind.name), ("language_version", .str options.version.name)]

/-- Options that are absent have their defaults. -/
def parseOptions? (j : Json) : Option ParseOptions := do
  let fs ← fieldsBy? { allowsShortArray := true } ["kind", "language_version"] j
  let standard : ParseOptions := {}
  return {
    kind := ← fs.defaulted "kind" standard.kind (choice? SourceKind.ofName?)
    version := ← fs.defaulted "language_version" standard.version (choice? LanguageVersion.ofName?) }

/-! ### Arenas and trees -/

def ofArena (a : Arena) : Json := .record (
  ("nodes", .ofList ofHeader a.headers.toList) ::
  ("extended_info", .ofList ofParent a.parents.toList) ::
  Shape.all.map fun s => (s.poolName, .ofList s.encode (a.pools.of s).toList))

/-- The pool of a shape among the fields of an arena. -/
def pool? (fs : Fields) (s : Shape) : Option (Array s.Data) :=
  (fs.required s.poolName (list? s.decode?)).map List.toArray

def pools? (fs : Fields) : Option Pools := do
  return {
    identifiers := ← pool? fs .identifier
    genericNames := ← pool? fs .genericName
    qualifiedNames := ← pool? fs .qualifiedName
    compilationUnits := ← pool? fs .compilationUnit
    externAliases := ← pool? fs .externAlias
    usingDirectives := ← pool? fs .usingDirective
    referenceDirectives := ← pool? fs .referenceDirective
    attributeLists := ← pool? fs .attributeList
    attributeEntries := ← pool? fs .attributeEntry
    namespaces := ← pool? fs .namespaceDecl
    typeDecls := ← pool? fs .typeDecl
    delegates := ← pool? fs .delegate
    enumDecls := ← pool? fs .enumDecl
    enumMembers := ← pool? fs .enumMember
    fields := ← pool? fs .field
    declarators := ← pool? fs .declarator
    methods := ← pool? fs .method
    properties := ← pool? fs .property
    accessors := ← pool? fs .accessor
    parameters := ← pool? fs .parameter
    typeParameters := ← pool? fs .typeParameter
    constraintClauses := ← pool? fs .constraintClause
    globalStatements := ← pool? fs .globalStatement
    incompleteMembers := ← pool? fs .incompleteMember
    composites := ← pool? fs .composite }

def arena? (j : Json) : Option Arena := do
  let fs ← j.fields? ("nodes" :: "extended_info" :: Shape.all.map Shape.poolName)
  return {
    headers := (← fs.required "nodes" (list? header?)).toArray
    parents := (← fs.required "extended_info" (list? parent?)).toArray
    pools := ← pools? fs }

def ofTree (t : SyntaxTree) : Json := .record [
  ("id", ofUInt32 t.id.number), ("file_name", .str t.fileName),
  ("options", ofParseOptions t.options), ("arena", ofArena t.arena), ("root", ofIndex t.root)]

def tree? (j : Json) : Option SyntaxTree := do
  let fs ← j.fields? ["id", "file_name", "options", "arena", "root"]
  return {
    id := ⟨← fs.required "id" uint32?⟩
    fileName := ← fs.required "file_name" str?
    options := ← fs.required "options" parseOptions?
    arena := ← fs.required "arena" arena?
    root := ← fs.required "root" index? }

end Stored

namespace SyntaxTree

/-- The stored text of a tree. -/
def store (t : SyntaxTree) : String := (Stored.ofTree t).print

/-- Reads a stored text; a text that is none gives no tree. -/
def load? (text : String) : Option SyntaxTree := do Stored.tree? (← Json.parse? text)

end SyntaxTree

end DeclTree
