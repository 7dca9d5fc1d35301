import DeclTree.Json.Decode
import DeclTree.Syntax.Payload
/-!
The stored form of payloads: a record for each payload, with the fields of its structure. A list of
nodes is a record with the one field `nodes`.
-/
namespace DeclTree.Stored

open Json

def ofUInt32 (n : UInt32) : Json := .nat n.toNat

def ofIndex (i : NodeIndex) : Json := ofUInt32 i.number

def index? (j : Json) : Option NodeIndex := j.uint32?.map NodeIndex.mk

def ofIndices (is : NodeList) : Json := .record [("nodes", .ofList ofIndex is)]

def indices? (j : Json) : Option NodeList := do
  let fs ← j.fields? ["nodes"]
  fs.required "nodes" (list? index?)

/-! ### Identifier -/

def ofIdentifier (d : Syntax.Identifier) : Json := .record [
  ("text", .str d.text)]

def identifier? (j : Json) : Option Syntax.Identifier := do
  let fs ← j.fields? ["text"]
  return {
    text := ← fs.required "text" str? }

/-! ### GenericName -/

def ofGenericName (d : Syntax.GenericName) : Json := .record [
  ("identifier", ofIndex d.identifier), ("type_arguments", ofIndices d.typeArguments)]

def genericName? (j : Json) : Option Syntax.GenericName := do
  let fs ← j.fields? ["identifier", "type_arguments"]
  return {
    identifier := ← fs.required "identifier" index?
    typeArguments := ← fs.required "type_arguments" indices? }

/-! ### QualifiedName -/

def ofQualifiedName (d : Syntax.QualifiedName) : Json := .record [
  ("left", ofIndex d.left), ("right", ofIndex d.right)]

def qualifiedName? (j : Json) : Option Syntax.QualifiedName := do
  let fs ← j.fields? ["left", "right"]
  return {
    left := ← fs.required "left" index?
    right := ← fs.required "right" index? }

/-! ### CompilationUnit -/

def ofCompilationUnit (d : Syntax.CompilationUnit) : Json := .record [
  ("externs", ofIndices d.externs), ("usings", ofIndices d.usings),
  ("attribute_lists", ofIndices d.attributeLists), ("members", ofIndices d.members),
  ("reference_directives", ofIndices d.referenceDirectives)]

def compilationUnit? (j : Json) : Option Syntax.CompilationUnit := do
  let fs ← j.fields? ["externs", "usings", "attribute_lists", "members", "reference_directives"]
  return {
    externs := ← fs.required "externs" indices?
    usings := ← fs.required "usings" indices?
    attributeLists := ← fs.required "attribute_lists" indices?
    members := ← fs.required "members" indices?
    referenceDirectives := ← fs.required "reference_directives" indices? }

/-! ### ExternAlias -/

def ofExternAlias (d : Syntax.ExternAlias) : Json := .record [
  ("identifier", ofIndex d.identifier)]

def externAlias? (j : Json) : Option Syntax.ExternAlias := do
  let fs ← j.fields? ["identifier"]
  return {
    identifier := ← fs.required "identifier" index? }

/-! ### UsingDirective -/

def ofUsingDirective (d : Syntax.UsingDirective) : Json := .record [
  ("global_keyword", ofIndex d.globalKeyword), ("static_keyword", ofIndex d.staticKeyword),
  ("alias", ofIndex d.aliasName), ("name", ofIndex d.name)]

def usingDirective? (j : Json) : Option Syntax.UsingDirective := do
  let fs ← j.fields? ["global_keyword", "static_keyword", "alias", "name"]
  return {
    globalKeyword := ← fs.required "global_keyword" index?
    staticKeyword := ← fs.required "static_keyword" index?
    aliasName := ← fs.required "alias" index?
    name := ← fs.required "name" index? }

/-! ### ReferenceDirective -/

def ofReferenceDirective (d : Syntax.ReferenceDirective) : Json := .record [
  ("file", .str d.file)]

def referenceDirective? (j : Json) : Option Syntax.ReferenceDirective := do
  let fs ← j.fields? ["file"]
  return {
    file := ← fs.required "file" str? }

/-! ### AttributeList -/

def ofAttributeList (d : Syntax.AttributeList) : Json := .record [
  ("target", .ofOption .str d.target), ("attributes", ofIndices d.attributes)]

def attributeList? (j : Json) : Option Syntax.AttributeList := do
  let fs ← j.fields? ["target", "attributes"]
  return {
    target := ← fs.optional "target" str?
    attributes := ← fs.required "attributes" indices? }

/-! ### AttributeEntry -/

def ofAttributeEntry (d : Syntax.AttributeEntry) : Json := .record [
  ("name", ofIndex d.name), ("arguments", ofIndices d.arguments)]

def attributeEntry? (j : Json) : Option Syntax.AttributeEntry := do
  let fs ← j.fields? ["name", "arguments"]
  return {
    name := ← fs.required "name" index?
    arguments := ← fs.required "arguments" indices? }

/-! ### Namespace -/

def ofNamespace (d : Syntax.Namespace) : Json := .record [
  ("attribute_lists", ofIndices d.attributeLists), ("modifiers", ofIndices d.modifiers),
  ("name", ofIndex d.name), ("externs", ofIndices d.externs), ("usings", ofIndices d.usings),
  ("members", ofIndices d.members)]

def namespaceDecl? (j : Json) : Option Syntax.Namespace := do
  let fs ← j.fields? ["attribute_lists", "modifiers", "name", "externs", "usings", "members"]
  return {
    attributeLists := ← fs.required "attribute_lists" indices?
    modifiers := ← fs.required "modifiers" indices?
    name := ← fs.required "name" index?
    externs := ← fs.required "externs" indices?
    usings := ← fs.required "usings" indices?
    members := ← fs.required "members" indices? }

/-! ### TypeDecl -/

def ofTypeDecl (d : Syntax.TypeDecl) : Json := .record [
  ("attribute_lists", ofIndices d.attributeLists), ("modifiers", ofIndices d.modifiers),
  ("identifier", ofIndex d.identifier),
  ("type_parameters", .ofOption ofIndices d.typeParameters),
  ("parameter_list", .ofOption ofIndices d.parameterList),
  ("base_list", .ofOption ofIndices d.baseList),
  ("constraint_clauses", ofIndices d.constraintClauses), ("members", ofIndices d.members)]

def typeDecl? (j : Json) : Option Syntax.TypeDecl := do
  let fs ← j.fields? [
    "attribute_lists", "modifiers", "identifier", "type_parameters", "parameter_list",
    "base_list", "constraint_clauses", "members"]
  return {
    attributeLists := ← fs.required "attribute_lists" indices?
    modifiers := ← fs.required "modifiers" indices?
    identifier := ← fs.required "identifier" index?
    typeParameters := ← fs.optional "type_parameters" indices?
    parameterList := ← fs.optional "parameter_list" indices?
    baseList := ← fs.optional "base_list" indices?
    constraintClauses := ← fs.required "constraint_clauses" indices?
    members := ← fs.required "members" indices? }

/-! ### Delegate -/

def ofDelegate (d : Syntax.Delegate) : Json := .record [
  ("attribute_lists", ofIndices d.attributeLists), ("modifiers", ofIndices d.modifiers),
  ("return_type", ofIndex d.returnType), ("identifier", ofIndex d.identifier),
  ("type_parameters", .ofOption ofIndices d.typeParameters),
  ("parameters", ofIndices d.parameters), ("constraint_clauses", ofIndices d.constraintClauses)]

def delegate? (j : Json) : Option Syntax.Delegate := do
  let fs ← j.fields? [
    "attribute_lists", "modifiers", "return_type", "identifier", "type_parameters", "parameters",
    "constraint_clauses"]
  return {
    attributeLists := ← fs.required "attribute_lists" indices?
    modifiers := ← fs.required "modifiers" indices?
    returnType := ← fs.required "return_type" index?
    identifier := ← fs.required "identifier" index?
    typeParameters := ← fs.optional "type_parameters" indices?
    parameters := ← fs.required "parameters" indices?
    constraintClauses := ← fs.required "constraint_clauses" indices? }

/-! ### EnumDecl -/

def ofEnumDecl (d : Syntax.EnumDecl) : Json := .record [
  ("attribute_lists", ofIndices d.attributeLists), ("modifiers", ofIndices d.modifiers),
  ("identifier", ofIndex d.identifier), ("base_list", .ofOption ofIndices d.baseList),
  ("members", ofIndices d.members)]

def enumDecl? (j : Json) : Option Syntax.EnumDecl := do
  let fs ← j.fields? ["attribute_lists", "modifiers", "identifier", "base_list", "members"]
  return {
    attributeLists := ← fs.required "attribute_lists" indices?
    modifiers := ← fs.required "modifiers" indices?
    identifier := ← fs.required "identifier" index?
    baseList := ← fs.optional "base_list" indices?
    members := ← fs.required "members" indices? }

/-! ### EnumMember -/

def ofEnumMember (d : Syntax.EnumMember) : Json := .record [
  ("attribute_lists", ofIndices d.attributeLists), ("identifier", ofIndex d.identifier),
  ("value", ofIndex d.value)]

def enumMember? (j : Json) : Option Syntax.EnumMember := do
  let fs ← j.fields? ["attribute_lists", "identifier", "value"]
  return {
    attributeLists := ← fs.required "attribute_lists" indices?
    identifier := ← fs.required "identifier" index?
    value := ← fs.required "value" index? }

/-! ### Field -/

def ofField (d : Syntax.Field) : Json := .record [
  ("attribute_lists", ofIndices d.attributeLists), ("modifiers", ofIndices d.modifiers),
  ("type_node", ofIndex d.typeNode), ("declarators", ofIndices d.declarators)]

def field? (j : Json) : Option Syntax.Field := do
  let fs ← j.fields? ["attribute_lists", "modifiers", "type_node", "declarators"]
  return {
    attributeLists := ← fs.required "attribute_lists" indices?
    modifiers := ← fs.required "modifiers" indices?
    typeNode := ← fs.required "type_node" index?
    declarators := ← fs.required "declarators" indices? }

/-! ### Declarator -/

def ofDeclarator (d : Syntax.Declarator) : Json := .record [
  ("identifier", ofIndex d.identifier), ("initializer", ofIndex d.initializer)]

def declarator? (j : Json) : Option Syntax.Declarator := do
  let fs ← j.fields? ["identifier", "initializer"]
  return {
    identifier := ← fs.required "identifier" index?
    initializer := ← fs.required "initializer" index? }

/-! ### Method -/

def ofMethod (d : Syntax.Method) : Json := .record [
  ("attribute_lists", ofIndices d.attributeLists), ("modifiers", ofIndices d.modifiers),
  ("return_type", ofIndex d.returnType), ("explicit_interface", ofIndex d.explicitInterface),
  ("identifier", ofIndex d.identifier), ("operator_token", ofIndex d.operatorToken),
  ("checked_keyword", ofIndex d.checkedKeyword),
  ("type_parameters", .ofOption ofIndices d.typeParameters),
  ("parameters", ofIndices d.parameters), ("constraint_clauses", ofIndices d.constraintClauses),
  ("body", ofIndex d.body)]

def method? (j : Json) : Option Syntax.Method := do
  let fs ← j.fields? [
    "attribute_lists", "modifiers", "return_type", "explicit_interface", "identifier",
    "operator_token", "checked_keyword", "type_parameters", "parameters", "constraint_clauses",
    "body"]
  return {
    attributeLists := ← fs.required "attribute_lists" indices?
    modifiers := ← fs.required "modifiers" indices?
    returnType := ← fs.required "return_type" index?
    explicitInterface := ← fs.required "explicit_interface" index?
    identifier := ← fs.required "identifier" index?
    operatorToken := ← fs.required "operator_token" index?
    checkedKeyword := ← fs.required "checked_keyword" index?
    typeParameters := ← fs.optional "type_parameters" indices?
    parameters := ← fs.required "parameters" indices?
    constraintClauses := ← fs.required "constraint_clauses" indices?
    body := ← fs.required "body" index? }

/-! ### Property -/

def ofProperty (d : Syntax.Property) : Json := .record [
  ("attribute_lists", ofIndices d.attributeLists), ("modifiers", ofIndices d.modifiers),
  ("type_node", ofIndex d.typeNode), ("explicit_interface", ofIndex d.explicitInterface),
  ("identifier", ofIndex d.identifier), ("parameters", ofIndices d.parameters),
  ("accessors", .ofOption ofIndices d.accessors), ("initializer", ofIndex d.initializer)]

def property? (j : Json) : Option Syntax.Property := do
  let fs ← j.fields? [
    "attribute_lists", "modifiers", "type_node", "explicit_interface", "identifier",
    "parameters", "accessors", "initializer"]
  return {
    attributeLists := ← fs.required "attribute_lists" indices?
    modifiers := ← fs.required "modifiers" indices?
    typeNode := ← fs.required "type_node" index?
    explicitInterface := ← fs.required "explicit_interface" index?
    identifier := ← fs.required "identifier" index?
    parameters := ← fs.required "parameters" indices?
    accessors := ← fs.optional "accessors" indices?
    initializer := ← fs.required "initializer" index? }

/-! ### Accessor -/

def ofAccessor (d : Syntax.Accessor) : Json := .record [
  ("attribute_lists", ofIndices d.attributeLists), ("modifiers", ofIndices d.modifiers),
  ("keyword", ofIndex d.keyword), ("body", ofIndex d.body)]

def accessor? (j : Json) : Option Syntax.Accessor := do
  let fs ← j.fields? ["attribute_lists", "modifiers", "keyword", "body"]
  return {
    attributeLists := ← fs.required "attribute_lists" indices?
    modifiers := ← fs.required "modifiers" indices?
    keyword := ← fs.required "keyword" index?
    body := ← fs.required "body" index? }

/-! ### Parameter -/

def ofParameter (d : Syntax.Parameter) : Json := .record [
  ("attribute_lists", ofIndices d.attributeLists), ("modifiers", ofIndices d.modifiers),
  ("type_node", ofIndex d.typeNode), ("identifier", ofIndex d.identifier),
  ("default_value", ofIndex d.defaultValue)]

def parameter? (j : Json) : Option Syntax.Parameter := do
  let fs ← j.fields? ["attribute_lists", "modifiers", "type_node", "identifier", "default_value"]
  return {
    attributeLists := ← fs.required "attribute_lists" indices?
    modifiers := ← fs.required "modifiers" indices?
    typeNode := ← fs.required "type_node" index?
    identifier := ← fs.required "identifier" index?
    defaultValue := ← fs.required "default_value" index? }

/-! ### TypeParameter -/

def ofTypeParameter (d : Syntax.TypeParameter) : Json := .record [
  ("attribute_lists", ofIndices d.attributeLists), ("identifier", ofIndex d.identifier)]

def typeParameter? (j : Json) : Option Syntax.TypeParameter := do
  let fs ← j.fields? ["attribute_lists", "identifier"]
  return {
    attributeLists := ← fs.required "attribute_lists" indices?
    identifier := ← fs.required "identifier" index? }

/-! ### ConstraintClause -/

def ofConstraintClause (d : Syntax.ConstraintClause) : Json := .record [
  ("name", ofIndex d.name), ("constraints", ofIndices d.constraints)]

def constraintClause? (j : Json) : Option Syntax.ConstraintClause := do
  let fs ← j.fields? ["name", "constraints"]
  return {
    name := ← fs.required "name" index?
    constraints := ← fs.required "constraints" indices? }

/-! ### GlobalStatement -/

def ofGlobalStatement (d : Syntax.GlobalStatement) : Json := .record [
  ("attribute_lists", ofIndices d.attributeLists), ("modifiers", ofIndices d.modifiers),
  ("statement", ofIndex d.statement)]

def globalStatement? (j : Json) : Option Syntax.GlobalStatement := do
  let fs ← j.fields? ["attribute_lists", "modifiers", "statement"]
  return {
    attributeLists := ← fs.required "attribute_lists" indices?
    modifiers := ← fs.required "modifiers" indices?
    statement := ← fs.required "statement" index? }

/-! ### IncompleteMember -/

def ofIncompleteMember (d : Syntax.IncompleteMember) : Json := .record [
  ("attribute_lists", ofIndices d.attributeLists), ("modifiers", ofIndices d.modifiers),
  ("type_node", ofIndex d.typeNode)]

def incompleteMember? (j : Json) : Option Syntax.IncompleteMember := do
  let fs ← j.fields? ["attribute_lists", "modifiers", "type_node"]
  return {
    attributeLists := ← fs.required "attribute_lists" indices?
    modifiers := ← fs.required "modifiers" indices?
    typeNode := ← fs.required "type_node" index? }

/-! ### Composite -/

def ofComposite (d : Syntax.Composite) : Json := .record [
  ("children", ofIndices d.children)]

def composite? (j : Json) : Option Syntax.Composite := do
  let fs ← j.fields? ["children"]
  return {
    children := ← fs.required "children" indices? }

end DeclTree.Stored
