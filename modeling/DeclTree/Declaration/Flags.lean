import DeclTree.FlagSet
import DeclTree.Syntax.Kind
/-!
The alphabets of the flag sets that declarations carry: facts about a type, modifiers, and hints at
well-known attributes.
-/
namespace DeclTree

/-- What is known of a type without binding it. -/
inductive TypeFact
  /-- Some member, or an accessor of one, has an attribute list. -/
  | anyMemberHasAttributes
  /-- The type itself has an attribute list. -/
  | hasAnyAttributes
  | hasBaseDeclarations
  | hasAnyNonTypeMembers
  /-- The first parameter of some method has the modifier `this`. -/
  | hasExtensionMethodSyntax
  | hasRequiredMembers
  | hasAwaitExpressions
  | isIterator
  | hasReturnWithExpression
  | isSimpleProgram
  deriving DecidableEq, Repr

namespace TypeFact

def label : TypeFact → String
  | anyMemberHasAttributes => "ANY_MEMBER_HAS_ATTRIBUTES"
  | hasAnyAttributes => "HAS_ANY_ATTRIBUTES"
  | hasBaseDeclarations => "HAS_BASE_DECLARATIONS"
  | hasAnyNonTypeMembers => "HAS_ANY_NONTYPE_MEMBERS"
  | hasExtensionMethodSyntax => "HAS_EXTENSION_METHOD_SYNTAX"
  | hasRequiredMembers => "HAS_REQUIRED_MEMBERS"
  | hasAwaitExpressions => "HAS_AWAIT_EXPRESSIONS"
  | isIterator => "IS_ITERATOR"
  | hasReturnWithExpression => "HAS_RETURN_WITH_EXPRESSION"
  | isSimpleProgram => "IS_SIMPLE_PROGRAM"

instance : Flag TypeFact where
  all := [anyMemberHasAttributes, hasAnyAttributes, hasBaseDeclarations, hasAnyNonTypeMembers,
    hasExtensionMethodSyntax, hasRequiredMembers, hasAwaitExpressions, isIterator,
    hasReturnWithExpression, isSimpleProgram]
  bit := TypeFact.ctorIdx
  label := label
  getElem?_bit f := by cases f <;> rfl

end TypeFact

abbrev TypeFacts := FlagSet TypeFact

/-- The modifiers of a declaration. The two accessibilities that are written with two keywords are
modifiers of their own. -/
inductive Modifier
  | abstractMod | sealedMod | staticMod | newMod | publicMod | protectedMod | internalMod
  | protectedInternalMod | privateMod | privateProtectedMod | readonlyMod | constMod
  | volatileMod | externMod | partialMod | unsafeMod | fixedMod | virtualMod | overrideMod
  | asyncMod | refMod | requiredMod | scopedMod | fileMod
  deriving DecidableEq, Repr

namespace Modifier

def label : Modifier → String
  | abstractMod => "ABSTRACT"
  | sealedMod => "SEALED"
  | staticMod => "STATIC"
  | newMod => "NEW"
  | publicMod => "PUBLIC"
  | protectedMod => "PROTECTED"
  | internalMod => "INTERNAL"
  | protectedInternalMod => "PROTECTED_INTERNAL"
  | privateMod => "PRIVATE"
  | privateProtectedMod => "PRIVATE_PROTECTED"
  | readonlyMod => "READONLY"
  | constMod => "CONST"
  | volatileMod => "VOLATILE"
  | externMod => "EXTERN"
  | partialMod => "PARTIAL"
  | unsafeMod => "UNSAFE"
  | fixedMod => "FIXED"
  | virtualMod => "VIRTUAL"
  | overrideMod => "OVERRIDE"
  | asyncMod => "ASYNC"
  | refMod => "REF"
  | requiredMod => "REQUIRED"
  | scopedMod => "SCOPED"
  | fileMod => "FILE"

instance : Flag Modifier where
  all := [abstractMod, sealedMod, staticMod, newMod, publicMod, protectedMod, internalMod,
    protectedInternalMod, privateMod, privateProtectedMod, readonlyMod, constMod, volatileMod,
    externMod, partialMod, unsafeMod, fixedMod, virtualMod, overrideMod, asyncMod, refMod,
    requiredMod, scopedMod, fileMod]
  bit := Modifier.ctorIdx
  label := label
  getElem?_bit f := by cases f <;> rfl

/-- How a modifier is written. -/
def keyword : Modifier → String
  | abstractMod => "abstract"
  | sealedMod => "sealed"
  | staticMod => "static"
  | newMod => "new"
  | publicMod => "public"
  | protectedMod => "protected"
  | internalMod => "internal"
  | protectedInternalMod => "protected internal"
  | privateMod => "private"
  | privateProtectedMod => "private protected"
  | readonlyMod => "readonly"
  | constMod => "const"
  | volatileMod => "volatile"
  | externMod => "extern"
  | partialMod => "partial"
  | unsafeMod => "unsafe"
  | fixedMod => "fixed"
  | virtualMod => "virtual"
  | overrideMod => "override"
  | asyncMod => "async"
  | refMod => "ref"
  | requiredMod => "required"
  | scopedMod => "scoped"
  | fileMod => "file"

/-- The order in which modifiers are written: accessibility first, `partial` last. -/
def writtenOrder : List Modifier :=
  [publicMod, protectedInternalMod, privateProtectedMod, protectedMod, internalMod, privateMod,
    fileMod, newMod, staticMod, abstractMod, sealedMod, virtualMod, overrideMod, externMod,
    unsafeMod, readonlyMod, volatileMod, constMod, fixedMod, requiredMod, scopedMod, asyncMod,
    refMod, partialMod]

/-- The modifiers that say from where a declaration may be used. -/
def accessibilities : List Modifier :=
  [publicMod, protectedMod, internalMod, protectedInternalMod, privateMod, privateProtectedMod,
    fileMod]

/-- The modifier that a keyword token stands for. -/
def ofKind? : SyntaxKind → Option Modifier
  | .abstractKeyword => some abstractMod
  | .asyncKeyword => some asyncMod
  | .constKeyword => some constMod
  | .externKeyword => some externMod
  | .fileKeyword => some fileMod
  | .fixedKeyword => some fixedMod
  | .internalKeyword => some internalMod
  | .newKeyword => some newMod
  | .overrideKeyword => some overrideMod
  | .partialKeyword => some partialMod
  | .privateKeyword => some privateMod
  | .protectedKeyword => some protectedMod
  | .publicKeyword => some publicMod
  | .readOnlyKeyword => some readonlyMod
  | .refKeyword => some refMod
  | .requiredKeyword => some requiredMod
  | .scopedKeyword => some scopedMod
  | .sealedKeyword => some sealedMod
  | .staticKeyword => some staticMod
  | .unsafeKeyword => some unsafeMod
  | .virtualKeyword => some virtualMod
  | .volatileKeyword => some volatileMod
  | _ => none

end Modifier

abbrev Modifiers := FlagSet Modifier

namespace Modifiers

/-- The keywords of a set of modifiers, in the order in which they are written. -/
def keywords (m : Modifiers) : List String :=
  (Modifier.writtenOrder.filter fun f => m.contains f).map Modifier.keyword

/-- Turns `protected` with `internal`, or `private` with `protected`, into the one accessibility
that the two words mean together. A third accessibility beside them leaves the set as it is. -/
def combineAccessibility (m : Modifiers) : Modifiers :=
  let mask : Modifiers := .ofList Modifier.accessibilities
  let access := m ∩ mask
  let rest := m \ mask
  if access = .ofList [.protectedMod, .internalMod] then rest ∪ .single .protectedInternalMod
  else if access = .ofList [.privateMod, .protectedMod] then rest ∪ .single .privateProtectedMod
  else m

end Modifiers

/-- An attribute that later phases look for by name. A hint says that the name occurs, and never
fails to say so; it may stand for another attribute of that name. -/
inductive AttributeHint
  | typeIdentifier | typeForwardedTo | assemblyKeyName | assemblyKeyFile | assemblySignatureKey
  deriving DecidableEq, Repr

namespace AttributeHint

def label : AttributeHint → String
  | typeIdentifier => "TYPE_IDENTIFIER"
  | typeForwardedTo => "TYPE_FORWARDED_TO"
  | assemblyKeyName => "ASSEMBLY_KEY_NAME"
  | assemblyKeyFile => "ASSEMBLY_KEY_FILE"
  | assemblySignatureKey => "ASSEMBLY_SIGNATURE_KEY"

instance : Flag AttributeHint where
  all := [typeIdentifier, typeForwardedTo, assemblyKeyName, assemblyKeyFile, assemblySignatureKey]
  bit := AttributeHint.ctorIdx
  label := label
  getElem?_bit f := by cases f <;> rfl

/-- The name of the attribute, without its suffix. -/
def attributeName : AttributeHint → String
  | typeIdentifier => "TypeIdentifier"
  | typeForwardedTo => "TypeForwardedTo"
  | assemblyKeyName => "AssemblyKeyName"
  | assemblyKeyFile => "AssemblyKeyFile"
  | assemblySignatureKey => "AssemblySignatureKey"

end AttributeHint

abbrev AttributeHints := FlagSet AttributeHint

end DeclTree
