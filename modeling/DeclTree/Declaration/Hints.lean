import DeclTree.Declaration.Flags
import DeclTree.Syntax.Name
import DeclTree.Syntax.Walk
/-!
Hints at well-known attributes. A name is matched by its text only: the attribute's name, or that
with the suffix `Attribute`. An alias counts both by its own name and by that of its target.
-/
namespace DeclTree

namespace AttributeHint

/-- The suffix that the name of an attribute may leave out. -/
def attributeSuffix : String := "Attribute"

/-- A name without one suffix. -/
def shortName (name : String) : String :=
  let suffix := attributeSuffix.toList
  let cs := name.toList
  if suffix.isSuffixOf cs then String.ofList (cs.take (cs.length - suffix.length)) else name

/-- The hint of a simple name. -/
def ofName (name : String) : AttributeHints :=
  match (Flag.all (α := AttributeHint)).find? fun h => h.attributeName == shortName name with
  | some h => .single h
  | none => ∅

end AttributeHint

namespace Arena

variable (a : Arena)

/-- The hint of the last identifier of a name. -/
def nameHint (name : NodeIndex) : AttributeHints :=
  match a.lastIdentifier? name with
  | some text => AttributeHint.ofName text
  | none => ∅

/-- The names of the attributes of some attribute lists. -/
def attributeNames (attributeLists : NodeList) : NodeList :=
  attributeLists.flatMap fun list =>
    match a.payload? .attributeList list with
    | some (d : Syntax.AttributeList) => d.attributes.filterMap fun entry =>
      (a.payload? .attributeEntry entry).map fun (e : Syntax.AttributeEntry) => e.name
    | none => []

def attributeHints (attributeLists : NodeList) : AttributeHints :=
  .unions a.nameHint (a.attributeNames attributeLists)

/-- The hints of one `using` directive with an alias. -/
def aliasHint (d : Syntax.UsingDirective) : AttributeHints :=
  match a.identifierText? d.aliasName with
  | some aliasText => AttributeHint.ofName aliasText ∪ a.nameHint d.name
  | none => ∅

/-- The `using` directives of a list; what is none is left out. -/
def usingDirectives (usings : NodeList) : List Syntax.UsingDirective :=
  usings.filterMap (a.payload? .usingDirective ·)

/-- The hints of the aliases among some directives, either the global or the other ones. -/
def aliasHints (usings : NodeList) (isGlobal : Bool) : AttributeHints :=
  .unions a.aliasHint
    ((a.usingDirectives usings).filter fun d => d.globalKeyword.isPresent == isGlobal)

/-- The members of a namespace; what is no namespace has none. -/
def namespaceMembers (i : NodeIndex) : NodeList :=
  ((a.payload? .namespaceDecl i).map fun (d : Syntax.Namespace) => d.members).getD []

def namespaceUsings (i : NodeIndex) : NodeList :=
  ((a.payload? .namespaceDecl i).map fun (d : Syntax.Namespace) => d.usings).getD []

/-- The hints of the aliases that are not global: those of a compilation unit and those of its
namespaces at any depth. There are none if the walk through the namespaces does not end. -/
def fileAliasHints? (unit : NodeIndex) : Option AttributeHints :=
  match a.payload? .compilationUnit unit with
  | some (d : Syntax.CompilationUnit) => do
    let visits ← Walk.visited? a.namespaceMembers (a.walkBudget d.members) d.members
    return a.aliasHints d.usings false ∪
      .unions (fun i => a.aliasHints (a.namespaceUsings i) false) visits
  | none => some ∅

end Arena

end DeclTree
