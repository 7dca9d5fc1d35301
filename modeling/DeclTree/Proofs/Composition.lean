import DeclTree.Proofs.Drafting
import DeclTree.Syntax.Draft.Call
/-!
What each call uses up of the nodes that were given back before it, and what it gives back. From that,
whatever calls compose is a tree in which no node is a part of two others.
-/
namespace DeclTree.Draft

open Syntax

theorem Makes.optional {used : Multiset NodeIndex} {step : Drafting NodeIndex}
    (h : Makes used step fun i => {i}) : Makes used step fun i => i.ifPresent :=
  h.mono le_rfl NodeIndex.ifPresent_le

/-! ### Tokens and names -/

theorem makes_missing : Makes 0 (pure NodeIndex.missing) fun i => i.ifPresent :=
  Makes.pure NodeIndex.ifPresent .missing

theorem makes_tokenIf (isThere : Bool) (kind : SyntaxKind) :
    Makes 0 (tokenIf isThere kind) fun i => i.ifPresent := by
  cases isThere with
  | true => exact (Makes.token kind).optional
  | false => exact makes_missing

theorem makes_modifiers (kinds : List SyntaxKind) :
    Makes 0 (modifiers kinds) fun nodes => (nodes : Multiset NodeIndex) :=
  .mapM Makes.token kinds

theorem makes_identifier (text : String) : Makes 0 (identifier text) fun i => {i} :=
  Makes.leaf rfl rfl rfl _

theorem makes_identifierName (text : String) : Makes 0 (identifierName text) fun i => {i} :=
  Makes.leaf rfl rfl rfl _

theorem makes_predefinedType (text : String) : Makes 0 (predefinedType text) fun i => {i} :=
  Makes.leaf rfl rfl rfl _

theorem makes_qualifiedName (left right : NodeIndex) :
    Makes (left.ifPresent + right.ifPresent) (qualifiedName left right) fun i => {i} := by
  refine Makes.node rfl rfl (le_of_eq ?_) fun _ => trivial
  simp [Shape.links]

theorem makes_qualify (name : NodeIndex) (segments : List String) :
    Makes {name} (qualify name segments) fun i => {i} := by
  induction segments generalizing name with
  | nil => exact Makes.pure _ name
  | cons segment rest ih =>
    refine (makes_identifierName segment).optional.andThen fun right => ?_
    refine ((makes_qualifiedName name right).chain ih).weaken ?_
    rw [add_comm]
    exact add_le_add_right name.ifPresent_le _

theorem makes_name (dotted : String) : Makes 0 (name dotted) fun i => {i} := by
  unfold name
  split
  · exact makes_identifierName ""
  · refine (makes_identifierName _).andThen fun first => ?_
    rw [add_zero]
    exact makes_qualify first _

theorem makes_aliasQualifiedName (aliasText text : String) :
    Makes 0 (aliasQualifiedName aliasText text) fun i => {i} := by
  refine (makes_identifierName aliasText).optional.andThen fun left => ?_
  refine (makes_identifierName text).optional.andThen fun right => ?_
  refine Makes.node rfl rfl (le_of_eq ?_) fun _ => trivial
  simp [Shape.links, add_comm]

theorem makes_genericName (text : String) (arguments : List String) :
    Makes 0 (genericName text arguments) fun i => {i} := by
  refine (makes_identifier text).optional.andThen fun identifier => ?_
  refine (Makes.mapM makes_identifierName arguments).andThen fun typeArguments => ?_
  refine Makes.node rfl rfl (le_of_eq ?_) fun _ => trivial
  simp [Shape.links, add_comm]

/-! ### Compilation units, directives and attributes -/

theorem makes_compilationUnit (d : CompilationUnit) :
    Makes (Shape.uses .compilationUnit d) (compilationUnit d) fun i => {i} :=
  Makes.node rfl rfl le_rfl fun _ => trivial

theorem makes_externAlias (aliasText : String) :
    Makes 0 (externAlias aliasText) fun i => {i} := by
  refine (makes_identifier aliasText).optional.andThen fun identifier => ?_
  refine Makes.node rfl rfl (le_of_eq ?_) fun _ => trivial
  simp [Shape.links]

theorem makes_usingDirective (isGlobal isStatic : Bool) (aliasText : Option String)
    (target : String) :
    Makes 0 (usingDirective isGlobal isStatic aliasText target) fun i => {i} := by
  refine (makes_tokenIf isGlobal _).andThen fun globalKeyword => ?_
  refine (makes_tokenIf isStatic _).andThen fun staticKeyword => ?_
  have hrest (aliasName : NodeIndex) :
      Makes (aliasName.ifPresent + (staticKeyword.ifPresent + (globalKeyword.ifPresent + 0)))
        (do
          let name ← name target
          node .usingDirective .usingDirective
            (⟨globalKeyword, staticKeyword, aliasName, name⟩ : UsingDirective))
        fun i => {i} := by
    refine (makes_name target).optional.andThen fun name => ?_
    refine Makes.node rfl rfl (le_of_eq ?_) fun _ => trivial
    simp [Shape.links, add_comm, add_assoc]
  cases aliasText with
  | none => exact makes_missing.andThen hrest
  | some text => exact (makes_identifier text).optional.andThen hrest

theorem makes_referenceDirective (file : String) :
    Makes 0 (referenceDirective file) fun i => {i} :=
  Makes.leaf rfl rfl rfl _

theorem makes_attributeEntry (attributeName : String) :
    Makes 0 (attributeEntry attributeName) fun i => {i} := by
  refine (makes_name attributeName).optional.andThen fun name => ?_
  refine Makes.node rfl rfl (le_of_eq ?_) fun _ => trivial
  simp [Shape.links]

theorem makes_attributeList (target : Option String) (names : List String) :
    Makes 0 (attributeList target names) fun i => {i} := by
  refine (Makes.mapM makes_attributeEntry names).andThen fun attributes => ?_
  refine Makes.node rfl rfl (le_of_eq ?_) fun _ => trivial
  simp [Shape.links]

/-! ### Namespaces and types -/

theorem makes_namespaceWith {kind : SyntaxKind} (hkind : kind.shape? = some .namespaceDecl)
    {d : Namespace} (hnamed : d.name.isPresent = true) :
    Makes (Shape.uses .namespaceDecl d) (namespaceWith kind d) fun i => {i} :=
  Makes.node hkind rfl le_rfl fun _ => hnamed

theorem makes_namespaceOf {kind : SyntaxKind} (hkind : kind.shape? = some .namespaceDecl)
    (dotted : String) (members : NodeList) :
    Makes members (namespaceOf kind dotted members) fun i => {i} := by
  refine (makes_name dotted).andThen fun name => ?_
  refine Makes.node hkind rfl ?_ fun hpresent => hpresent name (by simp)
  simpa [Shape.links] using
    add_le_add_left name.ifPresent_le (members : Multiset NodeIndex)

theorem makes_typeWith {kind : SyntaxKind} (hkind : kind.shape? = some .typeDecl)
    (d : TypeDecl) : Makes (Shape.uses .typeDecl d) (typeWith kind d) fun i => {i} :=
  Makes.node hkind rfl le_rfl fun _ => trivial

theorem makes_typeOf {kind : SyntaxKind} (hkind : kind.shape? = some .typeDecl)
    (typeName : String) (members : NodeList) :
    Makes members (typeOf kind typeName members) fun i => {i} := by
  refine (makes_identifier typeName).optional.andThen fun identifier => ?_
  refine (makes_typeWith hkind _).weaken (le_of_eq ?_)
  simp [Shape.links]

theorem makes_typeParameter (parameterName : String) :
    Makes 0 (typeParameter parameterName) fun i => {i} := by
  refine (makes_identifier parameterName).optional.andThen fun identifier => ?_
  refine Makes.node rfl rfl (le_of_eq ?_) fun _ => trivial
  simp [Shape.links]

theorem makes_typeParameters (names : List String) :
    Makes 0 (typeParameters names) fun nodes => (nodes : Multiset NodeIndex) :=
  .mapM makes_typeParameter names

theorem makes_baseList (names : List String) :
    Makes 0 (baseList names) fun nodes => (nodes : Multiset NodeIndex) :=
  .mapM makes_name names

theorem makes_constraintClause (parameter constraint : String) :
    Makes 0 (constraintClause parameter constraint) fun i => {i} := by
  refine (makes_identifierName parameter).optional.andThen fun subject => ?_
  refine (makes_name constraint).andThen fun bound => ?_
  refine Makes.node rfl rfl (le_of_eq ?_) fun _ => trivial
  simp [Shape.links, add_comm]

theorem makes_delegateWith (d : Delegate) :
    Makes (Shape.uses .delegate d) (delegateWith d) fun i => {i} :=
  Makes.node rfl rfl le_rfl fun _ => trivial

theorem makes_delegate (delegateName : String) :
    Makes 0 (delegate delegateName) fun i => {i} := by
  refine (makes_predefinedType _).optional.andThen fun returnType => ?_
  refine (makes_identifier delegateName).optional.andThen fun identifier => ?_
  refine (makes_delegateWith _).weaken (le_of_eq ?_)
  simp [Shape.links, add_comm]

theorem makes_enumWith (d : EnumDecl) :
    Makes (Shape.uses .enumDecl d) (enumWith d) fun i => {i} :=
  Makes.node rfl rfl le_rfl fun _ => trivial

theorem makes_enumMember (memberName : String) (attributeLists : NodeList) :
    Makes attributeLists (enumMember memberName attributeLists) fun i => {i} := by
  refine (makes_identifier memberName).optional.andThen fun identifier => ?_
  refine Makes.node rfl rfl (le_of_eq ?_) fun _ => trivial
  simp [Shape.links]

theorem makes_enumOf (enumName : String) (memberNames : List String) :
    Makes 0 (enumOf enumName memberNames) fun i => {i} := by
  refine (makes_identifier enumName).optional.andThen fun identifier => ?_
  refine (Makes.mapM (fun name => makes_enumMember name []) memberNames).andThen fun members => ?_
  refine (makes_enumWith _).weaken (le_of_eq ?_)
  simp [Shape.links, add_comm]

/-! ### Members -/

theorem makes_declarator (variableName : String) :
    Makes 0 (declarator variableName) fun i => {i} := by
  refine (makes_identifier variableName).optional.andThen fun identifier => ?_
  refine Makes.node rfl rfl (le_of_eq ?_) fun _ => trivial
  simp [Shape.links]

theorem makes_fieldWith {kind : SyntaxKind} (hkind : kind.shape? = some .field)
    (modifierKinds : List SyntaxKind) (names : List String) :
    Makes 0 (fieldWith kind modifierKinds names) fun i => {i} := by
  refine (makes_modifiers modifierKinds).andThen fun modifiers => ?_
  refine (makes_predefinedType _).optional.andThen fun typeNode => ?_
  refine (Makes.mapM makes_declarator names).andThen fun declarators => ?_
  refine Makes.node hkind rfl (le_of_eq ?_) fun _ => trivial
  simp [Shape.links, ← Multiset.coe_add, add_comm, add_left_comm, add_assoc]

theorem makes_parameter (modifierKinds : List SyntaxKind) (parameterName : String) :
    Makes 0 (parameter modifierKinds parameterName) fun i => {i} := by
  refine (makes_modifiers modifierKinds).andThen fun modifiers => ?_
  refine (makes_predefinedType _).optional.andThen fun typeNode => ?_
  refine (makes_identifier parameterName).optional.andThen fun identifier => ?_
  refine Makes.node rfl rfl (le_of_eq ?_) fun _ => trivial
  simp [Shape.links, add_comm, add_assoc]

theorem makes_composite {kind : SyntaxKind} (hkind : kind.shape? = some .composite)
    (children : NodeList) : Makes children (composite kind children) fun i => {i} :=
  Makes.node hkind rfl le_rfl fun _ => trivial

theorem makes_methodWith {kind : SyntaxKind} (hkind : kind.shape? = some .method) (d : Method) :
    Makes (Shape.uses .method d) (methodWith kind d) fun i => {i} :=
  Makes.node hkind rfl le_rfl fun _ => trivial

theorem makes_method (methodName : String) (parameters : NodeList) :
    Makes parameters (method methodName parameters) fun i => {i} := by
  refine (makes_predefinedType _).optional.andThen fun returnType => ?_
  refine (makes_identifier methodName).optional.andThen fun identifier => ?_
  refine (makes_composite rfl []).optional.andThen fun body => ?_
  refine (makes_methodWith rfl _).weaken (le_of_eq ?_)
  simp [Shape.links, add_comm, add_assoc]

theorem makes_explicitInterfaceMethod (interfaceName methodName : String) :
    Makes 0 (explicitInterfaceMethod interfaceName methodName) fun i => {i} := by
  refine (makes_predefinedType _).optional.andThen fun returnType => ?_
  refine (makes_name interfaceName).optional.andThen fun explicitInterface => ?_
  refine (makes_identifier methodName).optional.andThen fun identifier => ?_
  refine (makes_methodWith rfl _).weaken (le_of_eq ?_)
  simp [Shape.links, add_comm, add_assoc]

theorem makes_constructor (typeName : String) (isStatic : Bool) :
    Makes 0 (constructor typeName isStatic) fun i => {i} := by
  refine (makes_modifiers _).andThen fun modifiers => ?_
  refine (makes_identifier typeName).optional.andThen fun identifier => ?_
  refine (makes_methodWith rfl _).weaken (le_of_eq ?_)
  simp [Shape.links]

theorem makes_destructor (typeName : String) : Makes 0 (destructor typeName) fun i => {i} := by
  refine (makes_identifier typeName).optional.andThen fun identifier => ?_
  refine (makes_methodWith rfl _).weaken (le_of_eq ?_)
  simp [Shape.links]

theorem makes_operator (operatorKind : SyntaxKind) (parameterCount : Nat) (isChecked : Bool) :
    Makes 0 (operator operatorKind parameterCount isChecked) fun i => {i} := by
  refine (makes_modifiers _).andThen fun modifiers => ?_
  refine (makes_identifierName _).optional.andThen fun returnType => ?_
  refine (makes_tokenIf isChecked _).andThen fun checkedKeyword => ?_
  refine (Makes.token operatorKind).optional.andThen fun operatorToken => ?_
  refine (Makes.mapM (fun n => makes_parameter [] _) _).andThen fun parameters => ?_
  refine (makes_methodWith rfl _).weaken (le_of_eq ?_)
  simp [Shape.links, ← Multiset.coe_add, add_comm, add_left_comm, add_assoc]

theorem makes_conversion (keyword : SyntaxKind) (isChecked : Bool) :
    Makes 0 (conversion keyword isChecked) fun i => {i} := by
  refine (makes_modifiers _).andThen fun modifiers => ?_
  refine (Makes.token keyword).optional.andThen fun operatorToken => ?_
  refine (makes_tokenIf isChecked _).andThen fun checkedKeyword => ?_
  refine (makes_identifierName _).optional.andThen fun returnType => ?_
  refine (makes_parameter [] _).andThen fun source => ?_
  refine (makes_methodWith rfl _).weaken (le_of_eq ?_)
  simp [Shape.links, ← Multiset.coe_add, add_comm, add_left_comm, add_assoc]

theorem makes_accessor (keywordKind : SyntaxKind) (attributeLists : NodeList) :
    Makes attributeLists (accessor keywordKind attributeLists) fun i => {i} := by
  refine (Makes.token keywordKind).optional.andThen fun keyword => ?_
  refine Makes.node rfl rfl (le_of_eq ?_) fun _ => trivial
  simp [Shape.links]

theorem makes_propertyWith {kind : SyntaxKind} (hkind : kind.shape? = some .property)
    (d : Property) : Makes (Shape.uses .property d) (propertyWith kind d) fun i => {i} :=
  Makes.node hkind rfl le_rfl fun _ => trivial

theorem makes_property (propertyName : String) :
    Makes 0 (property propertyName) fun i => {i} := by
  refine (makes_accessor .getKeyword []).andThen fun getter => ?_
  refine (makes_accessor .setKeyword []).andThen fun setter => ?_
  refine (makes_predefinedType _).optional.andThen fun typeNode => ?_
  refine (makes_identifier propertyName).optional.andThen fun identifier => ?_
  refine (makes_propertyWith rfl _).weaken (le_of_eq ?_)
  simp [Shape.links, ← Multiset.cons_coe, add_comm]

theorem makes_indexer : Makes 0 indexer fun i => {i} := by
  refine (makes_accessor .getKeyword []).andThen fun getter => ?_
  refine (makes_predefinedType _).optional.andThen fun typeNode => ?_
  refine (makes_parameter [] _).andThen fun index => ?_
  refine (makes_propertyWith rfl _).weaken (le_of_eq ?_)
  simp [Shape.links, ← Multiset.cons_coe, add_comm, Multiset.cons_swap]

theorem makes_event (eventName : String) : Makes 0 (event eventName) fun i => {i} := by
  refine (makes_accessor .addKeyword []).andThen fun adder => ?_
  refine (makes_accessor .removeKeyword []).andThen fun remover => ?_
  refine (makes_identifierName _).optional.andThen fun typeNode => ?_
  refine (makes_identifier eventName).optional.andThen fun identifier => ?_
  refine (makes_propertyWith rfl _).weaken (le_of_eq ?_)
  simp [Shape.links, ← Multiset.cons_coe, add_comm]

theorem makes_incompleteMember : Makes 0 incompleteMember fun i => {i} := by
  refine (makes_predefinedType _).optional.andThen fun typeNode => ?_
  refine Makes.node rfl rfl (le_of_eq ?_) fun _ => trivial
  simp [Shape.links]

/-! ### Statements and expressions -/

theorem makes_globalStatement (statement : NodeIndex) :
    Makes statement.ifPresent (globalStatement statement) fun i => {i} := by
  refine Makes.node rfl rfl (le_of_eq ?_) fun _ => trivial
  simp [Shape.links]

theorem makes_invocation (callee : String) : Makes 0 (invocation callee) fun i => {i} := by
  refine (makes_name callee).andThen fun calleeName => ?_
  refine (makes_composite rfl []).andThen fun arguments => ?_
  have hswap := List.Perm.swap arguments calleeName []
  exact (makes_composite rfl _).weaken (le_of_eq (Multiset.coe_eq_coe.2 hswap))

theorem makes_callStatement (callee : String) :
    Makes 0 (callStatement callee) fun i => {i} := by
  refine (makes_invocation callee).andThen fun call => ?_
  exact (makes_composite rfl _).weaken (le_of_eq (by simp))

theorem makes_localFunction (statements : NodeList) :
    Makes statements (localFunction statements) fun i => {i} := by
  have hblock : Makes statements (composite .block statements) fun i => {i} :=
    makes_composite rfl statements
  exact hblock.chain fun block => makes_composite rfl [block]

/-- A statement that begins with `await`. -/
theorem makes_awaited {kind : SyntaxKind} (hkind : kind.shape? = some .composite)
    (children : NodeList) :
    Makes children (do
      let statement ← composite kind children
      setFlags statement NodeFlags.awaitKeyword
      return statement) fun i => {i} := by
  refine (makes_composite hkind children).chain fun statement => ?_
  refine (Makes.setFlags statement _).andThen fun _ => ?_
  rw [zero_add]
  exact Makes.pure _ statement

theorem makes_awaitForeach (body : NodeIndex) :
    Makes {body} (awaitForeach body) fun i => {i} := by
  refine (makes_identifierName _).andThen fun collection => ?_
  exact makes_awaited rfl [collection, body]

theorem makes_awaitUsing : Makes 0 awaitUsing fun i => {i} := by
  refine (makes_invocation _).andThen fun value => ?_
  rw [add_zero]
  exact makes_awaited rfl [value]

/-! ### Calls -/

/-- The nodes that a call gives back. -/
def Drafted.nodes : Drafted → NodeList
  | .node index => [index]
  | .list indices => indices

theorem Makes.asNode {used : Multiset NodeIndex} {step : Drafting NodeIndex}
    (h : Makes used step fun i => {i}) :
    Makes used (Draft.asNode step) fun drafted => (drafted.nodes : Multiset NodeIndex) := by
  rw [Draft.asNode, ← bind_pure_comp]
  exact h.chain fun i => pure (fun drafted : Drafted => (drafted.nodes : Multiset _)) (.node i)

theorem Makes.asList {used : Multiset NodeIndex} {step : Drafting NodeList}
    (h : Makes used step fun nodes => nodes) :
    Makes used (Draft.asList step) fun drafted => (drafted.nodes : Multiset NodeIndex) := by
  rw [Draft.asList, ← bind_pure_comp]
  exact h.chain fun nodes =>
    pure (fun drafted : Drafted => (drafted.nodes : Multiset _)) (.list nodes)

namespace Call

/-- The kind fits the payload, as an arena asserts when it adds a node, and a namespace has a name. -/
def Allowed : Call → Prop
  | .namespaceWith kind d => kind.shape? = some .namespaceDecl ∧ d.name.isPresent = true
  | .typeOf kind _ _ | .typeWith kind _ => kind.shape? = some .typeDecl
  | .fieldWith kind _ _ => kind.shape? = some .field
  | .methodWith kind _ => kind.shape? = some .method
  | .propertyWith kind _ => kind.shape? = some .property
  | .composite kind _ => kind.shape? = some .composite
  | _ => True

/-- The kind fits the payload, as an arena asserts when it adds a node. -/
def Fits : Call → Prop
  | .namespaceWith kind _ => kind.shape? = some .namespaceDecl
  | call => call.Allowed

theorem Allowed.fits {call : Call} (h : call.Allowed) : call.Fits := by
  cases call with
  | namespaceWith kind d => exact h.1
  | _ => exact h

/-- Only for a namespace without a name does it make a difference that it has to have one. -/
theorem Fits.cases {call : Call} (h : call.Fits) :
    call.Allowed ∨ ∃ kind d, call = .namespaceWith kind d ∧ kind.shape? = some .namespaceDecl := by
  cases call with
  | namespaceWith kind d => exact .inr ⟨kind, d, rfl, h⟩
  | _ => exact .inl h

/-- How many of the children are single ones. They come first. -/
def singles : Call → Nat
  | .qualifiedName _ _ => 2
  | .namespaceWith _ _ => Shape.singles .namespaceDecl
  | .typeWith _ _ => Shape.singles .typeDecl
  | .delegateWith _ => Shape.singles .delegate
  | .enumWith _ => Shape.singles .enumDecl
  | .methodWith _ _ => Shape.singles .method
  | .propertyWith _ _ => Shape.singles .property
  | .globalStatement _ => 1
  | _ => 0

/-- The nodes that a call uses as children. A single one may be left out, one of a list may not. -/
def uses (call : Call) : NodeList :=
  (call.children.take call.singles).filter (·.isPresent) ++ call.children.drop call.singles

theorem makes (call : Call) (h : call.Allowed) :
    Makes call.uses call.run fun drafted => (drafted.nodes : Multiset NodeIndex) := by
  cases call with
  | modifiers kinds => exact (makes_modifiers kinds).asList
  | typeParameters names => exact (makes_typeParameters names).asList
  | baseList names => exact (makes_baseList names).asList
  | token kind => exact (Makes.token kind).asNode
  | identifier text => exact (makes_identifier text).asNode
  | identifierName text => exact (makes_identifierName text).asNode
  | predefinedType text => exact (makes_predefinedType text).asNode
  | name dotted => exact (makes_name dotted).asNode
  | qualifiedName left right =>
    refine ((makes_qualifiedName left right).weaken (le_of_eq ?_)).asNode
    simp [uses, children, singles, NodeIndex.coe_filter_isPresent]
  | aliasQualifiedName aliasText text => exact (makes_aliasQualifiedName aliasText text).asNode
  | genericName text arguments => exact (makes_genericName text arguments).asNode
  | compilationUnit d => exact (makes_compilationUnit d).asNode
  | externAlias aliasText => exact (makes_externAlias aliasText).asNode
  | usingDirective isGlobal isStatic aliasText target =>
    exact (makes_usingDirective isGlobal isStatic aliasText target).asNode
  | referenceDirective file => exact (makes_referenceDirective file).asNode
  | attributeEntry text => exact (makes_attributeEntry text).asNode
  | attributeList target names => exact (makes_attributeList target names).asNode
  | namespaceOf text members => exact (makes_namespaceOf rfl text members).asNode
  | fileScopedNamespaceOf text members => exact (makes_namespaceOf rfl text members).asNode
  | namespaceWith kind d => exact (makes_namespaceWith h.1 h.2).asNode
  | typeOf kind text members => exact (makes_typeOf h text members).asNode
  | typeWith kind d => exact (makes_typeWith h d).asNode
  | constraintClause subject constraint =>
    exact (makes_constraintClause subject constraint).asNode
  | delegate text => exact (makes_delegate text).asNode
  | delegateWith d => exact (makes_delegateWith d).asNode
  | enumOf text members => exact (makes_enumOf text members).asNode
  | enumWith d => exact (makes_enumWith d).asNode
  | enumMember text attributeLists => exact (makes_enumMember text attributeLists).asNode
  | fieldWith kind kinds names => exact (makes_fieldWith h kinds names).asNode
  | parameter kinds text => exact (makes_parameter kinds text).asNode
  | method text parameters => exact (makes_method text parameters).asNode
  | explicitInterfaceMethod interfaceName text =>
    exact (makes_explicitInterfaceMethod interfaceName text).asNode
  | constructor text isStatic => exact (makes_constructor text isStatic).asNode
  | destructor text => exact (makes_destructor text).asNode
  | operator kind parameterCount isChecked =>
    exact (makes_operator kind parameterCount isChecked).asNode
  | conversion keyword isChecked => exact (makes_conversion keyword isChecked).asNode
  | methodWith kind d => exact (makes_methodWith h d).asNode
  | accessor keyword attributeLists => exact (makes_accessor keyword attributeLists).asNode
  | property text => exact (makes_property text).asNode
  | event text => exact (makes_event text).asNode
  | indexer => exact makes_indexer.asNode
  | incompleteMember => exact makes_incompleteMember.asNode
  | propertyWith kind d => exact (makes_propertyWith h d).asNode
  | globalStatement statement =>
    refine ((makes_globalStatement statement).weaken (le_of_eq ?_)).asNode
    simp [uses, children, singles, NodeIndex.coe_filter_isPresent]
  | composite kind inner => exact (makes_composite h inner).asNode
  | callStatement callee => exact (makes_callStatement callee).asNode
  | invocation callee => exact (makes_invocation callee).asNode
  | localFunction statements => exact (makes_localFunction statements).asNode
  | awaitForeach body => exact (makes_awaitForeach body).asNode
  | awaitUsing => exact makes_awaitUsing.asNode

theorem turns (call : Call) (h : call.Allowed) :
    Turns call.uses call.run fun drafted => (drafted.nodes : Multiset NodeIndex) :=
  (call.makes h).turns

theorem extent_le {call : Call} (h : call.Fits) (draft : Draft) :
    draft.extent ≤ (call.run.run draft).2.extent := by
  obtain h | ⟨kind, d, rfl, -⟩ := h.cases
  · exact (call.makes h).extent_le draft
  · exact extent_le_of_headers (Arena.headers_add _ _ _ _ _)

end Call

/-! ### Runs -/

/-- The draft that calls compose from nothing. -/
def ofCalls (calls : List Call) : Draft := ((runCalls calls).run {}).2

/-- The nodes that calls give back. -/
def givenBack (calls : List Call) : NodeList := ((runCalls calls).run {}).1.flatMap Drafted.nodes

/-- Every node that a call uses was given back by a call before it, no node is used twice, and there
is room for all nodes. -/
structure Composes (calls : List Call) : Prop where
  allowed : ∀ call ∈ calls, call.Allowed
  given : ∀ (n : Nat) (hn : n < calls.length), ∀ i ∈ calls[n].uses, i ∈ givenBack (calls.take n)
  once : (calls.flatMap Call.uses).Nodup
  room : (ofCalls calls).HasRoom

section Runs
variable {calls : List Call}

theorem ofCalls_concat (calls : List Call) (call : Call) :
    ofCalls (calls ++ [call]) = (call.run.run (ofCalls calls)).2 := by
  unfold ofCalls runCalls
  rw [List.mapM_append]
  rfl

theorem givenBack_concat (calls : List Call) (call : Call) :
    givenBack (calls ++ [call]) =
      givenBack calls ++ (call.run.run (ofCalls calls)).1.nodes := by
  have hresult : ((runCalls (calls ++ [call])).run {}).1 =
      ((runCalls calls).run {}).1 ++ [(call.run.run (ofCalls calls)).1] := by
    unfold ofCalls runCalls
    rw [List.mapM_append]
    rfl
  rw [givenBack, hresult, List.flatMap_append, List.flatMap_singleton]
  rfl

theorem extent_ofCalls_le (calls after : List Call) (h : ∀ call ∈ after, call.Fits) :
    (ofCalls calls).extent ≤ (ofCalls (calls ++ after)).extent := by
  induction after using List.reverseRecOn with
  | nil => rw [List.append_nil]
  | append_singleton rest call ih =>
    have hrest := ih fun c hc => h c (List.mem_append_left _ hc)
    have hcall := h call (List.mem_append_right _ List.mem_cons_self)
    rw [← List.append_assoc, ofCalls_concat]
    exact hrest.trans (Call.extent_le hcall _)

/-- After each call, the nodes that were given back and not used are free. -/
theorem Composes.take (h : Composes calls) {n : Nat} (hn : n ≤ calls.length) :
    ∃ free, (ofCalls (calls.take n)).Composed free ∧
      ∀ i ∈ givenBack (calls.take n), i ∉ (calls.take n).flatMap Call.uses → i ∈ free := by
  induction n with
  | zero => exact ⟨0, composed_empty, fun i hi => by cases hi⟩
  | succ n ih =>
    obtain ⟨free, hcomposed, hfree⟩ := ih (Nat.le_of_succ_le hn)
    have htake : calls.take (n + 1) = calls.take n ++ [calls[n]] :=
      List.take_succ_eq_append_getElem hn
    have hroom : (ofCalls (calls.take (n + 1))).HasRoom := by
      have hle := extent_ofCalls_le (calls.take (n + 1)) (calls.drop (n + 1)) fun call hcall =>
        (h.allowed call (List.mem_of_mem_drop hcall)).fits
      rw [List.take_append_drop] at hle
      exact Nat.lt_of_le_of_lt hle h.room
    have honce := h.once.sublist ((List.take_sublist (n + 1) calls).flatMap _)
    rw [htake, List.flatMap_append, List.flatMap_singleton] at honce
    obtain ⟨-, huses, hapart⟩ := List.nodup_append.1 honce
    have hle : (calls[n].uses : Multiset NodeIndex) ≤ free := by
      refine (Multiset.le_iff_subset (Multiset.coe_nodup.2 huses)).2 fun i hi => ?_
      exact hfree i (h.given n hn i hi) fun hused => hapart i hused i hi rfl
    obtain ⟨rest, rfl⟩ := Multiset.le_iff_exists_add.1 hle
    have hcall := calls[n].turns (h.allowed _ (List.getElem_mem hn))
    rw [htake, ofCalls_concat] at hroom
    refine ⟨(calls[n].run.run (ofCalls (calls.take n))).1.nodes + rest, ?_, ?_⟩
    · rw [htake, ofCalls_concat]
      exact hcall.composed _ rest hcomposed hroom
    · intro i hi hnot
      rw [htake, givenBack_concat] at hi
      rw [htake, List.flatMap_append, List.flatMap_singleton, List.mem_append, not_or] at hnot
      obtain hi | hi := List.mem_append.1 hi
      · obtain hi | hi := Multiset.mem_add.1 (hfree i hi hnot.1)
        · exact absurd hi hnot.2
        · exact Multiset.mem_add.2 (.inr hi)
      · exact Multiset.mem_add.2 (.inl hi)

theorem Composes.composed (h : Composes calls) : ∃ free, (ofCalls calls).Composed free := by
  obtain ⟨free, hcomposed, -⟩ := h.take (Nat.le_refl _)
  rw [List.take_length] at hcomposed
  exact ⟨free, hcomposed⟩

end Runs

end DeclTree.Draft
