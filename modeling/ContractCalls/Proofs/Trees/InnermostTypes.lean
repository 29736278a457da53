import ContractCalls.Proofs.Comments.Types
import ContractCalls.Proofs.Trees.EquippedTrees
import ContractCalls.Solidity.FromTree.Units

/-!
Contract: declared types, by what stands innermost in them.

Owns:
- the layers of a type, and what a variable holds by its layers and its innermost
  type;
- the trees that write a type: names and function types, in any number of array and
  mapping layers, with type nodes around them at any place;
- the law that the reading of such a tree and the classification of what is read
  agree on both.

Keys of mappings, lengths of arrays and all tokens but the telling ones are left
open, so they have no influence.
-/

set_option autoImplicit false

namespace ContractCalls.Solidity.TypeName

/-- The number of array and mapping layers. -/
def layers : TypeName → Nat
  | array element => element.layers + 1
  | mapping value => value.layers + 1
  | _ => 0

theorem leaf_of_no_layers {type : TypeName} (flat : type.layers = 0) : type.leaf = type := by
  cases type with
  | array element => simp [layers] at flat
  | mapping value => simp [layers] at flat
  | _ => rfl

/-- A collection holds plain values of its innermost type. -/
theorem holding?_of_layers {type : TypeName} (layered : type.layers ≠ 0) :
    type.holding? = plainOf type.leaf.leafName := by
  cases type with
  | array element => rfl
  | mapping value => rfl
  | _ => exact absurd rfl layered

end ContractCalls.Solidity.TypeName

namespace ContractCalls.Solidity.FromTree

open ContractCalls.Syntax

/-! ### Trees that write types -/

/-- What stands innermost in a type. -/
inductive Innermost where
  | primitive (name : String)
  | userDefined (name : String)
  | function
  deriving Repr, DecidableEq

/-- The kinds of nodes that are not read as the name of a user-defined type. -/
def typeKinds : List String := ["type_name", "primitive_type", "mapping", "function"]

/-- The value type of a mapping: the child in that role, or without one the first
named child behind the arrow. -/
inductive IsValueOf (node value : Node) : Prop where
  | inRole
      (isFirst : node.children.find? (fun child => child.field == some "value_type") = some value)
  | behindArrow {before between after : List Node} {arrow : Node}
      (noRole : ∀ child ∈ node.children, child.field ≠ some "value_type")
      (children : node.children = before ++ arrow :: (between ++ value :: after))
      (isArrow : arrow.kind = "=>") (isFirst : ∀ child ∈ before, child.kind ≠ "=>")
      (tokens : ∀ child ∈ between, child.named = false) (named : value.named = true)

/-- A node writes a type with a number of array and mapping layers around an
innermost type. -/
inductive WritesType : Node → Nat → Innermost → Prop where
  | primitive {node : Node} (kind : node.kind = "primitive_type")
      (nonempty : Text.squeeze (textOf node) ≠ "") :
      WritesType node 0 (.primitive (Text.squeeze (textOf node)))
  | userDefined {node : Node} (kind : node.kind ∉ typeKinds)
      (notElementary : Lexical.isElementaryType (Text.squeeze (textOf node)) = false)
      (nonempty : Text.compact (textOf node) ≠ "") :
      WritesType node 0 (.userDefined (Text.compact (textOf node)))
  | function {node keyword : Node} {rest : List Node} (kind : node.kind = "type_name")
      (children : node.children = keyword :: rest) (isKeyword : keyword.kind = "function") :
      WritesType node 0 .function
  | array {node element : Node} {rest : List Node} {layers : Nat} {innermost : Innermost}
      (kind : node.kind = "type_name") (children : node.children = element :: rest)
      (bracket : ∃ token ∈ rest, token.kind = "[")
      (writes : WritesType element layers innermost) :
      WritesType node (layers + 1) innermost
  | mapping {node keyword value : Node} {rest : List Node} {layers : Nat} {innermost : Innermost}
      (kind : node.kind = "type_name") (children : node.children = keyword :: rest)
      (isKeyword : keyword.kind = "mapping") (isValue : IsValueOf node value)
      (writes : WritesType value layers innermost) :
      WritesType node (layers + 1) innermost
  | wrapper {node inner : Node} {layers : Nat} {innermost : Innermost}
      (kind : node.kind = "type_name")
      (sole : (node.children.filter fun child => child.named) = [inner])
      (noKeyword : leadingKind? node ≠ some "mapping" ∧ leadingKind? node ≠ some "function")
      (noBracket : ∀ child ∈ node.children, child.kind ≠ "[")
      (writes : WritesType inner layers innermost) :
      WritesType node layers innermost

/-! ### Parts found among the children -/

section Parts

variable {node : Node}

theorem leadingKind?_of_children {first : Node} {rest : List Node}
    (children : node.children = first :: rest) : leadingKind? node = some first.kind := by
  unfold leadingKind?
  rw [children]
  rfl

theorem map_node_find? (slots : List (Syntax.Tree.Child node)) (p : Node → Bool) :
    (slots.find? fun slot => p slot.node).map Syntax.Tree.Child.node =
      (slots.map Syntax.Tree.Child.node).find? p := by
  rw [List.find?_map]
  rfl

theorem map_node_head?_slots {first : Node} {rest : List Node}
    (children : node.children = first :: rest) :
    node.slots.head?.map Syntax.Tree.Child.node = some first := by
  rw [← List.head?_map, Syntax.Tree.map_node_slots, children]
  rfl

theorem map_node_soleSlot? {inner : Node}
    (sole : (node.children.filter fun child => child.named) = [inner]) :
    node.soleSlot?.map Syntax.Tree.Child.node = some inner := by
  rw [← Syntax.Tree.map_node_slots, List.filter_map] at sole
  obtain ⟨only, isOnly, rfl⟩ := List.map_eq_singleton_iff.mp sole
  have found : node.soleSlot? = some only := by
    unfold Syntax.Tree.soleSlot?
    rw [show node.namedSlots = [only] from isOnly]
  rw [found]
  rfl

theorem map_node_mappingValue? {value : Node} (isValue : IsValueOf node value) :
    (mappingValue? node).map Syntax.Tree.Child.node = some value := by
  have inRole : (node.fieldSlot? "value_type").map Syntax.Tree.Child.node =
      node.children.find? fun child => child.field == some "value_type" := by
    rw [← Syntax.Tree.map_node_slots node]
    exact map_node_find? node.slots fun child => child.field == some "value_type"
  unfold mappingValue?
  dsimp only
  rw [Option.map_or, inRole, map_node_find? _ fun child => child.named, List.map_drop,
    Syntax.Tree.map_node_slots]
  cases isValue with
  | inRole isFirst => rw [isFirst, Option.some_or]
  | @behindArrow before between after arrow noRole children isArrow isFirst tokens named =>
      have absent : (node.children.find? fun child => child.field == some "value_type") = none := by
        rw [List.find?_eq_none]
        intro child member
        simpa using noRole child member
      have place : (node.children.findIdx? fun child => child.kind == "=>") =
          some before.length := by
        have notBefore : (before.findIdx? fun child => child.kind == "=>") = none := by
          rw [List.findIdx?_eq_none_iff]
          intro child member
          simpa using isFirst child member
        rw [children, List.findIdx?_append, notBefore, List.findIdx?_cons]
        simp [isArrow]
      have noneBetween : (between.find? fun child => child.named) = none := by
        rw [List.find?_eq_none]
        intro child member
        simp [tokens child member]
      have rest : node.children.drop (before.length + 1) = between ++ value :: after := by
        rw [children, List.drop_append]
        simp
      rw [absent, place, Option.getD_some, rest, List.find?_append, noneBetween,
        List.find?_cons_of_pos named]
      rfl

/-! ### Types read through a part -/

theorem elim_of_map_node {found : Option (Syntax.Tree.Child node)} {part : Node}
    (isPart : found.map Syntax.Tree.Child.node = some part) (otherwise : TypeName) :
    (found.elim otherwise fun child => typeName child.node) = typeName part := by
  obtain ⟨child, rfl, rfl⟩ := Option.map_eq_some_iff.mp isPart
  rfl

theorem typeName_of_array {element : Node} {rest : List Node} (kind : node.kind = "type_name")
    (children : node.children = element :: rest) (bracket : ∃ token ∈ rest, token.kind = "[")
    (noKeyword : element.kind ≠ "mapping" ∧ element.kind ≠ "function") :
    typeName node = .array (typeName element) := by
  obtain ⟨token, member, isBracket⟩ := bracket
  have hasBracket : (node.children.any fun child => child.kind == "[") = true := by
    rw [children]
    exact List.any_eq_true.mpr ⟨token, List.mem_cons_of_mem element member, by simp [isBracket]⟩
  have part := elim_of_map_node (map_node_head?_slots children) .function
  rw [typeName_eq, leadingKind?_of_children children, part]
  simp [kind, noKeyword, hasBracket]

theorem typeName_of_mapping {keyword value : Node} {rest : List Node}
    (kind : node.kind = "type_name") (children : node.children = keyword :: rest)
    (isKeyword : keyword.kind = "mapping") (isValue : IsValueOf node value) :
    typeName node = .mapping (typeName value) := by
  have part := elim_of_map_node (map_node_mappingValue? isValue) .function
  rw [typeName_eq, leadingKind?_of_children children, part]
  simp [kind, isKeyword]

theorem typeName_of_wrapper {inner : Node} (kind : node.kind = "type_name")
    (sole : (node.children.filter fun child => child.named) = [inner])
    (noKeyword : leadingKind? node ≠ some "mapping" ∧ leadingKind? node ≠ some "function")
    (noBracket : ∀ child ∈ node.children, child.kind ≠ "[") :
    typeName node = typeName inner := by
  have lacksBracket : (node.children.any fun child => child.kind == "[") = false := by
    rw [List.any_eq_false]
    intro child member
    simpa using noBracket child member
  have part := elim_of_map_node (map_node_soleSlot? sole) (namedType node)
  rw [typeName_eq, part]
  simp [kind, noKeyword, lacksBracket]

end Parts

/-! ### Reading and classification -/

/-- The innermost type as a type of its own. -/
def Innermost.type : Innermost → TypeName
  | primitive name => .elementary name
  | userDefined name => .userDefined name
  | function => .function

/-- What a variable holds, by the layers around the innermost type. -/
def Innermost.holding? (layers : Nat) : Innermost → Option Holding
  | primitive name => some (.plain (canonicalType name))
  | userDefined name =>
    if layers = 0 then some (.userDefined name) else some (.plain (canonicalType name))
  | function => none

namespace WritesType

variable {node : Node} {layers : Nat} {innermost : Innermost}

/-- No type is written by a bare keyword. -/
theorem kind_ne_keyword (writes : WritesType node layers innermost) :
    node.kind ≠ "mapping" ∧ node.kind ≠ "function" := by
  cases writes with
  | primitive kind nonempty => simp [kind]
  | userDefined kind notElementary nonempty =>
      simp only [typeKinds, List.mem_cons, not_or] at kind
      exact ⟨kind.2.2.1, kind.2.2.2.1⟩
  | function kind children isKeyword => simp [kind]
  | array kind children bracket writes => simp [kind]
  | mapping kind children isKeyword isValue writes => simp [kind]
  | wrapper kind sole noKeyword noBracket writes => simp [kind]

theorem leafName_ne_empty (writes : WritesType node layers innermost)
    (tracked : innermost ≠ .function) : innermost.type.leafName ≠ "" := by
  induction writes with
  | primitive kind nonempty => exact nonempty
  | userDefined kind notElementary nonempty => exact nonempty
  | function kind children isKeyword => exact absurd rfl tracked
  | array kind children bracket writes inductionHypothesis => exact inductionHypothesis tracked
  | mapping kind children isKeyword isValue writes inductionHypothesis =>
      exact inductionHypothesis tracked
  | wrapper kind sole noKeyword noBracket writes inductionHypothesis =>
      exact inductionHypothesis tracked

/-- A tree is read with its layers and its innermost type. -/
theorem typeName_eq_layers (writes : WritesType node layers innermost) :
    (typeName node).layers = layers ∧ (typeName node).leaf = innermost.type := by
  induction writes with
  | @primitive node kind nonempty =>
      have isRead : typeName node = .elementary (Text.squeeze (textOf node)) := by
        rw [typeName_eq]
        simp [kind, namedType]
      rw [isRead]
      exact ⟨rfl, rfl⟩
  | @userDefined node kind notElementary nonempty =>
      have isRead : typeName node = .userDefined (Text.compact (textOf node)) := by
        simp only [typeKinds, List.mem_cons, not_or] at kind
        rw [typeName_eq]
        simp [kind, namedType, notElementary]
      rw [isRead]
      exact ⟨rfl, rfl⟩
  | @function node keyword rest kind children isKeyword =>
      have isRead : typeName node = .function := by
        rw [typeName_eq, leadingKind?_of_children children]
        simp [kind, isKeyword]
      rw [isRead]
      exact ⟨rfl, rfl⟩
  | array kind children bracket writes inductionHypothesis =>
      rw [typeName_of_array kind children bracket writes.kind_ne_keyword]
      exact ⟨congrArg (· + 1) inductionHypothesis.1, inductionHypothesis.2⟩
  | mapping kind children isKeyword isValue writes inductionHypothesis =>
      rw [typeName_of_mapping kind children isKeyword isValue]
      exact ⟨congrArg (· + 1) inductionHypothesis.1, inductionHypothesis.2⟩
  | wrapper kind sole noKeyword noBracket writes inductionHypothesis =>
      rw [typeName_of_wrapper kind sole noKeyword noBracket]
      exact inductionHypothesis

/-- The two recursions meet: the classification of what is read depends on the
layers and the innermost type alone. -/
theorem holding?_typeName (writes : WritesType node layers innermost) :
    (typeName node).holding? = innermost.holding? layers := by
  obtain ⟨sameLayers, sameLeaf⟩ := writes.typeName_eq_layers
  have named := writes.leafName_ne_empty
  by_cases flat : layers = 0
  · rw [← TypeName.leaf_of_no_layers (sameLayers.trans flat), sameLeaf]
    cases innermost with
    | primitive name =>
        have nonempty : name ≠ "" := named (by simp)
        simp [Innermost.type, Innermost.holding?, TypeName.holding?, TypeName.plainOf, nonempty]
    | userDefined name =>
        have nonempty : name ≠ "" := named (by simp)
        simp [Innermost.type, Innermost.holding?, TypeName.holding?, nonempty, flat]
    | function => rfl
  · rw [TypeName.holding?_of_layers (sameLayers.trans_ne flat), sameLeaf]
    cases innermost with
    | primitive name =>
        have nonempty : name ≠ "" := named (by simp)
        simp [Innermost.type, Innermost.holding?, TypeName.leafName, TypeName.plainOf, nonempty]
    | userDefined name =>
        have nonempty : name ≠ "" := named (by simp)
        simp [Innermost.type, Innermost.holding?, TypeName.leafName, TypeName.plainOf, nonempty,
          flat]
    | function => rfl

end WritesType

/-- A variable whose type is written by a tree holds what its innermost type says: a
value of a user-defined type if that stands alone, a plain value of the canonical
type if it is primitive or in any layer of arrays and mappings, and nothing that is
tracked exactly if it is a function type.  All else in the tree has no influence. -/
theorem classified_by_innermost {node : Node} {layers : Nat} {innermost : Innermost}
    (writes : WritesType node layers innermost) :
    (typeName node).holding? = innermost.holding? layers ∧
      ((typeName node).holding? = none ↔ innermost = .function) ∧
      ∀ other otherLayers, WritesType other otherLayers innermost →
        (otherLayers = 0 ↔ layers = 0) →
          (typeName other).holding? = (typeName node).holding? := by
  have classified := writes.holding?_typeName
  refine ⟨classified, ?_, ?_⟩
  · rw [classified]
    cases innermost with
    | primitive name => simp [Innermost.holding?]
    | userDefined name =>
        by_cases flat : layers = 0
        · simp [Innermost.holding?, flat]
        · simp [Innermost.holding?, flat]
    | function => simp [Innermost.holding?]
  · intro other otherLayers otherWrites sameFlatness
    rw [classified, otherWrites.holding?_typeName]
    cases innermost with
    | primitive name => rfl
    | userDefined name => simp only [Innermost.holding?, sameFlatness]
    | function => rfl

/-- A bare token. -/
def tokenNode (text : String) : Node := { parsed text text [] with named := false }

/-- The type `Lib . Token[4]`, with a type node around the name. -/
def tokensType : Node :=
  parsed "type_name" "Lib . Token[4]" [
    parsed "type_name" "Lib . Token" [parsed "user_defined_type" "Lib . Token" []],
    tokenNode "[", parsed "number_literal" "4" [], tokenNode "]"]

/-- A mapping to that type, which has no role in it. -/
def holdingsType : Node :=
  parsed "type_name" "mapping(address => Lib . Token[4])" [
    tokenNode "mapping", tokenNode "(", parsed "primitive_type" "address" [], tokenNode "=>",
    tokensType, tokenNode ")"]

theorem classified_by_innermost_holdings :
    WritesType holdingsType 2 (.userDefined "Lib.Token") ∧
      (typeName holdingsType).holding? = some (.plain "Lib.Token") := by
  have name : WritesType (parsed "user_defined_type" "Lib . Token" []) 0
      (.userDefined "Lib.Token") :=
    .userDefined (by decide) (by decide +kernel) (by decide +kernel)
  have wrapped : WritesType
      (parsed "type_name" "Lib . Token" [parsed "user_defined_type" "Lib . Token" []]) 0
      (.userDefined "Lib.Token") :=
    .wrapper rfl rfl (by decide) (by decide) name
  have tokens : WritesType tokensType 1 (.userDefined "Lib.Token") :=
    .array rfl rfl ⟨tokenNode "[", by simp, rfl⟩ wrapped
  have children : holdingsType.children =
      [tokenNode "mapping", tokenNode "(", parsed "primitive_type" "address" []] ++
        tokenNode "=>" :: ([] ++ tokensType :: [tokenNode ")"]) := rfl
  have isValue : IsValueOf holdingsType tokensType :=
    .behindArrow (by decide) children rfl (by decide) (by simp) rfl
  have writes : WritesType holdingsType 2 (.userDefined "Lib.Token") :=
    .mapping rfl rfl rfl isValue tokens
  exact ⟨writes, (classified_by_innermost writes).1⟩

end ContractCalls.Solidity.FromTree
