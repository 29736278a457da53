import ContractCalls.Options.Value
import ContractCalls.Yaml.Numeral

/-!
Contract: the value of a YAML text.

Owns:
- the values of nodes, by their tags;
- merged entries, which come before the entries of the mapping itself;
- keys, which have to be values without parts.

Main definition: `valueOf`.
-/

set_option autoImplicit false

namespace ContractCalls.Yaml

open ContractCalls.Options

/-- The text of a node: a mapping has that of its default entry. -/
def Node.text : Node → Except Failure String
  | .scalar _ text => .ok text
  | .sequence _ _ => .error .malformed
  | .mapping _ entries => defaultText entries
where
  defaultText : List (Node × Node) → Except Failure String
    | [] => .error .malformed
    | (key, value) :: rest =>
      if key.tag = coreTag "value" then value.text else defaultText rest

/-- The truth value of a text, in any case. -/
def flagOf (text : String) : Except Failure Bool :=
  let lower := String.ofList (text.toList.map Char.toLower)
  if ["yes", "true", "on"].contains lower then .ok true
  else if ["no", "false", "off"].contains lower then .ok false
  else .error .badFlag

/-- The bytes of a text, with the text that they encode. -/
def binaryOf (text : String) : Except Failure Value :=
  if text.toList.any fun char => char.toNat ≥ 128 then .error .malformed
  else
    match bytesOf? text with
    | some bytes => .ok (.binary (String.fromUTF8? ⟨bytes.toArray⟩))
    | none => .error .malformed

/-- The value of a node without parts; none for a tag of another kind. -/
def scalarValue? (kind : String) (text : String) : Option (Except Failure Value) :=
  match kind with
  | "null" => some (.ok .null)
  | "bool" => some (Value.boolean <$> flagOf text)
  | "int" => some (Value.integer <$> wholeOf text)
  | "float" => some (Value.real <$> realOf text)
  | "str" => some (.ok (.text text))
  | "binary" => some (binaryOf text)
  | "timestamp" => some ((Value.other · false) <$> momentText text)
  | _ => none

/-- The kind that a tag of the language names. -/
def kindOf? (tag : String) : Option String :=
  let start := coreTag ""
  if start.toList.isPrefixOf tag.toList then
    some (String.ofList (tag.toList.drop start.length))
  else none

/-- A value as a key. -/
def asKey : Value → Except Failure Value
  | .list _ => .error .malformed
  | .mapping _ => .error .malformed
  | .other "set" _ => .error .malformed
  | value => .ok value

/-- The entries of mappings that are merged into another, in the order in which
they come. -/
def mergedEntries (fuel : Nat) (entries : List (Node × Node)) :
    Except Failure (List (Node × Node)) := do
  match fuel with
  | 0 => .error .malformed
  | fuel + 1 =>
    let isMerge (entry : Node × Node) : Bool := entry.1.tag == coreTag "merge"
    let merged ← (entries.filter isMerge).mapM fun (_, value) =>
      match value with
      | .mapping _ inner => mergedEntries fuel inner
      | .sequence _ items => do
        let lists ← items.mapM fun item =>
          match item with
          | .mapping _ inner => mergedEntries fuel inner
          | _ => .error .malformed
        return lists.reverse.flatten
      | .scalar _ _ => .error .malformed
    return merged.flatten ++ entries.filter fun entry => !isMerge entry

/-- The node of a key: the mark for a default entry stands for itself. -/
def keyNode (key : Node) : Node :=
  match key with
  | .scalar tag text => if tag == coreTag "value" then .scalar (coreTag "str") text else key
  | _ => key

/-- The value of a node.  The fuel bounds the depth of the node. -/
def nodeValue : Nat → Node → Except Failure Value
  | 0, _ => .error .malformed
  | fuel + 1, node => do
    let entriesOf (entries : List (Node × Node)) : Except Failure (List (Value × Value)) := do
      let all ← mergedEntries fuel entries
      all.foldlM (fun known (key, value) => do
        let key ← nodeValue fuel (keyNode key) >>= asKey
        return Value.setEntry key (← nodeValue fuel value) known) []
    let pairOf (item : Node) : Except Failure Value := do
      match item with
      | .mapping _ [(key, value)] => return .list [← nodeValue fuel key, ← nodeValue fuel value]
      | _ => .error .malformed
    match kindOf? node.tag with
    | none => .error .malformed
    | some kind =>
      match kind, node with
      | "seq", .sequence _ items => Value.list <$> items.mapM (nodeValue fuel)
      | "map", .mapping _ entries => Value.mapping <$> entriesOf entries
      | "set", .mapping _ entries => do
        let entries ← entriesOf entries
        return .other "set" entries.isEmpty
      | "omap", .sequence _ items => Value.list <$> items.mapM pairOf
      | "pairs", .sequence _ items => Value.list <$> items.mapM pairOf
      | _, _ => do
        match scalarValue? kind (← node.text) with
        | some value => value
        | none => .error .malformed

/-- The value of a text; a text without a document is nothing. -/
def valueOf (text : String) : Except Failure Value := do
  match ← node? plainTag text with
  | none => return .null
  | some node => nodeValue (text.length + 2) node

end ContractCalls.Yaml
