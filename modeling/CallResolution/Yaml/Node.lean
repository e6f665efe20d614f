import CallResolution.Yaml.Token
import CallResolution.Yaml.Value

/-!
# Nodes

The tree of a document: texts, lists and mappings, each with its place. A block mapping stands
where its first key stands, and a collection in brackets at its opening bracket; a name or tag
in front of a node counts as its start.

A node that has a name can stand at several places of the tree.
-/

namespace CallResolution.Yaml

/-- A node of a document. -/
inductive Node where
  /-- A scalar. -/
  | scalar (mark : Mark) (tag text : String)
  /-- A list. -/
  | seq (mark : Mark) (tag : String) (items : List Node)
  /-- A mapping. -/
  | map (mark : Mark) (tag : String) (entries : List (Node × Node))
  /-- The node of a name; there is none inside the node that has the name. -/
  | reference (mark : Mark) (name : String) (target : Option Node)
  deriving Repr, Inhabited

namespace Node

/-- Where a node stands. -/
def mark : Node → Mark
  | .scalar m _ _ | .seq m _ _ | .map m _ _ | .reference m _ _ => m

/-- What a node is. -/
def tag : Node → String
  | .scalar _ t _ | .seq _ t _ | .map _ t _ => t
  | .reference _ _ _ => ""

/-- The text of a scalar or the name of a node; collections have none. -/
def text : Node → String
  | .scalar _ _ text => text
  | .reference _ name _ => name
  | _ => ""

/-- Whether a node is a scalar that is nothing. -/
def isNull : Node → Bool
  | .scalar _ t _ => t = nullTag
  | _ => false

/-- Whether a key says that its value is merged into the mapping. -/
def isMerge : Node → Bool
  | .scalar _ t text => t = mergeTag && text = "<<"
  | _ => false

/-- Whether two keys count as the same: texts that are equal, names that are equal, and any
two lists or mappings. -/
def sameKey : Node → Node → Bool
  | .scalar _ _ a, .scalar _ _ b => a = b
  | .reference _ a _, .reference _ b _ => a = b
  | .seq _ _ _, .seq _ _ _ => true
  | .map _ _ _, .map _ _ _ => true
  | _, _ => false

/-- A scalar that has no tag in front of it. -/
def ofText (m : Mark) (text : String) (isPlain : Bool) : Node :=
  .scalar m (impliedTag text isPlain) text

/-- The node that stands where nothing is written. -/
def missing (m : Mark) : Node :=
  .ofText m "" true

end Node

/-- The place right behind a one-character token. -/
def Token.after (t : Token) : Mark :=
  { t.mark with col := t.mark.col + 1 }

/-- What is still to be read, with what was learned on the way. -/
structure Stream where
  /-- The tokens. -/
  tokens : Tokens
  /-- What the handles of tags stand for. -/
  handles : List (String × String) := plainHandles
  /-- The nodes that have names, the last one first; those that are still being read have
  none. -/
  anchors : List (String × Option Node) := []
  deriving Repr, Inhabited

/-- A step of building a tree. -/
abbrev TreeM := StateT Stream (Except Fault)

namespace Tree

/-- The next token. -/
def peek : TreeM Token := do
  let s ← get
  match s.tokens.given with
  | t :: _ => return t
  | [] => throw s.tokens.fault

/-- Moves past the next token. -/
def skip : TreeM Unit :=
  modify fun s => { s with tokens := { s.tokens with given := s.tokens.given.tail } }

/-- Whether the next token is of one of some kinds. -/
def nextIn (kinds : List TokenKind) : TreeM Bool := do
  return (← peek).kind ∈ kinds

/-- What stands in front of a node. -/
structure Front where
  /-- Where it starts. -/
  mark : Mark
  /-- The name. -/
  anchor : Option String := none
  /-- The handle and suffix of the tag. -/
  tag : Option (String × String) := none
  deriving Repr, Inhabited

/-- Reads one word in front of a node, if there is one that has not been read. -/
def frontWord (f : Front) : TreeM Front := do
  match (← peek).kind with
  | .anchor name => if f.anchor.isNone then skip; return { f with anchor := some name } else return f
  | .tag handle suffix => if f.tag.isNone then skip; return { f with tag := some (handle, suffix) } else return f
  | _ => return f

/-- Reads what stands in front of a node: a name and a tag, in any order. -/
def front : TreeM Front := do
  frontWord (← frontWord { mark := (← peek).mark })

/-- Says that a node with a name is being read. -/
def announce (f : Front) : TreeM Unit :=
  modify fun s => { s with anchors := f.anchor.toList.map (·, none) ++ s.anchors }

/-- Gives a node that was read its name, unless another node inside it took the name. -/
def register (f : Front) (n : Node) : TreeM Node := do
  modify fun s => { s with
    anchors := match f.anchor with
      | some name => if (s.anchors.lookup name).any Option.isNone then (name, some n) :: s.anchors else s.anchors
      | none => s.anchors }
  return n

/-- The tag in front of a node. -/
def frontTag (f : Front) : TreeM (Option String) := do
  match f.tag with
  | none => return none
  | some (handle, suffix) => fullTag? (← get).handles handle suffix

/-- The node of a name. -/
def referenceNode (m : Mark) (name : String) : TreeM Node := do
  match (← get).anchors.lookup name with
  | some target => return .reference m name target
  | none => throw .anchor

/-- The node that stands behind a name or tag without content. -/
def bare (f : Front) (tag : Option String) : TreeM Node :=
  if f.anchor.isNone && f.tag.isNone then throw .structural
  else register f (.scalar f.mark (tag.getD nullTag) "")

mutual

/-- Reads a node. Block collections are read only where `block` allows them, and lists without
an indentation of their own only where `indentless` does. -/
def node : Nat → (block indentless : Bool) → TreeM Node
  | 0, _, _ => throw .structural
  | fuel + 1, block, indentless => do
    let t ← peek
    match t.kind with
    | .reference name =>
      skip
      referenceNode t.mark name
    | _ =>
      let f ← front
      let tag ← frontTag f
      content fuel block indentless f tag

/-- Reads the content of a node behind what stands in front of it. Something in front stands
for a node by itself. -/
def content : Nat → (block indentless : Bool) → Front → (tag : Option String) → TreeM Node
  | 0, _, _, _, _ => throw .structural
  | fuel + 1, block, indentless, f, tag => do
    announce f
    let t ← peek
    match t.kind with
    | .scalar text isPlain =>
      skip
      register f (.scalar f.mark (tag.getD (impliedTag text isPlain)) text)
    | .flowSeqStart =>
      skip
      let items ← flowItems fuel true
      register f (.seq f.mark (tag.getD seqTag) items)
    | .flowMapStart =>
      skip
      let entries ← flowEntries fuel true
      register f (.map f.mark (tag.getD mapTag) entries)
    | .blockSeqStart =>
      if !block then bare f tag
      else
        skip
        let items ← blockItems fuel
        register f (.seq f.mark (tag.getD seqTag) items)
    | .blockMapStart =>
      if !block then bare f tag
      else
        skip
        let entries ← blockEntries fuel
        register f (.map f.mark (tag.getD mapTag) entries)
    | .blockEntry =>
      if !indentless then bare f tag
      else
        let items ← indentlessItems fuel
        register f (.seq f.mark (tag.getD seqTag) items)
    | _ => bare f tag

/-- Reads a node, or none before a token of some kinds. -/
def optional : Nat → (ends : List TokenKind) → (indentless : Bool) → Mark → TreeM Node
  | 0, _, _, _ => throw .structural
  | fuel + 1, ends, indentless, m => do
    if ← nextIn ends then return .missing m else node fuel true indentless

/-- Reads the items of a block list up to its end. -/
def blockItems : Nat → TreeM (List Node)
  | 0 => throw .structural
  | fuel + 1 => do
    let t ← peek
    match t.kind with
    | .blockEntry =>
      skip
      let item ← optional fuel [.blockEntry, .blockEnd] false t.after
      return item :: (← blockItems fuel)
    | .blockEnd =>
      skip
      return []
    | _ => throw .structural

/-- Reads the items of a block list without an indentation of its own. -/
def indentlessItems : Nat → TreeM (List Node)
  | 0 => throw .structural
  | fuel + 1 => do
    let t ← peek
    match t.kind with
    | .blockEntry =>
      skip
      let item ← optional fuel [.blockEntry, .key, .value, .blockEnd] false t.after
      return item :: (← indentlessItems fuel)
    | _ => return []

/-- Reads the value of an entry of a block mapping. -/
def blockValue : Nat → TreeM Node
  | 0 => throw .structural
  | fuel + 1 => do
    let t ← peek
    if t.kind = .value then
      skip
      optional fuel [.key, .value, .blockEnd] true t.after
    else return .missing t.mark

/-- Reads the entries of a block mapping up to its end. -/
def blockEntries : Nat → TreeM (List (Node × Node))
  | 0 => throw .structural
  | fuel + 1 => do
    let t ← peek
    match t.kind with
    | .key =>
      skip
      let key ← optional fuel [.key, .value, .blockEnd] true t.after
      let value ← blockValue fuel
      return (key, value) :: (← blockEntries fuel)
    | .blockEnd =>
      skip
      return []
    | _ => throw .structural

/-- Reads a node inside brackets, or none before a token of some kinds. -/
def flowNode : Nat → (ends : List TokenKind) → TreeM Node
  | 0, _ => throw .structural
  | fuel + 1, ends => do
    let t ← peek
    if t.kind ∈ ends then return .missing t.mark else node fuel false false

/-- Reads the value of an entry inside brackets, which may be missing. -/
def flowValue : Nat → (ends : List TokenKind) → TreeM Node
  | 0, _ => throw .structural
  | fuel + 1, ends => do
    let t ← peek
    if t.kind = .value then
      skip
      flowNode fuel ends
    else return .missing t.mark

/-- Reads the items of a list in brackets. -/
def flowItems : Nat → (first : Bool) → TreeM (List Node)
  | 0, _ => throw .structural
  | fuel + 1, first => do
    if ← nextIn [.flowSeqEnd] then
      skip
      return []
    if !first then
      if !(← nextIn [.flowEntry]) then throw .structural
      skip
    if ← nextIn [.flowSeqEnd] then
      skip
      return []
    let item ← flowItem fuel
    return item :: (← flowItems fuel false)

/-- Reads one item of a list in brackets. A key makes its item a mapping of one entry; where
the key is missing, the token in its place is passed over. -/
def flowItem : Nat → TreeM Node
  | 0 => throw .structural
  | fuel + 1 => do
    let t ← peek
    if t.kind = .key then
      skip
      let u ← peek
      let key ←
        if u.kind ∈ [TokenKind.value, .flowEntry, .flowSeqEnd] then do
          skip
          pure (.missing u.after)
        else node fuel false false
      let value ← flowValue fuel [.flowEntry, .flowSeqEnd]
      return .map t.mark mapTag [(key, value)]
    else node fuel false false

/-- Reads the entries of a mapping in braces. -/
def flowEntries : Nat → (first : Bool) → TreeM (List (Node × Node))
  | 0, _ => throw .structural
  | fuel + 1, first => do
    if ← nextIn [.flowMapEnd] then
      skip
      return []
    if !first then
      if !(← nextIn [.flowEntry]) then throw .structural
      skip
    if ← nextIn [.flowMapEnd] then
      skip
      return []
    let entry ← flowPair fuel
    return entry :: (← flowEntries fuel false)

/-- Reads one entry of a mapping in braces. An entry without a key mark has no value. -/
def flowPair : Nat → TreeM (Node × Node)
  | 0 => throw .structural
  | fuel + 1 => do
    if ← nextIn [.key] then
      skip
      let key ← flowNode fuel [.value, .flowEntry, .flowMapEnd]
      return (key, ← flowValue fuel [.flowEntry, .flowMapEnd])
    else
      let key ← node fuel false false
      return (key, .missing (← peek).mark)

end

/-- Reads the directives in front of a document. -/
def directives : Nat → TreeM (List Directive)
  | 0 => return []
  | fuel + 1 => do
    match (← peek).kind with
    | .directive d =>
      skip
      return d :: (← directives fuel)
    | _ => return []

/-- Whether the next token ends a document without content. -/
def atDocumentEnd : TreeM Bool := do
  match (← peek).kind with
  | .documentStart | .documentEnd | .streamEnd | .directive _ => return true
  | _ => return false

/-- Reads the content of a document that was started by a marker. -/
def marked (fuel : Nat) : TreeM Node := do
  match handlesOf? false [] (← directives fuel) with
  | none => throw .directive
  | some handles =>
    if !(← nextIn [.documentStart]) then throw .structural
    skip
    modify ({ · with handles })
    if ← atDocumentEnd then return .missing (← peek).mark else node fuel true false

/-- Reads the first document. What follows it is looked at no further than to see where it
ends. -/
def document (fuel : Nat) : TreeM (Option Node) := do
  match (← peek).kind with
  | .streamEnd => return none
  | .documentStart | .directive _ =>
    let n ← marked fuel
    let _ ← peek
    return some n
  | _ =>
    let n ← node fuel true false
    let _ ← peek
    return some n

end Tree

/-- The tree of the first document of a text; a text without a document has none. -/
def document? (text : String) : Except Fault (Option Node) := do
  let ts := tokens text
  let (n, _) ← (Tree.document (6 * ts.given.length + 12)).run { tokens := ts }
  return n

end CallResolution.Yaml
