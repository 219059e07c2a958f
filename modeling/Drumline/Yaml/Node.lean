/-
The nodes of a YAML document, and how they are read off its tokens. A node is a scalar, a sequence or a mapping, and
has a tag. An alias is the node that its anchor names, so the anchor has to come first. An alias inside that node makes
a collection that contains itself, which is not read here: a foreign scalar stands for it.

A mapping may have keys that merge other mappings into it. `Node.ofPairs` puts the pairs of those in front of its own,
so that its own count.
-/
import Drumline.Yaml.Token.Lexer
import Drumline.Yaml.Tag

namespace Drumline.Yaml

inductive Node where
  | scalar (tag : Tag) (text : List Char)
  | sequence (tag : Tag) (items : List Node)
  /-- the pairs are missing if they could not be merged; a scalar may stand for the whole mapping -/
  | mapping (tag : Tag) (pairs : Option (List (Node × Node))) (standIn : Option (List Char))
  deriving Repr

namespace Node

/-- what stands where a node is left out -/
def empty : Node := scalar .null []

def tag : Node → Tag
  | scalar tag _ => tag
  | sequence tag _ => tag
  | mapping tag _ _ => tag

/-- the text of a node where a scalar is needed -/
def scalarText? : Node → Option (List Char)
  | scalar _ text => some text
  | sequence .. => none
  | mapping _ _ standIn => standIn

mutual

/-- whether a node holds something that is not read here -/
def isForeign : Node → Bool
  | scalar tag _ => tag == .foreign
  | sequence tag items => tag == .foreign || anyForeign items
  | mapping tag none _ => tag == .foreign
  | mapping tag (some pairs) _ => tag == .foreign || anyForeignPair pairs

def anyForeign : List Node → Bool
  | [] => false
  | item :: items => item.isForeign || anyForeign items

def anyForeignPair : List (Node × Node) → Bool
  | [] => false
  | (key, value) :: pairs => key.isForeign || value.isForeign || anyForeignPair pairs

end

/-- the pairs that a node merges into a mapping -/
def mergedPairs? : Node → Option (List (Node × Node))
  | scalar .. => none
  | sequence _ items => (items.reverse.mapM fun
    | mapping _ pairs _ => pairs
    | _ => none).map List.flatten
  | mapping _ pairs _ => pairs

/-- a key for the value of the whole mapping is a text among the other keys -/
def plainKey : Node → Node
  | scalar .value text => scalar .text text
  | key => key

def ofPairs (tag : Tag) (pairs : List (Node × Node)) : Node :=
  let (merges, others) := pairs.partition (·.1.tag == .merge)
  let merged := merges.mapM fun (_, value) => value.mergedPairs?
  let standIn := (pairs.find? (·.1.tag == .value)).bind (·.2.scalarText?)
  if merges.any fun (_, value) => value.isForeign then scalar .foreign []
  else
    mapping tag (merged.map fun merged => merged.flatten ++ others.map fun (key, value) => (key.plainKey, value))
      standIn

end Node

/-- where reading nodes stands: the tokens that follow and the error behind them, the anchors so far, without a node
while that is not finished, and the names that handles of tags stand for -/
structure NodeReader where
  tokens : List Token
  failure : Option Error
  anchors : List (List Char × Option Node) := []
  handles : List (List Char × List Char)

/-- what reads a part of a document -/
abbrev Reading := StateT NodeReader (Except Error)

namespace Reading

def peek : Reading (Option Token) := do
  let r ← get
  match r.tokens, r.failure with
  | [], some error => throw error
  | tokens, _ => return tokens.head?

def advance : Reading Unit :=
  modify fun r => { r with tokens := r.tokens.tail }

def accept (token : Token) : Reading Bool := do
  let found := (← peek) == some token
  if found then advance
  return found

/-- takes a token, which has to be the next one -/
def expect (token : Token) : Reading Unit := do
  unless ← accept token do throw .malformed

/-- whether the next token is one of some -/
def nextIn (tokens : List Token) : Reading Bool :=
  return (← peek).any (· ∈ tokens)

/-- the name of a tag, and whether it is one that leaves the tag open -/
def tagName (mark : TagMark) : Reading (List Char) := do
  match mark.handle with
  | none => return mark.suffix
  | some handle =>
    match (← get).handles.lookup handle with
    | some start => return start ++ mark.suffix
    | none => throw .malformed

def anchor? : Reading (Option (List Char)) := do
  match ← peek with
  | some (.anchor name) => do
    advance
    return some name
  | _ => return none

def tag? : Reading (Option TagMark) := do
  match ← peek with
  | some (.tag mark) => do
    advance
    return some mark
  | _ => return none

/-- takes an anchor and the name of a tag, in either order -/
def properties : Reading (Option (List Char) × Option (List Char)) := do
  let anchor ← anchor?
  let tag ← tag?
  let anchor ← if anchor.isNone && tag.isSome then anchor? else pure anchor
  return (anchor, ← tag.mapM tagName)

/-- the tag of a scalar by the tag written for it, if it is not left open -/
def scalarTag (tag : Option (List Char)) (plain : Bool) (text : List Char) : Tag :=
  match tag with
  | none => if plain then .ofText text else .text
  | some ['!'] => .ofText text
  | some name => .ofName name

/-- the tag of a collection by the tag written for it, if it is not left open -/
def collectionTag (usual : Tag) : Option (List Char) → Tag
  | none => usual
  | some ['!'] => usual
  | some name => .ofName name

/-- opens an anchor; no two have one name -/
def openAnchor (name : List Char) : Reading Unit := do
  if ((← get).anchors.lookup name).isSome then throw .malformed
  modify fun r => { r with anchors := (name, none) :: r.anchors }

/-- gives an anchor its node -/
def closeAnchor (name : List Char) (node : Node) : Reading Unit :=
  modify fun r => { r with anchors := (name, some node) :: r.anchors }

/-- the node that an anchor names -/
def aliased (name : List Char) : Reading Node := do
  match (← get).anchors.lookup name with
  | some (some node) => return node
  | some none => return .scalar .foreign []
  | none => throw .malformed

/-! The count in front of each reader bounds the depth of the calls. Every second call at least takes a token. -/

mutual

/-- a node; one that is indented may be a block, and one behind a key may be a sequence that is not indented further -/
def node (count : Nat) (inBlock behindKey : Bool) : Reading Node := do
  match count with
  | 0 => throw .malformed
  | count + 1 =>
    match ← peek with
    | some (.alias name) => do
      advance
      aliased name
    | _ =>
      let (anchor, tag) ← properties
      let _ ← peek
      if let some name := anchor then openAnchor name
      let node ← content count inBlock behindKey tag (anchor.isSome || tag.isSome)
      if let some name := anchor then closeAnchor name node
      return node

/-- what a node holds behind its anchor and its tag; if it has one of them, that may be nothing -/
def content (count : Nat) (inBlock behindKey : Bool) (tag : Option (List Char)) (hasProperties : Bool) :
    Reading Node := do
  match count with
  | 0 => throw .malformed
  | count + 1 =>
    match ← peek with
    | some (.scalar text plain) => do
      advance
      return .scalar (scalarTag tag plain text) text
    | some .flowSequenceStart => do
      advance
      return .sequence (collectionTag .sequence tag) (← flowItems count true)
    | some .flowMappingStart => do
      advance
      return .ofPairs (collectionTag .mapping tag) (← flowPairs count true)
    | some .blockSequenceStart => do
      unless inBlock do throw .malformed
      advance
      return .sequence (collectionTag .sequence tag) (← blockItems count true)
    | some .blockMappingStart => do
      unless inBlock do throw .malformed
      advance
      return .ofPairs (collectionTag .mapping tag) (← blockPairs count)
    | next => do
      if behindKey && next == some .blockEntry then
        return .sequence (collectionTag .sequence tag) (← blockItems count false)
      unless hasProperties do throw .malformed
      return .scalar (scalarTag tag true []) []

/-- the items of a sequence with a mark in front of each; one that is indented further has an end -/
def blockItems (count : Nat) (indented : Bool) : Reading (List Node) := do
  match count with
  | 0 => throw .malformed
  | count + 1 =>
    if ← accept .blockEntry then
      let isEmpty ← nextIn ([.blockEntry, .blockEnd] ++ if indented then [] else [.key, .value])
      let item ← if isEmpty then pure Node.empty else node count true false
      return item :: (← blockItems count indented)
    if indented then expect .blockEnd
    return []

/-- the pairs of a mapping without brackets -/
def blockPairs (count : Nat) : Reading (List (Node × Node)) := do
  match count with
  | 0 => throw .malformed
  | count + 1 =>
    if ← accept .key then
      let ends := [Token.key, .value, .blockEnd]
      let key ← if ← nextIn ends then pure Node.empty else node count true true
      let value ←
        if ← accept .value then
          if ← nextIn ends then pure Node.empty else node count true true
        else pure Node.empty
      return (key, value) :: (← blockPairs count)
    expect .blockEnd
    return []

/-- a pair inside brackets that end with a token, from behind the mark of its key -/
def flowPair (count : Nat) (close : Token) : Reading (Node × Node) := do
  match count with
  | 0 => throw .malformed
  | count + 1 =>
    let key ← if ← nextIn [.value, .flowEntry, close] then pure Node.empty else node count false false
    let value ←
      if ← accept .value then
        if ← nextIn [.flowEntry, close] then pure Node.empty else node count false false
      else pure Node.empty
    return (key, value)

/-- the items of a sequence in brackets; an item with the mark of a key is a mapping of its own -/
def flowItems (count : Nat) (first : Bool) : Reading (List Node) := do
  match count with
  | 0 => throw .malformed
  | count + 1 =>
    if ← accept .flowSequenceEnd then return []
    unless first do expect .flowEntry
    if ← accept .key then
      let pair ← flowPair count .flowSequenceEnd
      return .ofPairs .mapping [pair] :: (← flowItems count false)
    if ← accept .flowSequenceEnd then return []
    let item ← node count false false
    return item :: (← flowItems count false)

/-- the pairs of a mapping in brackets; a key without a mark has no value -/
def flowPairs (count : Nat) (first : Bool) : Reading (List (Node × Node)) := do
  match count with
  | 0 => throw .malformed
  | count + 1 =>
    if ← accept .flowMappingEnd then return []
    unless first do expect .flowEntry
    if ← accept .key then
      let pair ← flowPair count .flowMappingEnd
      return pair :: (← flowPairs count false)
    if ← accept .flowMappingEnd then return []
    let key ← node count false false
    return (key, Node.empty) :: (← flowPairs count false)

end

/-- the handles that every document knows -/
def commonHandles : List (List Char × List Char) :=
  [(['!'], ['!']), (['!', '!'], Tag.common)]

/-- the directives in front of a document; there is one version at most, and no handle is named twice -/
def directives (versions : Nat) : List Token → Reading Unit
  | .directive content :: tokens => do
    modify fun r => { r with tokens }
    match content with
    | .version major =>
      if 0 < versions ∨ major ≠ 1 then throw .malformed
      directives (versions + 1) tokens
    | .tagHandle handle start => do
      let handles := (← get).handles
      if (handles.lookup handle).isSome then throw .malformed
      modify fun r => { r with handles := (handle, start) :: handles }
      directives versions tokens
    | .other => directives versions tokens
  | _ => return ()

/-- what stands behind the only document -/
def ending : Reading Unit := do
  let rest := (← get).tokens.dropWhile (· == .documentEnd)
  modify fun r => { r with tokens := rest }
  if (← peek).isSome then
    directives 0 rest
    discard peek
    throw .malformed

/-- the root of the only document, if there is one -/
def document : Reading (Option Node) := do
  let tokens := (← get).tokens
  let count := 3 * tokens.length + 3
  let root ← match ← peek with
    | none => pure none
    | some (.directive _) | some .documentStart => do
      directives 0 tokens
      expect .documentStart
      modify fun r => { r with handles := r.handles ++ commonHandles }
      match ← peek with
      | none | some .documentStart | some .documentEnd | some (.directive _) => pure (some Node.empty)
      | _ => some <$> node count true false
    | _ => do
      modify fun r => { r with handles := commonHandles }
      some <$> node count true false
  ending
  return root

end Reading

/-- the root of the document that a text is, if it holds one -/
def readNode (text : List Char) : Except Error (Option Node) :=
  let tokens := tokensOf text
  Reading.document.run' { tokens := tokens.front, failure := tokens.failure, handles := [] }

end Drumline.Yaml
