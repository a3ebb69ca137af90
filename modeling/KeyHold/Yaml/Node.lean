/-
A YAML document as a tree.

A node is a text, a sequence or a mapping, with its tag and the position where it begins. An alias stands for the node
that its anchor marks; within that node itself it stands for an empty one. Nodes are read by recursive descent over
the tokens, of which each call takes at least one for every two levels it goes down.

- `Node.read?`: the one document of a text, or nothing if the text is empty.
-/
import KeyHold.Yaml.Tag
import KeyHold.Yaml.Tokens

namespace KeyHold.Yaml

inductive Node where
  | scalar (tag text : String) (mark : Mark)
  | seq (tag : String) (items : List Node) (mark : Mark)
  | map (tag : String) (entries : List (Node × Node)) (mark : Mark)
deriving Inhabited

namespace Node

def mark : Node → Mark
  | scalar _ _ m | seq _ _ m | map _ _ m => m

def tag : Node → String
  | scalar t _ _ | seq t _ _ | map t _ _ => t

/-- what messages call a node -/
def form : Node → String
  | scalar .. => "scalar"
  | seq .. => "sequence"
  | map .. => "mapping"

/-- nothing, where a node is left out -/
def blank (m : Mark) : Node := .scalar Tag.null "" m

end Node

/-- a document being read -/
structure Reader where
  tokens : List Token
  /-- what ends the tokens -/
  failure : Option Failure
  /-- what the handles of tags stand for -/
  handles : List (String × String) := []
  anchors : List (String × Node) := []

namespace Reader

abbrev Act := StateT Reader Result

/-- the next token, which stays -/
def peek : Act Token := fun r =>
  match r.tokens, r.failure with
  | t :: _, _ => .ok (t, r)
  | [], some e => .error e
  | [], none => .ok (⟨.streamEnd, {}, {}⟩, r)

/-- the next token, which is used up -/
def take : Act Token := do
  let t ← peek
  modify fun r => { r with tokens := r.tokens.drop 1 }
  return t

def nextIs (kinds : List TokenKind) : Act Bool := return kinds.contains (← peek).kind

def failsAt {α : Type} (problem : String) (m : Mark) : Act α := fun _ => failAt problem m

/-- the next token is not what it should be -/
def unexpected {α : Type} (context : String) (start : Mark) (expected but : String) : Act α := do
  let t ← peek
  fun _ => fail context start ("expected " ++ expected ++ ", but " ++ but ++ " '" ++ t.kind.name ++ "'") t.start

/-! ## Properties of a node -/

/-- anchor and tag of a node, and where they begin -/
structure Properties where
  anchor? : Option String := none
  tag? : Option String := none
  start? : Option Mark := none

/-- the text of a tag whose handle stands for something -/
def tagOf (start here : Mark) (handle? : Option String) (suffix : String) : Act String := do
  match handle? with
  | none => return suffix
  | some h =>
    match (← get).handles.lookup h with
    | some stem => return stem ++ suffix
    | none =>
      fun _ => fail "while parsing a node" start ("found undefined tag handle " ++ Text.quoted h) here

/-- an anchor and a tag, in either order -/
def properties : Act Properties := do
  let first ← peek
  match first.kind with
  | .anchor name =>
    let _ ← take
    let second ← peek
    match second.kind with
    | .tag handle? suffix =>
      let _ ← take
      return ⟨some name, some (← tagOf first.start second.start handle? suffix), some first.start⟩
    | _ => return ⟨some name, none, some first.start⟩
  | .tag handle? suffix =>
    let _ ← take
    let second ← peek
    match second.kind with
    | .anchor name =>
      let _ ← take
      return ⟨some name, some (← tagOf first.start first.start handle? suffix), some first.start⟩
    | _ => return ⟨none, some (← tagOf first.start first.start handle? suffix), some first.start⟩
  | _ => return {}

/-- the tag of a node by its form, if its properties do not name one -/
def Properties.tagOr (p : Properties) (implied : String) : String :=
  match p.tag? with
  | none | some "!" => implied
  | some t => t

/-- an anchor marks one node only -/
def checkAnchor (p : Properties) (start : Mark) : Act Unit := do
  match p.anchor? with
  | none => return
  | some name =>
    match (← get).anchors.lookup name with
    | none => return
    | some first =>
      fun _ => fail ("found duplicate anchor " ++ Text.quoted name ++ "; first occurrence") first.mark
        "second occurrence" start

/-- what the anchor, if there is one, marks from here on -/
def bind (p : Properties) (n : Node) : Act Unit := do
  match p.anchor? with
  | none => return
  | some name => modify fun r => { r with anchors := (name, n) :: r.anchors }

/-! ## Nodes -/

/-- a text, whose tag is by its form if it is plain or if the tag says so -/
def scalarNode (p : Properties) (start : Mark) (text : String) (plain : Bool) : Act Node := do
  checkAnchor p start
  let implied := if (plain && p.tag?.isNone) || p.tag? == some "!" then Tag.ofPlain text else Tag.str
  let n := Node.scalar (p.tagOr implied) text start
  bind p n
  return n

/-- a collection; while it is being read its anchor marks an empty one -/
def collection {α : Type} (p : Properties) (implied : String) (make : String → List α → Node)
    (contents : Act (List α)) (start : Mark) : Act Node := do
  checkAnchor p start
  bind p (make (p.tagOr implied) [])
  let n := make (p.tagOr implied) (← contents)
  bind p n
  return n

/-- the node that an alias stands for -/
def aliased (name : String) (here : Mark) : Act Node := do
  match (← get).anchors.lookup name with
  | some n => return n
  | none => failsAt ("found undefined alias " ++ Text.quoted name) here

/-- a comma before every item but the first -/
def comma (context : String) (start : Mark) (expected : String) (first : Bool) : Act Unit := do
  if !first then
    if ← nextIs [.flowEntry] then
      let _ ← take
    else unexpected context start expected "got"

mutual

/-- a node; block collections only where `inBlock`, and a sequence no deeper than its key only where `flush` -/
def node (inBlock flush : Bool) : Nat → Act Node
  | 0 => return .blank {}
  | fuel + 1 => do
    let first ← peek
    if let .reference name := first.kind then
      let _ ← take
      return ← aliased name first.start
    let p ← properties
    let t ← peek
    let start := p.start?.getD t.start
    let seq := collection p Tag.seq (fun tag items => .seq tag items start)
    let map := collection p Tag.map (fun tag entries => .map tag entries start)
    match t.kind with
    | .blockEntry => if flush then return ← seq (flushItems fuel) start
    | .scalar text plain =>
      let _ ← take
      return ← scalarNode p start text plain
    | .flowSequenceStart => return ← seq (do let t ← take; flowItems t.start true fuel) start
    | .flowMappingStart => return ← map (do let t ← take; flowEntries t.start true fuel) start
    | .blockSequenceStart => if inBlock then return ← seq (do let t ← take; blockItems t.start fuel) start
    | .blockMappingStart => if inBlock then return ← map (do let t ← take; blockEntries t.start fuel) start
    | _ => pure ()
    if p.start?.isSome then
      checkAnchor p start
      let n := Node.scalar (p.tagOr Tag.null) "" start
      bind p n
      return n
    unexpected ("while parsing a " ++ (if inBlock then "block" else "flow") ++ " node") start "the node content" "found"

/-- a node, or nothing if one of `ends` comes next -/
def nodeUnless (ends : List TokenKind) (stop : Mark) (inBlock flush : Bool) : Nat → Act Node
  | 0 => return .blank stop
  | fuel + 1 => do
    if ← nextIs ends then return .blank stop
    node inBlock flush fuel

/-- the items of a block sequence up to its end -/
def blockItems (start : Mark) : Nat → Act (List Node)
  | 0 => return []
  | fuel + 1 => do
    let t ← peek
    match t.kind with
    | .blockEntry =>
      let t ← take
      let item ← nodeUnless [.blockEntry, .blockEnd] t.stop true false fuel
      return item :: (← blockItems start fuel)
    | .blockEnd =>
      let _ ← take
      return []
    | _ => unexpected "while parsing a block collection" start "<block end>" "found"

/-- the items of a sequence that is no deeper than its key -/
def flushItems : Nat → Act (List Node)
  | 0 => return []
  | fuel + 1 => do
    let t ← peek
    match t.kind with
    | .blockEntry =>
      let t ← take
      let item ← nodeUnless [.blockEntry, .key, .value, .blockEnd] t.stop true false fuel
      return item :: (← flushItems fuel)
    | _ => return []

/-- the value after a key, which may be left out -/
def entryValue (ends : List TokenKind) (inBlock : Bool) : Nat → Act Node
  | 0 => return .blank {}
  | fuel + 1 => do
    let t ← peek
    match t.kind with
    | .value =>
      let t ← take
      nodeUnless ends t.stop inBlock inBlock fuel
    | _ => return .blank t.start

/-- the entries of a block mapping up to its end -/
def blockEntries (start : Mark) : Nat → Act (List (Node × Node))
  | 0 => return []
  | fuel + 1 => do
    let t ← peek
    match t.kind with
    | .key =>
      let t ← take
      let k ← nodeUnless [.key, .value, .blockEnd] t.stop true true fuel
      let v ← entryValue [.key, .value, .blockEnd] true fuel
      return (k, v) :: (← blockEntries start fuel)
    | .blockEnd =>
      let _ ← take
      return []
    | _ => unexpected "while parsing a block mapping" start "<block end>" "found"

/-- the items of a sequence in brackets; one with a colon in it is a mapping of one entry -/
def flowItems (start : Mark) (first : Bool) : Nat → Act (List Node)
  | 0 => return []
  | fuel + 1 => do
    if !(← nextIs [.flowSequenceEnd]) then
      comma "while parsing a flow sequence" start "',' or ']'" first
      let t ← peek
      match t.kind with
      | .key =>
        let _ ← take
        let k ← nodeUnless [.value, .flowEntry, .flowSequenceEnd] t.stop false false fuel
        let v ← entryValue [.flowEntry, .flowSequenceEnd] false fuel
        return .map Tag.map [(k, v)] t.start :: (← flowItems start false fuel)
      | .flowSequenceEnd => pure ()
      | _ =>
        let item ← node false false fuel
        return item :: (← flowItems start false fuel)
    let _ ← take
    return []

/-- the entries of a mapping in braces; a key may stand alone -/
def flowEntries (start : Mark) (first : Bool) : Nat → Act (List (Node × Node))
  | 0 => return []
  | fuel + 1 => do
    if !(← nextIs [.flowMappingEnd]) then
      comma "while parsing a flow mapping" start "',' or '\x7d'" first
      let t ← peek
      match t.kind with
      | .key =>
        let _ ← take
        let k ← nodeUnless [.value, .flowEntry, .flowMappingEnd] t.stop false false fuel
        let v ← entryValue [.flowEntry, .flowMappingEnd] false fuel
        return (k, v) :: (← flowEntries start false fuel)
      | .flowMappingEnd => pure ()
      | _ =>
        let k ← node false false fuel
        let m := (← peek).start
        return (k, .blank m) :: (← flowEntries start false fuel)
    let _ ← take
    return []

end

/-! ## Documents -/

/-- the handles that need no directive -/
def standardHandles : List (String × String) := [("!", "!"), ("!!", Tag.stem)]

/-- the directives before a document, given the handles and whether a version was named so far -/
def directives : Nat → List (String × String) → Bool → Act Unit
  | 0, _, _ => return
  | fuel + 1, handles, versioned => do
    let t ← peek
    match t.kind with
    | .directive d =>
      let _ ← take
      match d with
      | .version major =>
        if versioned then failsAt "found duplicate YAML directive" t.start
        if major != 1 then failsAt "found incompatible YAML document (version 1.* is required)" t.start
        directives fuel handles true
      | .handle name stem =>
        if (handles.lookup name).isSome then failsAt ("duplicate tag handle " ++ Text.quoted name) t.start
        directives fuel ((name, stem) :: handles) versioned
      | .other => directives fuel handles versioned
    | _ => modify fun r => { r with handles := handles ++ standardHandles }

def skipEnds : Nat → Act Unit
  | 0 => return
  | fuel + 1 => do
    if ← nextIs [.documentEnd] then
      let _ ← take
      skipEnds fuel

/-- the start of a document, if there is one more: where it begins -/
def openDocument (fuel : Nat) : Act (Option Mark) := do
  skipEnds fuel
  let t ← peek
  if t.kind == .streamEnd then return none
  directives fuel [] false
  let s ← peek
  if s.kind != .documentStart then
    failsAt ("expected '<document start>', but found '" ++ s.kind.name ++ "'") s.start
  let _ ← take
  return some t.start

/-- what an open document holds -/
def contents (fuel : Nat) : Act Node := do
  let t ← peek
  match t.kind with
  | .directive _ | .documentStart | .documentEnd | .streamEnd => return .blank t.start
  | _ => node true false fuel

/-- the one document -/
def document (fuel : Nat) : Act (Option Node) := do
  let t ← peek
  let explicit := match t.kind with
    | .directive _ | .documentStart | .streamEnd => true
    | _ => false
  let root? ←
    if explicit then
      match ← openDocument fuel with
      | none => pure none
      | some _ => some <$> contents fuel
    else
      modify fun r => { r with handles := standardHandles }
      some <$> node true false fuel
  match root? with
  | none => return none
  | some root =>
    if ← nextIs [.documentEnd] then
      let _ ← take
    match ← openDocument fuel with
    | none => return some root
    | some m =>
      fun _ => fail "expected a single document in the stream" root.mark "but found another document" m

end Reader

/-- the one document of a text, or nothing if the text is empty -/
def Node.read? (text : List Char) : Result (Option Node) :=
  let (tokens, failure) := scan text
  let fuel := 4 * tokens.length + 8
  match Reader.document fuel { tokens, failure } with
  | .ok (n, _) => .ok n
  | .error e => .error e

end KeyHold.Yaml
