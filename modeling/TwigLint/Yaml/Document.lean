import TwigLint.Yaml.Error
import TwigLint.Yaml.TokenStream

/-! # From tokens to nodes

A text holds a sequence of documents, of which the first is read.  Tokens are read only as far as
needed, so that a fault behind the first document goes unnoticed.
-/

namespace TwigLint.Yaml

/-- What an anchor stands for: a node, or a collection that is still being read. -/
inductive Anchored where
  | whole (node : Node)
  | unfinished (target : LoopTarget)

/-- The lexer, the anchors, latest first, the expansions of tag handles; `looped` has
the collections to which aliases inside them refer, once for each alias. -/
structure Builder where
  lexer : Lexer
  anchors : List (Text × Anchored)
  handles : List (Text × Text)
  looped : List Nat
  targets : List (Nat × Node)

/-- A computation that consumes tokens. -/
abbrev Build (α : Type) := StateT Builder (Except Error) α

namespace Build

/-- A step of the lexer. -/
def lex {α : Type} (step : Lex α) : Build α := fun ⟨lexer, anchors, handles, looped, targets⟩ =>
  match step.run.run lexer with
  | (.ok a, lexer) => .ok (a, ⟨lexer, anchors, handles, looped, targets⟩)
  | (.error fault, _) => .error (.malformed fault)

/-- Fails because of the order of the tokens. -/
def refuse {α : Type} (problem : Problem) (context found : Mark) : Build α :=
  throw (.malformed (.ofStructure problem context found))

/-- The current token. -/
def peek : Build Token := lex Lex.current

/-- Drops the current token. -/
def skip : Build Unit := lex Lex.advance

/-- Ends one part of the document: the start or end of a collection, a scalar or an alias.  A fault
that was passed over while it was read counts now. -/
def close : Build Unit := do
  if let some fault := (← get).lexer.passed then throw (.malformed fault)

/-- Drops the current token, which takes the comments in front of it. -/
def skipWithHead : Build Unit := lex do
  Lex.dropHead
  Lex.advance

/-- The node for which nothing is written. -/
def absent (m : Mark) : Build Node := do
  close
  return .scalar (m.line + 1) .null []

/-! ## Anchors and tags -/

/-- The node an alias stands for. -/
def aliased (start : Mark) (name : Text) : Build Node := do
  match (← get).anchors.lookup name with
  | some (.whole node) => return .aliasOf start.index (start.line + 1) name node
  | some (.unfinished target) =>
    modify fun s => { s with looped := target.index :: s.looped }
    return .loop start.index (start.line + 1) name target
  | none => throw (.unknownAnchor name)

/-- Gives a node an anchor. -/
def anchor (name? : Option Text) (what : Anchored) : Build Unit :=
  match name? with
  | some name => modify fun s => { s with anchors := (name, what) :: s.anchors }
  | none => return ()

/-- Puts a finished collection in the place of the unfinished one. -/
def finish (index : Nat) (node : Node) : Build Unit :=
  modify fun s => { s with
    anchors := s.anchors.map fun (name, what) =>
      match what with
      | .unfinished target => (name, if target.index = index then .whole node else what)
      | .whole _ => (name, what)
    targets := if s.looped.contains index then (index, node) :: s.targets else s.targets }

/-- A collection with a tag and perhaps an anchor, which its items may refer to. -/
def collection {α : Type} (name? : Option Text) (target : LoopTarget) (items : Build α)
    (make : α → Node) : Build Node := do
  close
  anchor name? (.unfinished target)
  let node := make (← items)
  if name?.isSome then finish target.index node
  return node

/-- The anchor and tag in front of a node, in either order; the tag with its position. -/
def properties : Build (Option Text × Option (Text × Text × Mark)) := do
  let t ← peek
  match t.kind with
  | .anchor name =>
    skip
    let t ← peek
    match t.kind with
    | .tag handle suffix =>
      skip
      return (some name, some (handle, suffix, t.start))
    | _ => return (some name, none)
  | .tag handle suffix =>
    skip
    let tag := some (handle, suffix, t.start)
    match (← peek).kind with
    | .anchor name =>
      skip
      return (some name, tag)
    | _ => return (none, tag)
  | _ => return (none, none)

/-- The tag with its handle expanded. -/
def expand (context : Mark) : Option (Text × Text × Mark) → Build Text
  | none => return []
  | some (handle, suffix, m) => do
    if handle.isEmpty then return suffix
    match (← get).handles.lookup handle with
    | some expansion => return expansion ++ suffix
    | none => refuse .unknownHandle context m

/-- A tag that says something. -/
def meaningful (tag : Text) : Option Tag :=
  if tag.isEmpty || tag == "!" then none else some (.ofText tag)

/-! ## Nodes -/

/-- Nothing is written where a node of a block collection could stand. -/
def endsBlockNode (kind : TokenKind) : Bool := kind == .key || kind == .value || kind == .blockEnd

/-- The token behind a dash, which is dropped. -/
def afterDash : Build Token := do
  let n := (← get).lexer.head.length
  skip
  lex (Lex.splitHead n)
  peek

/-- The first token of an item of a flow collection; items after the first follow a comma. -/
def flowItemStart (first : Bool) (stop : TokenKind) (problem : Problem) (context : Mark) :
    Build Token := do
  let t ← peek
  if first || t.kind == stop then return t
  else if t.kind == .flowEntry then
    skip
    peek
  else refuse problem context t.start

mutual

/-- A node.  Block collections are allowed only in blocks, and a sequence as the value of a mapping
need not be indented. -/
def node : Nat → (block indentless : Bool) → Build Node
  | 0, _, _ => refuse .noContent .start .start
  | n + 1, block, indentless => do
    let t ← peek
    let start := t.start
    let line := start.line + 1
    if let .aliasOf name := t.kind then
      skipWithHead
      close
      return ← aliased start name
    let (name?, written) ← properties
    let t ← peek
    let tag ← expand start written
    let tag? := meaningful tag
    let sequence (items : Build (List Node)) : Build Node :=
      let tag := tag?.getD .seq
      collection name? ⟨start.index, tag, false⟩ items (.sequence line tag)
    let mapping (entries : Build (List (Node × Node))) : Build Node :=
      let tag := tag?.getD .map
      collection name? ⟨start.index, tag, true⟩ entries (.mapping line tag)
    if indentless && t.kind == .blockEntry then sequence (indentlessItems n)
    else
      match t.kind with
      | .scalar text style =>
        skipWithHead
        close
        let node := Node.scalar line (tag?.getD (implicitTag style text)) text
        anchor name? (.whole node)
        return node
      | .flowSequenceStart =>
        lex Lex.dropHead
        sequence do
          skip
          flowItems n t.start true
      | .flowMappingStart =>
        lex Lex.dropHead
        mapping do
          skip
          flowEntries n t.start true
      | kind =>
        if block && kind == .blockSequenceStart then
          sequence do
            skip
            blockItems n t.start
        else if block && kind == .blockMappingStart then
          mapping do
            skip
            blockEntries n t.start
        else if name?.isSome || !tag.isEmpty then
          close
          let node := Node.scalar line (tag?.getD .null) []
          anchor name? (.whole node)
          return node
        else refuse .noContent start t.start

/-- The items of a block sequence. -/
def blockItems : Nat → Mark → Build (List Node)
  | 0, context => refuse .noEntry context context
  | n + 1, context => do
    let t ← peek
    match t.kind with
    | .blockEntry =>
      let next ← afterDash
      let item ← if next.kind == .blockEntry || next.kind == .blockEnd then absent t.stop
        else node n true false
      return item :: (← blockItems n context)
    | .blockEnd =>
      skip
      close
      return []
    | _ => refuse .noEntry context t.start

/-- The items of a block sequence that is not indented. -/
def indentlessItems : Nat → Build (List Node)
  | 0 => return []
  | n + 1 => do
    let t ← peek
    if t.kind != .blockEntry then
      close
      return []
    let next ← afterDash
    let item ← if next.kind == .blockEntry || endsBlockNode next.kind then absent t.stop
      else node n true false
    return item :: (← indentlessItems n)

/-- The entries of a block mapping. -/
def blockEntries : Nat → Mark → Build (List (Node × Node))
  | 0, context => refuse .noKey context context
  | n + 1, context => do
    let t ← peek
    match t.kind with
    | .key =>
      skip
      let key ← if endsBlockNode (← peek).kind then absent t.stop else node n true true
      let v ← peek
      let value ←
        if v.kind != .value then absent v.start
        else do
          skip
          if endsBlockNode (← peek).kind then absent v.stop else node n true true
      return (key, value) :: (← blockEntries n context)
    | .blockEnd =>
      skipWithHead
      close
      return []
    | _ => refuse .noKey context t.start

/-- The items of a flow sequence; a key makes an item a mapping with one entry. -/
def flowItems : Nat → Mark → (first : Bool) → Build (List Node)
  | 0, context, _ => refuse .noSequenceComma context context
  | n + 1, context, first => do
    let t ← flowItemStart first .flowSequenceEnd .noSequenceComma context
    if t.kind == .flowSequenceEnd then
      skipWithHead
      close
      return []
    else if t.kind == .key then
      skip
      close
      let k ← peek
      let key ←
        if k.kind == .value || k.kind == .flowEntry || k.kind == .flowSequenceEnd then do
          skip
          absent k.stop
        else node n false false
      let v ← peek
      let value ←
        if v.kind != .value then absent v.start
        else do
          skip
          let next ← peek
          if next.kind == .flowEntry || next.kind == .flowSequenceEnd then absent v.start
          else node n false false
      let _ ← peek
      close
      return .mapping (t.start.line + 1) .map [(key, value)] :: (← flowItems n context false)
    else
      let item ← node n false false
      return item :: (← flowItems n context false)

/-- The entries of a flow mapping; the value may be missing. -/
def flowEntries : Nat → Mark → (first : Bool) → Build (List (Node × Node))
  | 0, context, _ => refuse .noMappingComma context context
  | n + 1, context, first => do
    let t ← flowItemStart first .flowMappingEnd .noMappingComma context
    if t.kind == .flowMappingEnd then
      skipWithHead
      close
      return []
    else if t.kind == .key then
      skip
      let k ← peek
      let key ←
        if k.kind == .value || k.kind == .flowEntry || k.kind == .flowMappingEnd then absent k.start
        else node n false false
      let v ← peek
      let value ←
        if v.kind != .value then absent v.start
        else do
          skip
          let next ← peek
          if next.kind == .flowEntry || next.kind == .flowMappingEnd then absent next.start
          else node n false false
      return (key, value) :: (← flowEntries n context false)
    else
      let key ← node n false false
      let next ← peek
      return (key, ← absent next.start) :: (← flowEntries n context false)

end

/-! ## Documents -/

/-- The handles that every document knows. -/
def standardHandles : List (Text × Text) := [("!", "!"), ("!!", Tag.longForm)]

/-- The directives in front of a document. -/
def directives : Nat → (versionSeen : Bool) → Build Unit
  | 0, _ => return ()
  | n + 1, versionSeen => do
    let t ← peek
    match t.kind with
    | .version major minor =>
      if versionSeen then refuse .repeatedVersion .start t.start
      else if major != 1 || minor != 1 then refuse .wrongVersion .start t.start
      else
        skip
        directives n true
    | .tagHandle handle expansion =>
      let s ← get
      if (s.handles.lookup handle).isSome then refuse .repeatedHandle .start t.start
      else
        set { s with handles := s.handles ++ [(handle, expansion)] }
        skip
        directives n versionSeen
    | _ => return ()

/-- No content is written between a document mark and a token of this kind. -/
def endsDocument : TokenKind → Bool
  | .version .. | .tagHandle .. | .documentStart | .documentEnd | .streamEnd => true
  | _ => false

/-- The root of the first document, if there is one.  Comments in front of it up to the last empty
line belong to the document and not to its root. -/
def document (limit : Nat) : Build (Option Document) := do
  let _ ← peek
  skip
  close
  let t ← peek
  if t.kind == .streamEnd then
    close
    return none
  let explicit := endsDocument t.kind && t.kind != .documentEnd
  if explicit then
    directives limit false
    let t ← peek
    if t.kind != .documentStart then refuse .noDocumentStart .start t.start
    skip
  else lex (modify fun s => { s with head := Lex.afterEmptyLine s.head })
  modify fun s => { s with handles := s.handles ++ standardHandles }
  close
  let t ← peek
  let root ← if explicit && endsDocument t.kind then absent t.start else node limit true false
  let _ ← peek
  close
  let s ← get
  return some ⟨root, ⟨s.looped.length, s.targets⟩⟩

end Build

/-- The first document of a text, none for a text without documents. -/
def read (t : Text) : Except Error (Option Document) :=
  (Build.document (4 * t.length + 16)).run' ⟨.ofText t, [], [], [], []⟩

end TwigLint.Yaml
