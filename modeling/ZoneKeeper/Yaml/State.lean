/-
What has been read of a document.

Reading is a stack machine over tokens.  The stack holds the collections that are still
open, each as a frame with a hole for the node that comes next.  The top of the machine is
that node: its properties, and what is known of its content.

Whether a node is a key shows only at the colon behind it.  So a node remembers where it
began if it may be a key, which is where a block collection may begin or where a member of
a flow collection does.  A colon on the same line and within 1024 bytes makes it a key; in
a block, the mapping whose first key it is begins with it.

Indentation says where block collections end.  A token that begins a line closes all that
are indented by more than it, and it does not belong to the node that is awaited if it is
not indented by more than the collection around that node.  There are two exceptions: a
sequence may stand at the column of the mapping around it, and a block scalar at the column
of any collection.
-/
import ZoneKeeper.Yaml.Token

namespace ZoneKeeper.Yaml

/-! ### The node that is being read -/

/-- What is said about a node in front of it. -/
structure Properties where
  /-- The number of its anchor. -/
  anchor : Option Nat
  tag : Option String
deriving DecidableEq, Repr

/-- A node without properties. -/
def Properties.none : Properties := ⟨.none, .none⟩

/-- Two lists of properties as one, unless they say the same kind of thing twice. -/
def Properties.merge? (above own : Properties) : Option Properties :=
  if (above.anchor.isSome && own.anchor.isSome) || (above.tag.isSome && own.tag.isSome) then .none
  else some ⟨above.anchor.or own.anchor, above.tag.or own.tag⟩

/-- How a node has begun. -/
structure Opening where
  /-- The properties on earlier lines.  They belong to the mapping if the node is a key. -/
  above : Properties
  own : Properties
  /-- The place where the node begins, if it may be a key. -/
  keyPlace : Option Position
deriving DecidableEq, Repr

/-- A node of which nothing has been read. -/
def Opening.none : Opening := ⟨.none, .none, .none⟩

/-- A colon at a place makes the node a key. -/
def Opening.admitsKey (opening : Opening) (colon : Position) : Bool :=
  opening.keyPlace.any fun start =>
    start.line == colon.line && colon.offset ≤ start.offset + 1024

/-- What a node holds, its properties apart. -/
inductive Content
  | nothing
  | scalar (style : Style) (text : String)
  | collection (node : Yaml)
  /-- A node that has been read before.  It takes no properties. -/
  | reference (node : Yaml)

/-- The node with these properties.  A tag that is a mere mark says nothing about a scalar
that is written. -/
def Content.node? (properties : Properties) : Content → Option Yaml
  | .nothing => some (.scalar .plain properties.tag "")
  | .scalar style text => some (.scalar style (properties.tag.filter (· ≠ "!")) text)
  | .collection node => some node
  | .reference node => if properties = .none then some node else none

/-! ### The collections that are open -/

/-- A collection with a hole for a node.  The nodes before it are kept last first. -/
inductive Frame
  /-- The next item of a block sequence whose marks are in a column. -/
  | item (column : Nat) (items : List Yaml) (properties : Properties)
  /-- A key of a block mapping, with a mark or without. -/
  | key (column : Nat) (members : List (Yaml × Yaml)) (isMarked : Bool) (properties : Properties)
  /-- The value of a key of a block mapping. -/
  | value (column : Nat) (members : List (Yaml × Yaml)) (key : Yaml) (properties : Properties)
  /-- An item between brackets. -/
  | flowItem (items : List Yaml) (opening : Opening)
  /-- A key between braces, with a mark or without. -/
  | flowKey (members : List (Yaml × Yaml)) (isMarked : Bool) (opening : Opening)
  /-- A value between braces. -/
  | flowValue (members : List (Yaml × Yaml)) (key : Yaml) (opening : Opening)
  /-- A marked key between brackets, where a mapping of one member may be an item. -/
  | pairKey (items : List Yaml) (opening : Opening)
  /-- The value of a key between brackets. -/
  | pairValue (items : List Yaml) (key : Yaml) (opening : Opening)

/-- The innermost collection is one of brackets or braces. -/
def inFlow : List Frame → Bool
  | [] | .item .. :: _ | .key .. :: _ | .value .. :: _ => false
  | _ => true

/-- The least column inside the innermost block collection. -/
def minColumn : List Frame → Nat
  | [] => 0
  | .item column .. :: _ | .key column .. :: _ | .value column .. :: _ => column + 1
  | _ :: outer => minColumn outer

/-- A node read so far, and the collections around it. -/
structure State where
  handles : Handles
  /-- The anchors by their numbers.  An anchor has no node before its node is complete. -/
  anchors : Array (String × Option Yaml)
  outer : List Frame
  opening : Opening
  /-- What is known of the node in the hole of the innermost collection. -/
  content : Option Content

/-- A token with the place where it stands. -/
structure Lexeme where
  token : Token
  place : Position
  startsLine : Bool

namespace State

/-- Before the first node of a document. -/
def start (handles : Handles) : State :=
  ⟨handles, #[], [], .none, none⟩

/-- Where a scalar stands that comes next. -/
def context (s : State) : Context :=
  ⟨inFlow s.outer, minColumn s.outer⟩

/-- The state that waits for the node in the innermost hole. -/
def await (s : State) (outer : List Frame) : State :=
  { s with outer, opening := .none, content := none }

/-- The state with the node of an anchor. -/
def define (s : State) (properties : Properties) (node : Yaml) : State :=
  match properties.anchor with
  | some number =>
    { s with anchors := s.anchors.modify number fun (name, _) => (name, some node) }
  | none => s

/-- The node in the hole, with nothing more to come. -/
def settle? (s : State) : Option (State × Yaml) := do
  let properties ← s.opening.above.merge? s.opening.own
  let node ← (s.content.getD .nothing).node? properties
  return (s.define properties node, node)

/-- The state once a flow collection is closed. -/
def close (s : State) (node : Yaml) (opening : Opening) (outer : List Frame) : State :=
  { s with outer, opening, content := some (.collection node) }

/-- The node of the anchor that was given a name last.  A node that is not complete is a
collection around the reference. -/
def refer? (s : State) (name : String) : Option Yaml :=
  (s.anchors.toList.reverse.lookup name).map fun node => node.getD .cycle

/-! ### Beginning a node -/

/-- A token that begins or continues a node may begin a key. -/
def mayBeginKey (s : State) (lexeme : Lexeme) : Bool :=
  match s.outer with
  | .flowItem .. :: _ | .flowKey _ false _ :: _ => s.opening = .none
  | outer => !inFlow outer && lexeme.startsLine

/-- The state at a token that begins or continues a node. -/
def begin? (s : State) (lexeme : Lexeme) : Option State :=
  if s.mayBeginKey lexeme then do
    let above ← s.opening.above.merge? s.opening.own
    return { s with opening := ⟨above, .none, some lexeme.place⟩ }
  else some s

/-- The state with one more property of the node. -/
def addProperty? (s : State) (lexeme : Lexeme) (property : Properties) : Option State := do
  let s ← s.begin? lexeme
  let own ← s.opening.own.merge? property
  return { s with opening := { s.opening with own } }

/-- The state after a token that stands where a node is awaited and belongs to it. -/
def enter? (s : State) (lexeme : Lexeme) : Option State :=
  match lexeme.token with
  | .anchor name =>
    { s with anchors := s.anchors.push (name, none) }.addProperty? lexeme
      ⟨some s.anchors.size, none⟩
  | .tag mark => do
    let tag ← mark.tag? s.handles
    s.addProperty? lexeme ⟨none, some tag⟩
  | .reference name => do
    let node ← s.refer? name
    let s ← s.begin? lexeme
    return { s with content := some (.reference node) }
  | .scalar style text =>
    if style = .literal ∨ style = .folded then
      some { s with
        opening := { s.opening with keyPlace := none }, content := some (.scalar style text) }
    else do
      let s ← s.begin? lexeme
      return { s with content := some (.scalar style text) }
  | .openSequence => do
    let s ← s.begin? lexeme
    return s.await (.flowItem [] s.opening :: s.outer)
  | .openMapping => do
    let s ← s.begin? lexeme
    return s.await (.flowKey [] false s.opening :: s.outer)
  | .dash =>
    if !inFlow s.outer && lexeme.startsLine then do
      let properties ← s.opening.above.merge? s.opening.own
      return s.await (.item lexeme.place.column [] properties :: s.outer)
    else none
  | .questionMark =>
    match s.outer with
    | .flowItem items opening :: outer =>
      if s.opening = .none then some (s.await (.pairKey items opening :: outer)) else none
    | .flowKey members false opening :: outer =>
      if s.opening = .none then some (s.await (.flowKey members true opening :: outer)) else none
    | outer =>
      if !inFlow outer && lexeme.startsLine then do
        let properties ← s.opening.above.merge? s.opening.own
        return s.await (.key lexeme.place.column [] true properties :: outer)
      else none
  | _ => none

/-! ### After a node -/

/-- The state once a colon has made a key of the node that it follows. -/
def takeKey? (s : State) : Option State :=
  match s.outer with
  | .key column members false properties :: outer => do
    let (s, node) ← s.settle?
    return s.await (.value column members node properties :: outer)
  | .flowItem items opening :: outer => do
    let (s, node) ← s.settle?
    return s.await (.pairValue items node opening :: outer)
  | .flowKey members _ opening :: outer => do
    let (s, node) ← s.settle?
    return s.await (.flowValue members node opening :: outer)
  | outer => do
    let start ← s.opening.keyPlace
    let node ← (s.content.getD .nothing).node? s.opening.own
    return (s.define s.opening.own node).await
      (.value start.column [] node s.opening.above :: outer)

/-- The state once a token has followed a complete node inside brackets or braces. -/
def afterFlow? (s : State) (node : Yaml) (token : Token) : Option State :=
  let pair (key value : Yaml) : Yaml := .mapping [(key, value)]
  match s.outer, token with
  | .flowItem items opening :: outer, .comma =>
    some (s.await (.flowItem (node :: items) opening :: outer))
  | .flowItem items opening :: outer, .closeSequence =>
    some (s.close (.sequence (node :: items).reverse) opening outer)
  | .pairKey items opening :: outer, .colon =>
    some (s.await (.pairValue items node opening :: outer))
  | .pairKey items opening :: outer, .comma =>
    some (s.await (.flowItem (pair node nothing :: items) opening :: outer))
  | .pairKey items opening :: outer, .closeSequence =>
    some (s.close (.sequence (pair node nothing :: items).reverse) opening outer)
  | .pairValue items key opening :: outer, .comma =>
    some (s.await (.flowItem (pair key node :: items) opening :: outer))
  | .pairValue items key opening :: outer, .closeSequence =>
    some (s.close (.sequence (pair key node :: items).reverse) opening outer)
  | .flowKey members true opening :: outer, .colon =>
    some (s.await (.flowValue members node opening :: outer))
  | .flowKey members _ opening :: outer, .comma =>
    some (s.await (.flowKey ((node, nothing) :: members) false opening :: outer))
  | .flowKey members _ opening :: outer, .closeMapping =>
    some (s.close (.mapping ((node, nothing) :: members).reverse) opening outer)
  | .flowValue members key opening :: outer, .comma =>
    some (s.await (.flowKey ((key, node) :: members) false opening :: outer))
  | .flowValue members key opening :: outer, .closeMapping =>
    some (s.close (.mapping ((key, node) :: members).reverse) opening outer)
  | _, _ => none

/-- The state once a token has followed a complete member at the column of its mapping. -/
def nextMember? (s : State) (lexeme : Lexeme) (members : List (Yaml × Yaml))
    (properties : Properties) (outer : List Frame) : Option State :=
  let column := lexeme.place.column
  match lexeme.token with
  | .questionMark => some (s.await (.key column members true properties :: outer))
  | .dash | .scalar .literal _ | .scalar .folded _ => none
  | _ => (s.await (.key column members false properties :: outer)).enter? lexeme

/-- The state once a token has followed a complete node at the beginning of a line. -/
def afterBlock? (lexeme : Lexeme) (s : State) (node : Yaml) : List Frame → Option State
  | .item own items properties :: outer =>
    if lexeme.token = .dash ∧ lexeme.place.column = own then
      some (s.await (.item own (node :: items) properties :: outer))
    else if own < lexeme.place.column then none
    else
      let sequence := .sequence (node :: items).reverse
      (s.define properties sequence).afterBlock? lexeme sequence outer
  | .key own members true properties :: outer =>
    if lexeme.token = .colon ∧ lexeme.place.column = own then
      some (s.await (.value own members node properties :: outer))
    else
      let members := (node, nothing) :: members
      if lexeme.place.column = own then s.nextMember? lexeme members properties outer
      else if own < lexeme.place.column then none
      else
        let mapping := .mapping members.reverse
        (s.define properties mapping).afterBlock? lexeme mapping outer
  | .value own members key properties :: outer =>
    let members := (key, node) :: members
    if lexeme.place.column = own then s.nextMember? lexeme members properties outer
    else if own < lexeme.place.column then none
    else
      let mapping := .mapping members.reverse
      (s.define properties mapping).afterBlock? lexeme mapping outer
  | _ => none

/-! ### One token after another -/

/-- The token at a column does not belong to the node that is awaited, so that nothing is
written in its place. -/
def leavesNothing (column : Nat) (token : Token) : List Frame → Bool
  | .item own .. :: _ =>
    match token with
    | .scalar .literal _ | .scalar .folded _ => column < own
    | _ => column ≤ own
  | .value own .. :: _ | .key own _ true _ :: _ =>
    match token with
    | .dash | .scalar .literal _ | .scalar .folded _ => column < own
    | _ => column ≤ own
  | _ => false

/-- The state after a token where brackets or braces wait for a node.  A mark with nothing
behind it stands for an empty key. -/
def expectFlow? (s : State) (lexeme : Lexeme) : Option State :=
  match lexeme.token with
  | .comma | .colon | .closeSequence | .closeMapping =>
    if s.opening = .none then
      match s.outer, lexeme.token with
      | .flowItem items opening :: outer, .closeSequence =>
        some (s.close (.sequence items.reverse) opening outer)
      | .flowKey members false opening :: outer, .closeMapping =>
        some (s.close (.mapping members.reverse) opening outer)
      | .flowItem .. :: _, _ | .flowKey _ false _ :: _, _ => none
      | .pairKey .. :: _, .colon | .pairKey .. :: _, .comma =>
        some { s with content := some .nothing }
      | .pairKey .. :: _, _ => none
      | _, token => s.afterFlow? nothing token
    else do
      let (s, node) ← s.settle?
      s.afterFlow? node lexeme.token
  | _ => s.enter? lexeme

/-- The state after a token where a block waits for a node.  A key without a mark does not
go on in another line. -/
def expectBlock? (s : State) (lexeme : Lexeme) : Option State :=
  match s.outer with
  | .key _ _ false _ :: _ => if lexeme.startsLine then none else s.enter? lexeme
  | _ =>
    if lexeme.startsLine && leavesNothing lexeme.place.column lexeme.token s.outer then do
      let (s, node) ← s.settle?
      s.afterBlock? lexeme node s.outer
    else s.enter? lexeme

/-- The state after a token where a node is complete. -/
def follow? (s : State) (lexeme : Lexeme) : Option State :=
  match s.outer with
  | .key _ _ false _ :: _ => none
  | outer => do
    let (s, node) ← s.settle?
    if inFlow outer then s.afterFlow? node lexeme.token
    else if lexeme.startsLine then s.afterBlock? lexeme node outer
    else none

/-- The state after one more token, unless the token cannot stand there. -/
def step? (s : State) (lexeme : Lexeme) : Option State :=
  if lexeme.token = .colon ∧ s.opening.admitsKey lexeme.place then s.takeKey?
  else if s.content.isSome then s.follow? lexeme
  else if inFlow s.outer then s.expectFlow? lexeme
  else s.expectBlock? lexeme

/-- The node that is complete when nothing follows any more. -/
def closeAll? (node : Yaml) : List Frame → Option Yaml
  | [] => some node
  | .item _ items _ :: outer => closeAll? (.sequence (node :: items).reverse) outer
  | .key _ members true _ :: outer =>
    closeAll? (.mapping ((node, nothing) :: members).reverse) outer
  | .value _ members key _ :: outer =>
    closeAll? (.mapping ((key, node) :: members).reverse) outer
  | _ => none

/-- The document that has been read, once only block collections are open. -/
def result? (s : State) : Option Yaml := do
  let (s, node) ← s.settle?
  closeAll? node s.outer

end State
end ZoneKeeper.Yaml
