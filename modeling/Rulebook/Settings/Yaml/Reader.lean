import Rulebook.Settings.Yaml.Scalar
/-!
Reading settings from YAML: maps and lists by indentation or in brackets, single values, and names by
which a setting is used again. What a reader of a block leaves behind starts with the next content.
-/

set_option autoImplicit false

namespace Rulebook.Yaml

def startsItem : List Char → Bool
  | '-' :: cs => endsWord cs
  | _ => false

def isNameChar (c : Char) : Bool := !(isSpace c || c = '\n' || isFlowMark c)

/-- What may stand before a setting: a name for it, and a tag that says how to take it. -/
structure Properties where
  anchor : Option String
  tag : Option String

def Properties.none : Properties := ⟨Option.none, Option.none⟩

def readProperties (next : Reading Unit) : Nat → Properties → Reading Properties
  | 0, _ => fail
  | fuel + 1, p => do
    match ← rest with
    | '&' :: cs => do
      let name := cs.takeWhile isNameChar
      if name.isEmpty || p.anchor.isSome then fail
      moveTo (cs.dropWhile isNameChar)
      next
      readProperties next fuel { p with anchor := some (String.ofList name) }
    | '!' :: cs => do
      let name := cs.takeWhile isNameChar
      if p.tag.isSome then fail
      moveTo (cs.dropWhile isNameChar)
      next
      readProperties next fuel { p with tag := some (String.ofList ('!' :: name)) }
    | _ => pure p

def remember (p : Properties) (s : Setting) : Reading Setting := do
  match p.anchor with
  | some name => modify fun c => { c with anchors := (name, s) :: c.anchors }
  | none => pure ()
  pure s

def readAlias : Reading Setting := do
  match ← rest with
  | '*' :: cs => do
    let name := String.ofList (cs.takeWhile isNameChar)
    match (← get).anchors.lookup name with
    | some s => do
      moveTo (cs.dropWhile isNameChar)
      pure s
    | none => fail
  | _ => fail

def plainSetting (p : Properties) (cs : List Char) : Reading Setting := fun c => do
  let s := String.ofList cs
  let setting ← match p.tag with
    | some tag => tagged? tag s
    | none => plain? s
  pure (setting, c)

def readScalar (flow : Bool) (indent : Nat) (p : Properties) : Reading Setting := do
  let cs ← rest
  match cs with
  | '"' :: _ | '\'' :: _ =>
    match quoted? cs with
    | some (text, rest) => do
      moveTo rest
      pure (.text (String.ofList text))
    | none => fail
  | cs =>
    if startsPlain flow cs then do
      plainSetting p (← readPlain flow indent (cs.length + 1))
    else fail

/-! ### Collections in brackets -/

def readFlowName : Reading (String × Bool) := do
  let cs ← rest
  match cs with
  | '"' :: _ | '\'' :: _ =>
    match quoted? cs with
    | some (text, rest) => do
      moveTo rest
      pure (String.ofList text, true)
    | none => fail
  | cs =>
    if startsPlain true cs then do
      let word ← readPlain true 0 (cs.length + 1)
      match plainName? (String.ofList word) with
      | some name => pure (name, false)
      | none => fail
    else fail

def readColon ( quoted : Bool) : Reading Bool := do
  match ← rest with
  | ':' :: cs =>
    if quoted || endsWord cs || cs.head?.any isFlowMark then do
      moveTo cs
      toFlowContent
      pure true
    else fail
  | _ => pure false

def addEntry (name : String) (s : Setting) (es : List (String × Setting)) :
    Reading (List (String × Setting)) :=
  if (es.lookup name).isSome then fail else pure (Entries.insert name s es)

def isPair (c : Cursor) : Bool :=
  match (do
    let (_, quoted) ← readFlowName
    toFlowContent
    readColon quoted : Reading Bool) c with
  | some (isPair, _) => isPair
  | none => false

mutual

def readFlow : Nat → Reading Setting
  | 0 => fail
  | fuel + 1 => do
    let p ← readProperties toFlowContent (fuel + 1) .none
    match ← rest with
    | '*' :: _ => readAlias
    | '[' :: cs => do
      moveTo cs
      remember p (.list (← readFlowItems fuel))
    | '{' :: cs => do
      moveTo cs
      remember p (.table (← readFlowEntries fuel []))
    | ',' :: _ | ']' :: _ | '}' :: _ => do remember p (← plainSetting p [])
    | _ => do remember p (← readScalar true 0 p)

def readFlowValue : Nat → Reading Setting
  | 0 => fail
  | fuel + 1 => do
    match ← rest with
    | ',' :: _ | ']' :: _ | '}' :: _ => pure .null
    | _ => readFlow fuel

def readFlowItems : Nat → Reading (List Setting)
  | 0 => fail
  | fuel + 1 => do
    toFlowContent
    match ← rest with
    | ']' :: cs => do
      moveTo cs
      pure []
    | ',' :: _ => fail
    | _ => do
      let item ← if isPair (← get) then do
          let (name, quoted) ← readFlowName
          toFlowContent
          discard (readColon quoted)
          pure (.table [(name, ← readFlowValue fuel)])
        else readFlow fuel
      toFlowContent
      match ← rest with
      | ',' :: cs => do
        moveTo cs
        pure (item :: (← readFlowItems fuel))
      | ']' :: cs => do
        moveTo cs
        pure [item]
      | _ => fail

def readFlowEntries : Nat → List (String × Setting) → Reading (List (String × Setting))
  | 0, _ => fail
  | fuel + 1, es => do
    toFlowContent
    match ← rest with
    | '}' :: cs => do
      moveTo cs
      pure es
    | _ => do
      let (name, quoted) ← readFlowName
      toFlowContent
      let s ← if ← readColon quoted then readFlowValue fuel else pure .null
      let es ← addEntry name s es
      toFlowContent
      match ← rest with
      | ',' :: cs => do
        moveTo cs
        readFlowEntries fuel es
      | '}' :: cs => do
        moveTo cs
        pure es
      | _ => fail

end

/-! ### Collections by indentation -/

def readPropertiesInLine : Reading Properties := do
  let next : Reading Unit := do
    match ← rest with
    | [] => pure ()
    | cs => if endsWord cs then moveTo (cs.dropWhile isSpace) else fail
  readProperties next ((← rest).length + 1) .none

/-- The name of an entry and the rest behind its colon. It stands in one line. -/
def name? (cs : List Char) : Option (String × List Char) := do
  let (name, rest) ← match cs with
    | '"' :: _ | '\'' :: _ => (quoted? cs).map fun (text, rest) => (String.ofList text, rest)
    | cs =>
      if startsPlain false cs then
        let (line, rest) := plainLine false true cs
        (plainName? (String.ofList (trimEnd line))).map (·, rest)
      else none
  match rest.dropWhile isSpace with
  | ':' :: rest =>
    let inLine := !(cs.take (cs.length - rest.length)).contains '\n'
    if endsWord rest && inLine then some (name, rest) else none
  | _ => none

def startsQuestion : List Char → Bool
  | '?' :: cs => endsWord cs
  | _ => false

def isEntry (c : Cursor) : Bool :=
  match readPropertiesInLine c with
  | some (_, c) => startsQuestion c.rest || (name? c.rest).isSome
  | none => false

def readQuestion (column : Nat) : Reading (String × Bool) := do
  discard toContent
  let here ← get
  let name ← match quoted? here.rest with
    | some (text, rest) => do
      moveTo rest
      pure (some (String.ofList text))
    | none =>
      if startsPlain false here.rest then do
        let word ← readPlain false (column + 1) (here.rest.length + 1)
        pure (plainName? (String.ofList word))
      else fail
  endLine
  let here ← get
  match name, here.rest with
  | none, _ => fail
  | some name, ':' :: cs =>
    if here.column = column && endsWord cs then do
      moveTo cs
      pure (name, true)
    else pure (name, false)
  | some name, _ => pure (name, false)

mutual

/-- A setting that starts here. Without `fresh` something of another kind stands before it in its
line, and no map or list by indentation may start. -/
def readNode : Nat → Nat → Bool → Reading Setting
  | 0, _, _ => fail
  | fuel + 1, indent, fresh => do
    let here ← get
    match here.rest with
    | '&' :: _ | '!' :: _ =>
      if fresh && isEntry here then readContent fuel indent fresh .none
      else do
        let p ← readPropertiesInLine
        let crossed ← toContent
        let here ← get
        if crossed && (here.atEnd || here.column < indent) || here.rest.isEmpty then do
          remember p (← plainSetting p [])
        else do remember p (← readContent fuel indent (fresh || crossed) p)
    | _ => readContent fuel indent fresh .none

def readContent : Nat → Nat → Bool → Properties → Reading Setting
  | 0, _, _, _ => fail
  | fuel + 1, indent, fresh, p => do
    let here ← get
    match here.rest with
    | '|' :: _ | '>' :: _ => do
      let text ← readBlock indent
      discard toContent
      pure (.text text)
    | '*' :: _ => do
      let s ← readAlias
      endLine
      pure s
    | '[' :: _ | '{' :: _ => do
      let s ← readFlow (2 * here.rest.length + 2)
      endLine
      pure s
    | cs =>
      if fresh && startsItem cs then do pure (.list (← readItems fuel here.column))
      else if fresh && isEntry here then do
        pure (.table (← readEntries fuel here.column []))
      else do
        let s ← readScalar false indent p
        endLine
        pure s

/-- What stands behind a dash or a colon: in the same line, in lines indented further, or nothing.
The dashes of a list under a name need not be indented further than the name. -/
def readBehind : Nat → Nat → Bool → Reading Setting
  | 0, _, _ => fail
  | fuel + 1, indent, isItem => do
    let crossed ← toContent
    let here ← get
    if here.atEnd then pure .null
    else if !crossed then readNode fuel indent isItem
    else if indent ≤ here.column then readNode fuel indent true
    else if !isItem && here.column + 1 = indent && startsItem here.rest then do
      pure (.list (← readItems fuel here.column))
    else pure .null

def readItems : Nat → Nat → Reading (List Setting)
  | 0, _ => fail
  | fuel + 1, column => do
    expect '-'
    let item ← readBehind fuel (column + 1) true
    let here ← get
    if !here.atEnd && here.column = column && startsItem here.rest then do
      pure (item :: (← readItems fuel column))
    else if here.atEnd || here.column ≤ column then pure [item]
    else fail

def readEntries : Nat → Nat → List (String × Setting) → Reading (List (String × Setting))
  | 0, _, _ => fail
  | fuel + 1, column, es => do
    let p ← readPropertiesInLine
    let cs ← rest
    let (name, hasColon) ← if startsQuestion cs then do
        moveTo (cs.drop 1)
        readQuestion column
      else match name? cs with
        | none => fail
        | some (name, cs) => do
          moveTo cs
          pure (name, true)
    discard (remember p (.text name))
    let s ← if hasColon then readBehind fuel (column + 1) false else pure .null
    let es ← addEntry name s es
    let here ← get
    if here.atEnd || here.column < column then pure es
    else if here.column = column then readEntries fuel column es
    else fail

end

/-! ### Documents -/

def skipDirectives : Nat → Reading Bool
  | 0 => pure false
  | fuel + 1 => do
    discard toContent
    let here ← get
    match here.rest with
    | '%' :: cs =>
      if here.column = 0 then do
        moveTo (cs.dropWhile (· != '\n'))
        discard (skipDirectives fuel)
        pure true
      else pure false
    | _ => pure false

def readDocument : Reading Setting := do
  let fuel := 4 * (← rest).length + 8
  let directed ← skipDirectives fuel
  let here ← get
  if here.rest.isEmpty && !directed then pure (.table [])
  else
    let isMarked := here.atMarker && here.rest.head? = some '-'
    if directed && !isMarked then fail
    if isMarked then moveTo (here.rest.drop 3)
    let crossed ← toContent
    let here ← get
    let s ← if here.atEnd then pure .null else readNode fuel 0 (!isMarked || crossed)
    let here ← get
    if here.atMarker && here.rest.head? = some '.' then do
      moveTo (here.rest.drop 3)
      endLine
    let here ← get
    if here.rest.isEmpty then pure s else fail

def unifyLineEnds : List Char → List Char
  | '\r' :: '\n' :: cs => '\n' :: unifyLineEnds cs
  | '\r' :: cs => '\n' :: unifyLineEnds cs
  | c :: cs => c :: unifyLineEnds cs
  | [] => []

def read? (s : String) : Option Setting :=
  (readDocument (.start (String.ofList (unifyLineEnds s.toList)))).map (·.1)

end Rulebook.Yaml
