/-
Tokens of a YAML text.

What a token is, what messages call it, and how the ones with a name are read: anchors, aliases, tags, directives.
-/
import KeyHold.Yaml.Cursor
import KeyHold.Decimal.Reading

namespace KeyHold.Yaml

/-- an instruction to the reader of a document -/
inductive Directive where
  | version (major : Nat)
  | handle (name stem : String)
  /-- any other is read and passed over -/
  | other
deriving DecidableEq, Repr

inductive TokenKind where
  | streamEnd
  | directive (d : Directive)
  | documentStart
  | documentEnd
  | blockSequenceStart
  | blockMappingStart
  | blockEnd
  | flowSequenceStart
  | flowSequenceEnd
  | flowMappingStart
  | flowMappingEnd
  | blockEntry
  | flowEntry
  | key
  | value
  | reference (name : String)
  | anchor (name : String)
  | tag (handle? : Option String) (suffix : String)
  | scalar (text : String) (plain : Bool)
deriving DecidableEq, Repr

/-- what messages call a token -/
def TokenKind.name : TokenKind → String
  | streamEnd => "<stream end>"
  | directive _ => "<directive>"
  | documentStart => "<document start>"
  | documentEnd => "<document end>"
  | blockSequenceStart => "<block sequence start>"
  | blockMappingStart => "<block mapping start>"
  | blockEnd => "<block end>"
  | flowSequenceStart => "["
  | flowSequenceEnd => "]"
  | flowMappingStart => "\x7b"
  | flowMappingEnd => "\x7d"
  | blockEntry => "-"
  | flowEntry => ","
  | key => "?"
  | value => ":"
  | reference _ => "<alias>"
  | anchor _ => "<anchor>"
  | tag .. => "<tag>"
  | scalar .. => "<scalar>"

structure Token where
  kind : TokenKind
  start : Mark
  stop : Mark
deriving DecidableEq, Repr

open Read

/-- a name after its indicator -/
def nameAfter (kind : String) : Read String := do
  let start ← mark
  skip 1
  let name ← span isNameChar
  let context := "while scanning an " ++ kind
  if name.isEmpty then failsFound context start "alphabetic or numeric character"
  let c ← peek
  if !(endsWord c || "?:,]\x7d%@\x60".toList.contains c) then
    failsFound context start "alphabetic or numeric character"
  return String.ofList name

/-! ## Tags -/

/-- the characters that bytes are the UTF-8 form of -/
def decodeBytes (bs : List Nat) : Option (List Char) :=
  (String.fromUTF8? (ByteArray.mk (bs.map UInt8.ofNat).toArray)).map String.toList

/-- bytes given as two hexadecimal digits each after a percent sign -/
def tagBytes (context : String) (start : Mark) : Nat → Read (List Nat)
  | 0 => return []
  | fuel + 1 => do
    if (← peek) != '%' then return []
    skip 1
    let c ← get
    match [c.peekAt 0, c.peekAt 1].find? (!isHexDigit ·) with
    | some d =>
      fails context start ("expected URI escape sequence of 2 hexadecimal numbers, but found " ++ quotedChar d)
    | none =>
      skip 2
      return hexValue (c.rest.take 2) :: (← tagBytes context start fuel)

/-- the parts of a tag's text: characters as they stand and characters given by their bytes -/
def tagParts (context : String) (start : Mark) : Nat → Read (List Char)
  | 0 => return []
  | fuel + 1 => do
    let run ← span fun c => isTagChar c && c != '%'
    if (← peek) != '%' then return run
    let here ← mark
    match decodeBytes (← tagBytes context start fuel) with
    | some cs => return run ++ cs ++ (← tagParts context start fuel)
    | none => fun _ => fail context start "invalid bytes in a URI escape sequence" here

/-- the text of a tag; `kind` says of what -/
def tagText (kind : String) (start : Mark) : Read String := do
  let c ← get
  if !isTagChar c.peek then failsFound ("while parsing a " ++ kind) start "URI"
  return String.ofList (← tagParts ("while scanning a " ++ kind) start c.fuel)

/-- a handle: one exclamation mark, or a name between two -/
def tagHandle (kind : String) (start : Mark) : Read String := do
  let context := "while scanning a " ++ kind
  if (← peek) != '!' then failsFound context start "'!'"
  skip 1
  if (← peek) == ' ' then return "!"
  let name ← span isNameChar
  if (← peek) != '!' then failsFound context start "'!'"
  skip 1
  return "!" ++ String.ofList name ++ "!"

/-- whether the word of a tag has a second exclamation mark -/
def hasHandle (c : Cursor) : Bool := ((c.rest.drop 1).takeWhile (!endsField ·)).contains '!'

/-- a tag in full between angle brackets, or a handle and what comes after it -/
def tagToken : Read TokenKind := do
  let start ← mark
  let c ← peekAt 1
  let kind ←
    if c == '<' then do
      skip 2
      let text ← tagText "tag" start
      if (← peek) != '>' then failsFound "while parsing a tag" start "'>'"
      skip 1
      pure (TokenKind.tag none text)
    else if endsWord c then do
      skip 1
      pure (TokenKind.tag none "!")
    else do
      let handle ← if hasHandle (← get) then tagHandle "tag" start else do
        skip 1
        pure "!"
      pure (TokenKind.tag (some handle) (← tagText "tag" start))
  if !endsField (← peek) then failsFound "while scanning a tag" start "' '"
  return kind

/-! ## Directives -/

def inDirective : String := "while scanning a directive"

def directiveNumber (start : Mark) : Read Nat := do
  let digits ← span Char.isDigit
  if digits.isEmpty then failsFound inDirective start "a digit"
  return Decimal.natOfDigits digits

def directiveName (start : Mark) : Read String := do
  let name ← span isNameChar
  if name.isEmpty || !endsField (← peek) then failsFound inDirective start "alphabetic or numeric character"
  return String.ofList name

/-- a directive and the line it stands on -/
def directiveToken : Read (Directive × Mark) := do
  let start ← mark
  skip 1
  let name ← directiveName start
  let directive ← match name with
    | "YAML" => do
      let _ ← span (· == ' ')
      let major ← directiveNumber start
      if (← peek) != '.' then failsFound inDirective start "a digit or '.'"
      skip 1
      let _ ← directiveNumber start
      if !endsField (← peek) then failsFound inDirective start "a digit or ' '"
      pure (Directive.version major)
    | "TAG" => do
      let _ ← span (· == ' ')
      let handle ← tagHandle "directive" start
      if (← peek) != ' ' then failsFound inDirective start "' '"
      let _ ← span (· == ' ')
      let stem ← tagText "directive" start
      if !endsField (← peek) then failsFound inDirective start "' '"
      pure (Directive.handle handle stem)
    | _ => pure Directive.other
  let stop ← mark
  if directive == .other then
    let _ ← span (!endsLine ·)
  restOfLine inDirective start
  return (directive, stop)

end KeyHold.Yaml
