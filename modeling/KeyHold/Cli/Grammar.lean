/-
Reading the arguments of a command.

A command has options, which may stand anywhere, and a slot for what is no option: nothing, one argument, or the name
of a further command that reads the rest by a grammar of its own. An option may be shortened as long as only one
begins that way; its argument follows it or is attached to it. Two dashes end the options.

- `Grammar.parse`: what the arguments say, and those that nobody asked for, in order.
-/
import KeyHold.Fault
import KeyHold.Text.Blank

namespace KeyHold.Cli

/-- why reading stops early -/
inductive Stop where
  | help (text : String)
  /-- the arguments are not acceptable to a program with a usage -/
  | refused (program usage problem : String)

inductive Effect (α : Type) where
  | help
  | set (change : α → α)
  /-- takes an argument, or says why not -/
  | take (change : String → Except String (α → α))

structure Opt (α : Type) where
  /-- every name begins with one dash or with two -/
  names : List String
  effect : Effect α

/-- what messages call an option -/
def Opt.title {α : Type} (o : Opt α) : String := Text.joined "/" o.names

/-- the place for arguments that are no options; a command gives a change and the arguments it did not ask for -/
inductive Slot (α : Type) where
  | nothing
  | one (name : String) (change : String → α → α)
  | command (name : String) (choices : List (String × (List String → Except Stop ((α → α) × List String))))

structure Grammar (α : Type) where
  program : String
  usage : String
  help : String
  options : List (Opt α)
  slot : Slot α

/-- an option as it was given: the name meant, the option, and what is attached, with an equals sign or without -/
structure Given (α : Type) where
  name : String
  opt : Opt α
  attached? : Option String := none
  equals : Bool := false

/-- what an argument is by its form -/
inductive Word (α : Type) where
  | separator
  | plain
  /-- it looks like an option, and is one of these if it is known -/
  | option (given? : Option (Given α))

namespace Word

def isOption {α : Type} : Word α → Bool
  | option _ => true
  | _ => false

def isSeparator {α : Type} : Word α → Bool
  | separator => true
  | _ => false

end Word

/-- digits after a dash, with a point before the last of them or none -/
def isNegativeNumber (cs : List Char) : Bool :=
  let isDigit (c : Char) : Bool := (Text.digitValue? c).isSome
  match cs with
  | '-' :: rest =>
    match rest.dropWhile isDigit with
    | [] => !rest.isEmpty
    | '.' :: places => !places.isEmpty && places.all isDigit
    | _ => false
  | _ => false

/-- a text up to the first equals sign, and what comes after it -/
def cutAtEquals (cs : List Char) : String × Option String :=
  (String.ofList (cs.takeWhile (· != '=')),
    match cs.dropWhile (· != '=') with
    | [] => none
    | _ :: rest => some (String.ofList rest))

namespace Grammar

variable {α : Type} (g : Grammar α)

def refuse {β : Type} (problem : String) : Except Stop β := .error (.refused g.program g.usage problem)

/-- a problem with the argument of an option -/
def refuseFor {β : Type} (o : Opt α) (problem : String) : Except Stop β :=
  g.refuse ("argument " ++ o.title ++ ": " ++ problem)

/-- every name with its option -/
def named : List (String × Opt α) := g.options.flatMap fun o => o.names.map fun n => (n, o)

/-- the options that a shortened name, or a letter with something attached, may mean -/
def meant (arg : String) : List (Given α) :=
  match arg.toList with
  | '-' :: '-' :: _ =>
    let (start, attached?) := cutAtEquals arg.toList
    (g.named.filter fun e => e.1.startsWith start).map fun e => ⟨e.1, e.2, attached?, attached?.isSome⟩
  | cs =>
    (g.named.filter fun e => e.1 == String.ofList (cs.take 2)).map fun e =>
      ⟨e.1, e.2, some (String.ofList (cs.drop 2)), false⟩

/-- what an argument before the separator is -/
def classify (arg : String) : Except Stop (Word α) :=
  let cs := arg.toList
  if cs.head? != some '-' then .ok .plain
  else
    match g.named.lookup arg with
    | some o => .ok (.option (some { name := arg, opt := o }))
    | none =>
      if cs.length == 1 then .ok .plain
      else
        let (name, attached?) := cutAtEquals cs
        match attached?, g.named.lookup name with
        | some a, some o => .ok (.option (some ⟨name, o, some a, true⟩))
        | _, _ =>
          match g.meant arg with
          | [given] => .ok (.option (some given))
          | [] => .ok (if isNegativeNumber cs || cs.contains ' ' then .plain else .option none)
          | several =>
            g.refuse ("ambiguous option: " ++ arg ++ " could match "
              ++ Text.joined ", " (several.map fun given => given.name))

abbrev Words (α : Type) := List (String × Word α)

/-- the arguments with what they are; after the separator all are plain -/
def words : List String → Except Stop (Words α)
  | [] => .ok []
  | arg :: args =>
    if arg == "--" then .ok ((arg, .separator) :: args.map fun a => (a, .plain))
    else do
      let w ← g.classify arg
      return (arg, w) :: (← words args)

/-- what has been read so far -/
structure State (α : Type) where
  value : α
  /-- the slot has been filled -/
  filled : Bool := false
  /-- arguments that nobody asked for -/
  extras : List String := []

/-- fills the slot if it is free and an argument for it comes next -/
def fill (s : State α) (ws : Words α) : Except Stop (State α × Words α) :=
  match s.filled, g.slot, ws.dropWhile fun w => w.2.isSeparator with
  | false, .one _ change, (arg, .plain) :: rest =>
    .ok ({ s with value := change arg s.value, filled := true }, rest.dropWhile fun w => w.2.isSeparator)
  | false, .command name choices, (_, .plain) :: _ =>
    match ws.map (·.1) with
    | [] => .ok (s, ws)
    | choice :: args =>
      match choices.lookup choice with
      | some read => do
        let (change, extras) ← read args
        return ({ value := change s.value, filled := true, extras := s.extras ++ extras }, [])
      | none =>
        g.refuse ("argument " ++ name ++ ": invalid choice: " ++ Text.quoted choice ++ " (choose from "
          ++ Text.joined ", " (choices.map fun e => Text.quoted e.1) ++ ")")
  | _, _, _ => .ok (s, ws)

/-- what one argument gives: options, each with its own argument, and what nobody asked for -/
structure Unfolded (α : Type) where
  found : List (Opt α × Option String) := []
  extras : List String := []
  rest : Words α

/-- a letter after others on one dash, and what is attached to it -/
def nextLetter? (c : Char) (more : List Char) : Option (Given α) :=
  let name := String.ofList ['-', c]
  (g.named.lookup name).map fun o =>
    match more with
    | [] => { name, opt := o }
    | '=' :: more => ⟨name, o, some (String.ofList more), true⟩
    | more => ⟨name, o, some (String.ofList more), false⟩

/-- letters may share a dash; a letter that takes an argument takes what is attached to it, or the next one -/
def unfold (rest : Words α) : Nat → Given α → Except Stop (Unfolded α)
  | 0, _ => .ok { rest }
  | fuel + 1, ⟨name, o, attached?, equals⟩ =>
    match o.effect, attached? with
    | .take _, some a => .ok { found := [(o, some a)], rest }
    | .take _, none =>
      match rest with
      | (arg, .plain) :: rest => .ok { found := [(o, some arg)], rest }
      | _ => g.refuseFor o "expected one argument"
    | _, none => .ok { found := [(o, none)], rest }
    | _, some a =>
      match a.toList with
      | c :: more =>
        if equals || c == '-' || name.startsWith "--" then
          g.refuseFor o ("ignored explicit argument " ++ Text.quoted a)
        else
          match g.nextLetter? c more with
          | none => .ok { found := [(o, none)], extras := ["-" ++ a], rest }
          | some next => do
            let u ← unfold rest fuel next
            return { u with found := (o, none) :: u.found }
      | [] => g.refuseFor o ("ignored explicit argument " ++ Text.quoted a)

/-- one option takes effect -/
def apply (s : State α) (o : Opt α) (arg? : Option String) : Except Stop (State α) :=
  match o.effect, arg? with
  | .help, _ => .error (.help g.help)
  | .set change, _ => .ok { s with value := change s.value }
  | .take change, some arg =>
    match change arg with
    | .ok change => .ok { s with value := change s.value }
    | .error problem => g.refuseFor o problem
  | .take _, none => .ok s

/-- options and slots in the order in which they come -/
def read : Nat → State α → Words α → Except Stop (State α)
  | 0, s, _ => .ok s
  | fuel + 1, s, ws => do
    let before : Words α := ws.takeWhile fun w => !w.2.isOption
    match ws.drop before.length with
    | [] =>
      let (s, rest) ← g.fill s ws
      return { s with extras := s.extras ++ rest.map (·.1) }
    | (arg, word) :: rest =>
      let filled : Except Stop (State α × Words α) := if before.isEmpty then .ok (s, ws) else g.fill s ws
      let (s, left) ← filled
      if left.length < ws.length then read fuel s left
      else
        let s := { s with extras := s.extras ++ before.map Prod.fst }
        match word with
        | .option (some given) =>
          let u ← g.unfold rest (arg.length + 1) given
          let s := { s with extras := s.extras ++ u.extras }
          read fuel (← u.found.foldlM (fun s (o, arg?) => g.apply s o arg?) s) u.rest
        | _ => read fuel { s with extras := s.extras ++ [arg] } rest

/-- what the arguments make of a value, and those that nobody asked for -/
def parse (start : α) (args : List String) : Except Stop (α × List String) := do
  let ws ← g.words args
  let s ← g.read (ws.length + 1) { value := start } ws
  match g.slot, s.filled with
  | .one name _, false => g.refuse ("the following arguments are required: " ++ name)
  | _, _ => return (s.value, s.extras)

/-- the same, where nothing may be left over -/
def parseAll (start : α) (args : List String) : Except Stop α := do
  match ← g.parse start args with
  | (value, []) => return value
  | (_, extras) => g.refuse ("unrecognized arguments: " ++ Text.joined " " extras)

end Grammar
end KeyHold.Cli
