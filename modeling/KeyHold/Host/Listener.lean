/-
The toggle keys.

A listener watches the keyboard and turns presses of toggle keys into events. A key that repeats while it is held
gives no second event: a press counts only if the key's last callback was not a press. Keys are known by their
lower-case names. A table may name keys by bytes too: no key has such a name, and names of bytes cannot be listed.
-/
import KeyHold.Journal
import KeyHold.Text.Case
import KeyHold.Value.Listing

namespace KeyHold

/-- a key as the keyboard reports it: what it types, if it types, and its description -/
structure KeyReport where
  char : Option String
  text : String
deriving DecidableEq, Repr

/-- a description without the word for the class of special keys -/
def dropKeyWord : List Char → List Char
  | 'K' :: 'e' :: 'y' :: '.' :: rest => dropKeyWord rest
  | c :: rest => c :: dropKeyWord rest
  | [] => []

/-- the lower-case name of a key: what it types, else its description -/
def KeyReport.name (k : KeyReport) : String :=
  match k.char with
  | some c => if c = "" then special else Text.lower c
  | none => special
where
  special : String := Text.lower (String.ofList (dropKeyWord k.text.toList))

/-- a toggle key went down -/
structure ToggleEvent where
  mode : Value
  key : String

/-- what is done to the keyboard hook -/
inductive HookCall where
  | started
  | stopped
deriving DecidableEq, Repr

structure Listener where
  /-- the mode of each toggle key that a key can be -/
  toggles : List (String × Value) := []
  /-- all toggle keys as they are listed, if they can be -/
  listing : Except Fault String := .ok ""
  /-- events not yet taken, the oldest first -/
  events : List ToggleEvent := []
  /-- the toggle keys that are down -/
  down : List String := []
  listening : Bool := false
  hook : Array HookCall := #[]
deriving Inhabited

namespace Listener

/-- a byte with its letter, if it is one, in lower case -/
def lowerByte (b : UInt8) : UInt8 := if 65 ≤ b && b ≤ 90 then b + 32 else b

/-- a toggle key as a listener knows it; only texts and bytes have a lower case -/
def lowerKey : Value → Except Fault Value
  | .str s => .ok (.str (Text.lower s))
  | .bytes bs => .ok (.bytes (bs.map lowerByte))
  | v => .error (.lacksMember v.longKind "lower")

/-- a table of keys and modes by lower-case keys; of two with one lower case the later takes the place of the earlier -/
def lowered (table : List (Value × Value)) : Except Fault (List (Value × Value)) :=
  table.foldlM (fun entries (key, mode) => (lowerKey key).map fun k => Value.insert k mode entries) []

/-- the entries whose key is a text -/
def texts (entries : List (Value × Value)) : List (String × Value) :=
  entries.filterMap fun (key, mode) =>
    match key with
    | .str s => some (s, mode)
    | _ => none

/-- a listener for a table of keys and modes -/
def ofTable (table : List (Value × Value)) : Except Fault Listener :=
  (lowered table).map fun entries => { toggles := texts entries, listing := Value.listed (entries.map (·.1)) }

/-- the mode of a key name, if it is a toggle key -/
def mode? (l : Listener) (name : String) : Option Value := (l.toggles.find? (·.1 == name)).map (·.2)

def note (level : Level) (text : String) : Entry := ⟨level, .listener, text⟩

/-- a press, and the entry it is worth -/
def press (key : KeyReport) (l : Listener) : Listener × List Entry :=
  let name := key.name
  match l.mode? name with
  | none | some .null => (l, [])
  | some mode =>
    if l.down.contains name then (l, [])
    else ({ l with down := l.down ++ [name], events := l.events ++ [⟨mode, name⟩] },
      [note .debug ("Toggle key down: " ++ name ++ " -> " ++ mode.plain)])

def release (key : KeyReport) (l : Listener) : Listener := { l with down := l.down.erase key.name }

/-- takes the oldest event -/
def poll (l : Listener) : Option ToggleEvent × Listener :=
  match l.events with
  | [] => (none, l)
  | e :: rest => (some e, { l with events := rest })

/-- begins to listen; the entry is there only if the toggle keys can be listed -/
def start (l : Listener) : Listener × List Entry :=
  ({ l with listening := true, hook := l.hook.push .started },
    match l.listing with
    | .ok names => [note .info ("Listening for toggle keys: " ++ names)]
    | .error _ => [])

/-- stops listening, if it does -/
def stop (l : Listener) : Listener × List Entry :=
  if l.listening then
    ({ l with listening := false, hook := l.hook.push .stopped }, [note .info "Toggle listener stopped"])
  else (l, [])

end Listener
end KeyHold
