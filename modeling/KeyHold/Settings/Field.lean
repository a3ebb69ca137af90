/-
Sections of settings.

A section is described by its fields: each has a name, the name of the kind of value it takes, a reader that sets it
and a getter that writes it. `read` builds a section from a mapping, rejecting keys it does not know; `write` gives
the mapping back, every field in its order.
-/
import KeyHold.Settings.Basic
import KeyHold.Value.Listing

namespace KeyHold

/-- a field of a section of type `α` -/
structure Field (α : Type) where
  name : String
  kind : String
  /-- the change that a value makes, none if it is of another kind -/
  set? : Value → Option (Except Fault (α → α))
  get : α → Value

namespace Field

variable {α : Type}

def int (name : String) (get : α → Int) (set : Int → α → α) : Field α where
  name
  kind := "int"
  set? v := match v with
    | .int n => some (.ok (set n))
    | _ => none
  get x := .int (get x)

/-- an integer is widened -/
def real (name : String) (get : α → Float) (set : Float → α → α) : Field α where
  name
  kind := "float"
  set? v := match v with
    | .float x => some (.ok (set x))
    | .int n => some ((toDouble n).map set)
    | _ => none
  get x := .float (get x)

def bool (name : String) (get : α → Bool) (set : Bool → α → α) : Field α where
  name
  kind := "bool"
  set? v := match v with
    | .bool b => some (.ok (set b))
    | _ => none
  get x := .bool (get x)

def text (name : String) (get : α → String) (set : String → α → α) : Field α where
  name
  kind := "str"
  set? v := match v with
    | .str s => some (.ok (set s))
    | _ => none
  get x := .str (get x)

/-- a text or nothing -/
def text? (name : String) (get : α → Option String) (set : Option String → α → α) : Field α where
  name
  kind := "str"
  set? v := match v with
    | .str s => some (.ok (set (some s)))
    | .null => some (.ok (set none))
    | _ => none
  get x := match get x with
    | some s => .str s
    | none => .null

/-- sets the field that an entry names; an entry that names none changes nothing -/
def setEntry (fields : List (Field α)) (part : String) (depth : Option Nat) (x : α) (entry : Value × Value) :
    Except Fault α :=
  match fields.find? fun f => (Value.str f.name).same entry.1 with
  | none => .ok x
  | some f =>
    match f.set? entry.2 with
    | some change => change.map (· x)
    | none => .error (Value.quoting depth entry.2 fun shown => Settings.sectionFault part
        (f.name ++ " must be " ++ f.kind ++ ", got " ++ entry.2.kind ++ " " ++ shown))

/-- the keys of a mapping that name no field -/
def unknownKeys (fields : List (Field α)) (entries : List (Value × Value)) : List Value :=
  (entries.map (·.1)).filter fun k => !fields.any fun f => (Value.str f.name).same k

/-- a section: nothing stands for its defaults, a mapping overrides them -/
def read (fields : List (Field α)) (defaults : α) (part : String) (data : Value) (depth : Option Nat := none) :
    Except Fault α := do
  match data with
  | .null => return defaults
  | .map entries =>
    match unknownKeys fields entries with
    | [] => entries.foldlM (setEntry fields part depth) defaults
    | unknown => throw (Settings.sectionFault part ("unknown keys: " ++ (← Value.listed unknown)))
  | _ => throw (Settings.sectionFault part "section must be a mapping")

def write (fields : List (Field α)) (x : α) : Value := .map (fields.map fun f => (.str f.name, f.get x))

end Field
end KeyHold
