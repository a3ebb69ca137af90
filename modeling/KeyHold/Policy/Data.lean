/-
Policies in settings.

A policy is written as a mapping with a list of phases and an optional toggle key; each phase is a mapping with a key,
a mean and an optional deviation. Any value serves as a key through its plain text, and any numeral as a number.
`ofData` reads it, `toData` writes it. Where a message shows the name of the mode or a phase, and these cannot be
written in the room there is, the fault of writing is the fault of the mode.
-/
import KeyHold.Decimal.Reading
import KeyHold.Policy.Basic

namespace KeyHold

namespace Value

/-- the double that a value stands for: a number, a truth value, or a numeral -/
def toReal : Value → Except Fault Float
  | float x => .ok x
  | int n => toDouble n
  | bool b => .ok (if b then 1.0 else 0.0)
  | str s =>
    match Decimal.readReal? s with
    | some x => .ok x
    | none => .error (.wrongKind ("could not convert string to float: " ++ Text.quoted s))
  | bytes bs =>
    let text := String.ofList (bs.map fun b => Char.ofNat b.toNat)
    match if bs.all (· < 128) then Decimal.readReal? text else none with
    | some x => .ok x
    | none => .error (.wrongKind ("could not convert string to float: " ++ bytesText bs))
  | v => .error (.wrongKind ("float() argument must be a string or a real number, not '" ++ v.longKind ++ "'"))

/-- the value of a text key in a value that should be a mapping -/
def field (v : Value) (key : String) : Except Fault Value :=
  match v with
  | map entries =>
    match find? (str key) entries with
    | some x => .ok x
    | none => .error (.wrongKind (Text.quoted key))
  | str _ => .error (.wrongKind "string indices must be integers, not 'str'")
  | list _ => .error (.wrongKind "list indices must be integers or slices, not str")
  | pair .. => .error (.wrongKind "tuple indices must be integers or slices, not str")
  | bytes _ => .error (.wrongKind "byte indices must be integers or slices, not str")
  | v => .error (.wrongKind ("'" ++ v.longKind ++ "' object is not subscriptable"))

/-- the items that going through a value yields -/
def items : Value → Except Fault (List Value)
  | list xs | set xs => .ok xs
  | pair a b => .ok [a, b]
  | map entries => .ok (entries.map (·.1))
  | str s => .ok (s.toList.map fun c => str c.toString)
  | bytes bs => .ok (bs.map fun b => int b.toNat)
  | v => .error (.wrongKind ("'" ++ v.longKind ++ "' object is not iterable"))

end Value

namespace Policy

/-- a phase as it is written -/
def phaseOfData (raw : Value) (depth : Option Nat := none) : Except Fault Phase := do
  let key ← (← raw.field "key").writePlain? depth
  let mean ← (← raw.field "mean_ms").toReal
  let stddev ← ((raw.get? "stddev_ms").getD (.float 0.0)).toReal
  return { key, mean, stddev }

/-- the refusal of a phase, for a reason -/
def invalidPhase (depth : Option Nat) (name raw : Value) (reason : String) : Fault :=
  Value.quoting depth name fun shown => Value.quoting depth raw fun phase =>
    .config ⟨some "modes", "mode " ++ shown ++ ": invalid phase " ++ phase ++ " (" ++ reason ++ ")"⟩

/-- the fault of a phase that cannot be read; a number beyond the doubles and a key that is too deep stay what they
are -/
def phaseFault (depth : Option Nat) (name raw : Value) : Fault → Fault
  | .wrongKind text | .badValue text => invalidPhase depth name raw text
  | fault => fault

/-- a policy as it is written -/
def ofData (name data : Value) (room : Room := {}) : Except Fault Policy := do
  match data with
  | .map entries =>
    let raw := (Value.find? (.str "phases") entries).getD .null
    let raws ← if raw.truthy then raw.items else pure []
    let phases ← raws.mapM fun r => (phaseOfData r room.key).mapError (phaseFault room.mode name r)
    make? name phases ((Value.find? (.str "toggle_key") entries).getD .null) room.table
  | _ =>
    .error (Value.quoting room.mode name fun shown => .config ⟨some "modes", "mode " ++ shown ++ " must be a mapping"⟩)

def phaseToData (p : Phase) : Value :=
  .map [(.str "key", .str p.key), (.str "mean_ms", .float p.mean), (.str "stddev_ms", .float p.stddev)]

def toData (p : Policy) : Value :=
  .map [(.str "toggle_key", p.toggleKey), (.str "phases", .list (p.phases.map phaseToData))]

end Policy
end KeyHold
