/-
Values that cannot be written down.

The written form of a value has no bound, but writing has two: an integer is written with `Decimal.maxDigits` digits at
most, and values that stand inside one another need room on the stack, one level each, of which there is some `depth`
where the writing begins. A message that shows such a value comes to nothing: the fault of writing takes its place.

- `obstacle?`: what is in the way first, in the order of writing.
- `writePlain?`: the form inside a sentence, if it can be written.
- `quoting`: the fault whose message shows a value.
-/
import KeyHold.Decimal.Reading
import KeyHold.Fault

namespace KeyHold.Value

/-- an integer of more digits than are written -/
def tooLong (n : Int) : Bool := Nat.ble (Nat.pow 10 Decimal.maxDigits) n.natAbs

/-- the fault of writing such an integer -/
def tooManyDigits : Fault := .badValue ("Exceeds the limit (4300 digits) for integer string conversion; "
  ++ "use sys.set_int_max_str_digits() to increase the limit")

/-- the fault of writing values too deep inside one another -/
def tooDeep : Fault :=
  .outage ⟨"RecursionError", "maximum recursion depth exceeded while getting the repr of an object"⟩

/-- the room that a value leaves for what is inside it; none is no bound -/
def inside (depth : Option Nat) : Option Nat := depth.map (· - 1)

mutual

/-- what keeps a value from being written, if anything does; a set is written as a list of its items -/
def obstacle? (depth : Option Nat) (v : Value) : Option Fault :=
  if depth = some 0 then some tooDeep
  else
    match v with
    | int n => if tooLong n then some tooManyDigits else none
    | list xs => obstacleAll? (inside depth) xs
    | pair a b => (obstacle? (inside depth) a).or (obstacle? (inside depth) b)
    | set xs => obstacleAll? (inside (inside depth)) xs
    | map es => obstacleEntries? (inside depth) es
    | _ => none

def obstacleAll? (depth : Option Nat) : List Value → Option Fault
  | [] => none
  | x :: xs => (obstacle? depth x).or (obstacleAll? depth xs)

def obstacleEntries? (depth : Option Nat) : List (Value × Value) → Option Fault
  | [] => none
  | (k, v) :: es => ((obstacle? depth k).or (obstacle? depth v)).or (obstacleEntries? depth es)

end

/-- the form that stands inside a sentence; a text is not written but is there already -/
def writePlain? (depth : Option Nat) : Value → Except Fault String
  | str s => .ok s
  | v =>
    match v.obstacle? depth with
    | some e => .error e
    | none => .ok v.plain

/-- the fault whose message shows a value; a value that cannot be written faults in its own way -/
def quoting (depth : Option Nat) (v : Value) (fault : String → Fault) : Fault :=
  (v.obstacle? depth).getD (fault v.written)

end KeyHold.Value

namespace KeyHold

/-- the room for writing at each place where a reader of settings shows a value -/
structure Room where
  /-- a value that a field of a section does not take -/
  field : Option Nat := none
  /-- the name of a mode and one of its phases -/
  mode : Option Nat := none
  /-- the key of a phase -/
  key : Option Nat := none
  /-- the name of a mode whose table is flawed -/
  table : Option Nat := none

end KeyHold
