/-
The modes a host knows.

A registry keeps policies by name in the order in which the names were first registered; registering a name again
replaces its policy where it stands.
-/
import KeyHold.Policy.Basic

namespace KeyHold

structure Registry where
  policies : List Policy := []
deriving Inhabited

namespace Registry

/-- replaces the policy of that name in place, or adds the policy at the end -/
def put (p : Policy) : List Policy → List Policy
  | [] => [p]
  | q :: qs => if q.name.same p.name then p :: qs else q :: put p qs

def register (r : Registry) (p : Policy) : Registry := ⟨put p r.policies⟩

/-- a registry of policies, registered in order -/
def ofList (ps : List Policy) : Registry := ps.foldl register {}

/-- the policy of a name -/
def find? (r : Registry) (name : Value) : Option Policy := r.policies.find? fun p => p.name.same name

/-- the policy of a name, for names that may be keys -/
def get (r : Registry) (name : Value) : Except Fault Policy :=
  match r.find? name with
  | some p => .ok p
  | none => .error (.unknownMode name)

/-- the first policy with that toggle key -/
def byToggleKey? (r : Registry) (key : Value) : Option Policy := r.policies.find? fun p => p.toggleKey.same key

def contains (r : Registry) (name : Value) : Bool := (r.find? name).isSome

def names (r : Registry) : List Value := r.policies.map Policy.name

def size (r : Registry) : Nat := r.policies.length

def builtin : Registry := ofList Policy.builtin

/-- itself, or the built-in modes if it is empty -/
def orBuiltin (r : Registry) : Registry := if r.policies.isEmpty then builtin else r

end Registry
end KeyHold
