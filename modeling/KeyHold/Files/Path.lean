/-
Paths.

A path is normal when it has no empty parts and no single dots; only a leading slash (or exactly two) stays. The empty
path is the dot.
-/
import KeyHold.Text.Quoted

namespace KeyHold.Path

/-- the leading slashes that count -/
def root (cs : List Char) : String :=
  match cs.takeWhile (· == '/') with
  | [] => ""
  | [_, _] => "//"
  | _ => "/"

/-- the parts that count -/
def parts (cs : List Char) : List String :=
  ((Text.splitAt '/' cs).filter fun p => p ≠ [] ∧ p ≠ ['.']).map String.ofList

def ofParts (root : String) (ps : List String) : String :=
  match root ++ Text.joined "/" ps with
  | "" => "."
  | p => p

def normal (s : String) : String := ofParts (root s.toList) (parts s.toList)

/-- the normal path of the directory that a path leads into -/
def parent (s : String) : String := ofParts (root s.toList) (parts s.toList).dropLast

/-- a path below a directory; an absolute one stands alone -/
def below (dir s : String) : String := if s.startsWith "/" then normal s else normal (dir ++ "/" ++ s)

end KeyHold.Path
