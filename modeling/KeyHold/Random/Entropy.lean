/-
Where seed material comes from.

Two sources are known by name: the clock, folded with an address, and the operating system's own generator. Either
gives 32 bits.
-/
import KeyHold.Fault

namespace KeyHold

inductive EntropySource where
  | clock
  | os
deriving DecidableEq, Repr

/-- the source of a name -/
def EntropySource.ofName (name : String) : Except Fault EntropySource :=
  if name = "clock" then .ok .clock
  else if name = "os" then .ok .os
  else .error (.unknownEntropySource name)

/-- exclusive or of two integers in two's complement -/
def xorInt (a b : Int) : Int :=
  match a, b with
  | .ofNat m, .ofNat n => (m ^^^ n : Nat)
  | .negSucc m, .negSucc n => (m ^^^ n : Nat)
  | .ofNat m, .negSucc n => .negSucc (m ^^^ n)
  | .negSucc m, .ofNat n => .negSucc (m ^^^ n)

/-- the clock's nanoseconds and an address, folded to 32 bits -/
def clockEntropy (ns address : Int) : Int :=
  let v := xorInt ns address
  xorInt v (v / 4294967296) % 4294967296

/-- the number that four bytes stand for, the lowest first -/
def bytesEntropy (bs : List UInt8) : Int := bs.foldr (fun b n => n * 256 + b.toNat) (0 : Int)

end KeyHold
