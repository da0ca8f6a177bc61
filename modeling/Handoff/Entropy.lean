import Handoff.Crypto.Sha256
import Handoff.Handle

namespace Handoff

structure Entropy where
  seed : List UInt8
  counter : Nat
  deriving DecidableEq, Repr

namespace Entropy

def ofSeed (seed : List UInt8) : Entropy := ⟨seed, 0⟩

def block (e : Entropy) : List UInt8 := Sha256.hash (e.seed ++ Sha256.bigEndian 8 e.counter)

def blocks : Nat → Entropy → List UInt8 × Entropy
  | 0, e => ([], e)
  | n + 1, e =>
    let (rest, last) := blocks n { e with counter := e.counter + 1 }
    (e.block ++ rest, last)

def draw (n : Nat) (e : Entropy) : List UInt8 × Entropy :=
  let (bs, e) := blocks ((n + 31) / 32) e
  (bs.take n, e)

def handle (bytes : Nat) (e : Entropy) : Handle × Entropy :=
  let (bs, e) := e.draw (Handle.entropy bytes)
  (.ofEntropy bs, e)

end Entropy

end Handoff
