import Handoff.Crypto.Aes256
import Handoff.Crypto.Sha256
/-!
Authenticated encryption: AES-256 in Galois/counter mode, with nonces of twelve octets, tags of
sixteen and no additional data. `open?` gives back the text that `sealText` was given, and nothing for
a text whose tag does not fit.
-/

namespace Handoff.Gcm

def nonceSize : Nat := 12

def tagSize : Nat := 16

structure Key where
  schedule : Aes256.Schedule
  point : Nat

def ofBytes (bs : List UInt8) : Nat := bs.foldl (fun n b => 256 * n + b.toNat) 0

def Key.ofBytes (key : List UInt8) : Key :=
  let s := Aes256.Schedule.ofKey key
  ⟨s, Gcm.ofBytes (Aes256.encrypt s (List.replicate 16 0))⟩

/-- Multiplication by `x` in the field of the polynomial, whose first bit is the lowest power. -/
def shift (v : Nat) : Nat := if v % 2 = 0 then v / 2 else (v / 2) ^^^ (0xe1 <<< 120)

def addMul : Nat → Nat → Nat → Nat → Nat
  | 0, _, _, acc => acc
  | n + 1, x, v, acc => addMul n x (shift v) (if x.testBit n then acc ^^^ v else acc)

def mul (x y : Nat) : Nat := addMul 128 x y 0

def padding (n : Nat) : List UInt8 := List.replicate ((16 - n % 16) % 16) 0

def digest (point : Nat) (sealed : List UInt8) : Nat :=
  let bs := sealed ++ padding sealed.length ++ Sha256.bigEndian 16 (8 * sealed.length)
  (Sha256.pieces 16 (bs.length / 16) bs).foldl (fun y b => mul (y ^^^ ofBytes b) point) 0

def counter (nonce : List UInt8) (n : Nat) : List UInt8 := nonce ++ Sha256.bigEndian 4 n

def keystream (k : Key) (nonce : List UInt8) : Nat → Nat → List UInt8
  | 0, _ => []
  | blocks + 1, n => Aes256.encrypt k.schedule (counter nonce n) ++ keystream k nonce blocks (n + 1)

/-- Hides or uncovers: doing it twice gives the text back. -/
def mask (k : Key) (nonce text : List UInt8) : List UInt8 :=
  Aes256.xor text (keystream k nonce ((text.length + 15) / 16) 2)

def tag (k : Key) (nonce sealed : List UInt8) : List UInt8 :=
  Aes256.xor (Sha256.bigEndian 16 (digest k.point sealed))
    (Aes256.encrypt k.schedule (counter nonce 1))

def sealText (k : Key) (nonce text : List UInt8) : List UInt8 :=
  let hidden := mask k nonce text
  hidden ++ tag k nonce hidden

def open? (k : Key) (nonce sealed : List UInt8) : Option (List UInt8) :=
  if sealed.length < tagSize then none
  else
    let hidden := sealed.take (sealed.length - tagSize)
    if sealed.drop (sealed.length - tagSize) = tag k nonce hidden then some (mask k nonce hidden)
    else none

end Handoff.Gcm
