
namespace Handoff.Aes256

def double (a : UInt8) : UInt8 := (a <<< 1) ^^^ (if a &&& 0x80 = 0 then 0 else 0x1b)

def addMul : Nat → UInt8 → UInt8 → UInt8 → UInt8
  | 0, _, _, acc => acc
  | n + 1, a, b, acc => addMul n (double a) (b >>> 1) (if b &&& 1 = 0 then acc else acc ^^^ a)

def mul (a b : UInt8) : UInt8 := addMul 8 a b 0

def square (a : UInt8) : UInt8 := mul a a

/-- The inverse, `a ^ 254`; zero stays zero. -/
def inverse (a : UInt8) : UInt8 :=
  let a2 := square a
  let a4 := square a2
  let a8 := square a4
  let a16 := square a8
  let a32 := square a16
  let a64 := square a32
  let a128 := square a64
  mul a2 (mul a4 (mul a8 (mul a16 (mul a32 (mul a64 a128)))))

def rotateLeft (a n : UInt8) : UInt8 := (a <<< n) ||| (a >>> (8 - n))

def substitute (a : UInt8) : UInt8 :=
  let b := inverse a
  b ^^^ rotateLeft b 1 ^^^ rotateLeft b 2 ^^^ rotateLeft b 3 ^^^ rotateLeft b 4 ^^^ 0x63

def substitutes : Array UInt8 := ((List.range 256).map fun n => substitute n.toUInt8).toArray

def sub (a : UInt8) : UInt8 := substitutes.getD a.toNat 0

def xor (xs ys : List UInt8) : List UInt8 := List.zipWith (· ^^^ ·) xs ys

def rotateWord : List UInt8 → List UInt8
  | a :: ws => ws ++ [a]
  | [] => []

def chain (first : List UInt8) : List (List UInt8) → List (List UInt8)
  | [] => [first]
  | w :: ws => first :: chain (xor first w) ws

def nextRow (constant : UInt8) (row : List (List UInt8)) : List (List UInt8) :=
  let last := (rotateWord (row.getD 7 [])).map sub
  let low := chain (xor (xor last [constant, 0, 0, 0]) (row.getD 0 [])) ((row.drop 1).take 3)
  let high := chain (xor ((low.getD 3 []).map sub) (row.getD 4 [])) (row.drop 5)
  low ++ high

def rows : Nat → UInt8 → List (List UInt8) → List (List UInt8)
  | 0, _, _ => []
  | n + 1, constant, row => row ++ rows n (double constant) (nextRow constant row)

structure Schedule where
  whitening : List UInt8
  middle : List (List UInt8)
  last : List UInt8

def fours : Nat → List UInt8 → List (List UInt8)
  | 0, _ => []
  | n + 1, bs => bs.take 4 :: fours n (bs.drop 4)

def columnsOf : Nat → List (List UInt8) → List (List UInt8)
  | 0, _ => []
  | n + 1, ws => (ws.take 4).flatten :: columnsOf n (ws.drop 4)

def Schedule.ofKey (key : List UInt8) : Schedule :=
  let keys := columnsOf 15 (rows 8 1 (fours 8 key))
  ⟨keys.getD 0 [], (keys.drop 1).take 13, keys.getD 14 []⟩

def shiftRows : List UInt8 → List UInt8
  | [a0, a1, a2, a3, b0, b1, b2, b3, c0, c1, c2, c3, d0, d1, d2, d3] =>
    [a0, b1, c2, d3, b0, c1, d2, a3, c0, d1, a2, b3, d0, a1, b2, c3]
  | s => s

def mixColumns : List UInt8 → List UInt8
  | a :: b :: c :: d :: s =>
    let all := a ^^^ b ^^^ c ^^^ d
    (a ^^^ all ^^^ double (a ^^^ b)) :: (b ^^^ all ^^^ double (b ^^^ c)) ::
      (c ^^^ all ^^^ double (c ^^^ d)) :: (d ^^^ all ^^^ double (d ^^^ a)) :: mixColumns s
  | s => s

def encrypt (k : Schedule) (block : List UInt8) : List UInt8 :=
  let s := k.middle.foldl (fun s key => xor (mixColumns (shiftRows (s.map sub))) key)
    (xor block k.whitening)
  xor (shiftRows (s.map sub)) k.last

end Handoff.Aes256
