import Handoff.Text.Decimal

namespace Handoff.Url.Punycode

def digit (n : Nat) : Char := Char.ofNat (if n < 26 then 97 + n else 22 + n)

def threshold (bias k : Nat) : Nat := min 26 (max 1 (k - bias))

def scaleDown (n k : Nat) : Nat × Nat := if 455 < n then scaleDown (n / 35) (k + 36) else (n, k)

def adapt (step points : Nat) (isFirst : Bool) : Nat :=
  let d := if isFirst then step / 700 else step / 2
  let (d, k) := scaleDown (d + d / points) 0
  k + 36 * d / (d + 38)

def stepDigits (bias k q : Nat) : List Char :=
  let t := threshold bias k
  if q < t then [digit q]
  else digit (t + (q - t) % (36 - t)) :: stepDigits bias (k + 36) ((q - t) / (36 - t))
  termination_by q
  decreasing_by
    have h₁ : 1 ≤ threshold bias k := by unfold threshold; omega
    exact Nat.lt_of_le_of_lt (Nat.div_le_self _ _) (by omega)

structure Progress where
  out : List Char
  step : Nat
  bias : Nat
  written : Nat

/-- Passes a character while the code `n` is written: lower ones lengthen the step. -/
def visit (basic n : Nat) (p : Progress) (c : Char) : Progress :=
  if c.toNat < n then { p with step := p.step + 1 }
  else if c.toNat = n then
    { out := p.out ++ stepDigits p.bias 36 p.step, step := 0,
      bias := adapt p.step (p.written + 1) (p.written = basic), written := p.written + 1 }
  else p

def writeCodes (input : List Char) (basic : Nat) : List Nat → Nat → Progress → Progress
  | [], _, p => p
  | m :: codes, n, p =>
    let p := { p with step := p.step + (m - n) * (p.written + 1) }
    let p := input.foldl (visit basic m) p
    writeCodes input basic codes (m + 1) { p with step := p.step + 1 }

def insertCode (n : Nat) : List Nat → List Nat
  | [] => [n]
  | m :: ms => if n < m then n :: m :: ms else if n = m then m :: ms else m :: insertCode n ms

def encode (label : List Char) : List Char :=
  let basic := label.filter (·.toNat < 128)
  let codes := (label.filter (128 ≤ ·.toNat)).foldl (fun ms c => insertCode c.toNat ms) []
  let start := if basic.isEmpty then [] else basic ++ ['-']
  (writeCodes label basic.length codes 128 ⟨start, 0, 72, basic.length⟩).out

end Handoff.Url.Punycode
