namespace SpiderDiagrams

/-- A non-negative finite number, the mantissa times two to the exponent. -/
structure Binary64 where
  mantissa : Nat
  exponent : Int
deriving DecidableEq

namespace Binary64

def mantissaLimit : Nat := 0x20000000000000

/-- The quotient rounded to the nearest number, a half to the even one. -/
def roundDiv (n d : Nat) : Nat :=
  let q := n / d
  let r := 2 * (n % d)
  if r < d then q else if d < r then q + 1 else q + q % 2

def scaled (n d : Nat) (power : Int) : Nat × Nat :=
  if 0 ≤ power then (n, d <<< power.toNat) else (n <<< (-power).toNat, d)

def ofRatio? (n d : Nat) : Option Binary64 :=
  if n = 0 then some ⟨0, 0⟩
  else
    let power : Int := n.log2 - d.log2 - 53
    let (a, b) := scaled n d power
    let power := max (-1074) (if a / b < mantissaLimit then power else power + 1)
    let (a, b) := scaled n d power
    let mantissa := roundDiv a b
    if 971 < power ∨ power = 971 ∧ mantissaLimit ≤ mantissa then none
    else if mantissa = mantissaLimit then some ⟨mantissa / 2, power + 1⟩
    else some ⟨mantissa, power⟩

def ratio (x : Binary64) : Nat × Nat :=
  scaled x.mantissa 1 (-x.exponent)

def mul? (x y : Binary64) : Option Binary64 :=
  ofRatio? (x.ratio.1 * y.ratio.1) (x.ratio.2 * y.ratio.2)

def div? (x y : Binary64) : Option Binary64 :=
  ofRatio? (x.ratio.1 * y.ratio.2) (x.ratio.2 * y.ratio.1)

def powerOfTen? (k : Nat) : Option Binary64 := ofRatio? (Nat.pow 10 k) 1

/-- Scales by a power of ten. A power beyond the largest one is divided out in steps, at most as
many as the first argument; what is left after them is zero. -/
def shift? : Nat → Binary64 → Int → Option Binary64
  | steps, x, power =>
    if power.natAbs ≤ 308 then do
      let y ← powerOfTen? power.natAbs
      if 0 ≤ power then x.mul? y else x.div? y
    else if x.mantissa = 0 then some x
    else if 0 ≤ power then none
    else match steps with
    | 0 => some ⟨0, 0⟩
    | steps + 1 => do shift? steps (← x.div? (← powerOfTen? 308)) (power + 308)

/-- A significand times a power of ten, each rounded before they are multiplied. -/
def ofDecimal? (significand : Nat) (power : Int) : Option Binary64 := do
  shift? 4 (← ofRatio? significand 1) power

def decimalAt? (x : Binary64) (power : Int) : Option Nat :=
  let half := if 2 * x.mantissa = mantissaLimit ∧ -1074 < x.exponent then 1 else 2
  let (scale, d) := scaled 1 4 (-x.exponent)
  let value := 4 * x.mantissa * scale
  let low := (4 * x.mantissa - half) * scale
  let high := (4 * x.mantissa + 2) * scale
  let (p, q) := if 0 ≤ power then (Nat.pow 10 power.toNat, 1) else (1, Nat.pow 10 (-power).toNat)
  let rounds (c : Nat) : Bool :=
    let v := c * p * d
    if x.mantissa % 2 = 0 then low * q ≤ v && v ≤ high * q else low * q < v && v < high * q
  let below := value * q / (d * p)
  let nearest := roundDiv (value * q) (d * p)
  if rounds nearest then some nearest
  else if rounds below then some below
  else if rounds (below + 1) then some (below + 1)
  else none

/-- The decimal with the fewest digits that rounds to the number, sought from the given power of ten
downwards. -/
def shortestFrom (x : Binary64) (power : Int) : Nat → Nat × Int
  | 0 => (0, 0)
  | n + 1 =>
    match x.decimalAt? power with
    | some c => (c, power)
    | none => shortestFrom x (power - 1) n

def shortest (x : Binary64) : Nat × Int :=
  let digits := (toString (x.ratio.1 / x.ratio.2)).length
  x.shortestFrom digits (digits + 345)

def exponentText (e : Int) : String :=
  if 0 ≤ e then s!"e+{e}" else s!"e{e}"

/-- Positional from four zeros after the point up to sixteen digits before it, and with an exponent
beyond. There is always a digit after the point of a positional number. -/
def text (x : Binary64) : String :=
  if x.mantissa = 0 then "0.0"
  else
    let (c, power) := x.shortest
    let digits := toString c
    let point : Int := digits.length + power
    if 0 ≤ power ∧ point ≤ 16 then digits ++ "".pushn '0' power.toNat ++ ".0"
    else if 0 < point ∧ point ≤ 16 then
      (digits.take point.toNat).toString ++ "." ++ (digits.drop point.toNat).toString
    else if -5 < point ∧ point ≤ 0 then "0." ++ "".pushn '0' (-point).toNat ++ digits
    else if digits.length = 1 then digits ++ exponentText (point - 1)
    else (digits.take 1).toString ++ "." ++ (digits.drop 1).toString ++ exponentText (point - 1)

end Binary64

end SpiderDiagrams
