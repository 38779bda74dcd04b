/-! # The shortest decimal of a floating point number

Among the decimals that round to a number, the ones with the fewest digits are taken, and of those
the nearest. All comparisons are made on natural numbers.
-/

namespace Registrar.Decimal

/-- A finite positive number `significand * 2 ^ exponent`. Below a power of two the numbers lie
closer together. -/
structure Binary where
  significand : Nat
  exponent : Int
  lowest : Bool

def Binary.ofFloat (x : Float) : Binary :=
  let bits : Nat := x.toBits.toNat
  let biased : Nat := bits / 0x10000000000000 % 0x800
  let fraction : Nat := bits % 0x10000000000000
  if biased = 0 then ⟨fraction, -1074, false⟩
  else ⟨fraction + 0x10000000000000, (biased : Int) - 1075, fraction = 0 && biased > 1⟩

structure Ratio where
  num : Nat
  den : Nat

namespace Ratio

/-- `n * base ^ e`. -/
def scaled (n base : Nat) (e : Int) : Ratio :=
  if 0 ≤ e then ⟨n * Nat.pow base e.toNat, 1⟩ else ⟨n, Nat.pow base (-e).toNat⟩

def le (a b : Ratio) : Bool := a.num * b.den ≤ b.num * a.den

def lt (a b : Ratio) : Bool := a.num * b.den < b.num * a.den

def floor (a : Ratio) : Nat := a.num / a.den

/-- `a / base ^ e`. -/
def unscale (a : Ratio) (base : Nat) (e : Int) : Ratio :=
  let s := scaled 1 base (-e)
  ⟨a.num * s.num, a.den * s.den⟩

/-- The least number of places, no more than `fuel`, after which a fraction below one is none. -/
def leadingPlaces (a : Ratio) : Nat → Nat
  | 0 => 0
  | fuel + 1 => if a.den ≤ a.num then 0 else leadingPlaces ⟨10 * a.num, a.den⟩ fuel + 1

def magnitude (a : Ratio) : Int :=
  if a.den ≤ a.num then ((Nat.toDigits 10 a.floor).length : Int) - 1
  else -(leadingPlaces a 400 : Int)

end Ratio

/-- Digits, and the exponent of the last of them. -/
structure Numeral where
  digits : Nat
  exponent : Int

namespace Binary

def value (b : Binary) : Ratio := .scaled b.significand 2 b.exponent

/-- Whether a decimal rounds to the number. An end of the interval does if the significand is
even. -/
def holds (b : Binary) (d : Numeral) : Bool :=
  let low := Ratio.scaled (4 * b.significand - if b.lowest then 1 else 2) 2 (b.exponent - 2)
  let high := Ratio.scaled (4 * b.significand + 2) 2 (b.exponent - 2)
  let x := Ratio.scaled d.digits 10 d.exponent
  if b.significand % 2 = 0 then low.le x && x.le high else low.lt x && x.lt high

def nearest? (b : Binary) (places : Nat) : Option Numeral :=
  let e := b.value.magnitude - ((places : Int) - 1)
  let x := b.value.unscale 10 e
  let below : Numeral := ⟨x.floor, e⟩
  let above : Numeral := ⟨x.floor + 1, e⟩
  let twice := 2 * (x.num - x.floor * x.den)
  match b.holds below, b.holds above with
  | true, true =>
    some (if twice < x.den || (twice = x.den && x.floor % 2 = 0) then below else above)
  | true, false => some below
  | false, true => some above
  | false, false => none

/-- Seventeen digits always suffice. -/
def shortest (b : Binary) : Numeral :=
  ((List.range 17).findSome? fun n => b.nearest? (n + 1)).getD ⟨0, 0⟩

end Binary

end Registrar.Decimal
