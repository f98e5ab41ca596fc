/-!
# Shortest decimals

**Decoding.** A finite number of the binary format with 64 bits is `m · 2 ^ q` for whole numbers
`m` and `q`; the reals that round to it form an interval around it, whose ends belong to it
exactly if `m` is even.

**Digits** (`shortest`). Of the decimals that read back as the number, those with the fewest
digits, and of these the nearest one. For each count of digits the two neighbours of the number on
that decimal grid are tried in exact arithmetic: if a point of the grid lies in the interval, so
does one of the two.
-/

namespace Retrofit.Decimal

/-- A positive decimal `digits · 10 ^ exponent`. -/
structure Scientific where
  digits : Nat
  exponent : Int
deriving DecidableEq, Repr

/-- The whole numbers `m` and `q` with `m · 2 ^ q` the absolute value of a finite number, and
whether `m` is the least of its binade. -/
def decode (bits : UInt64) : Nat × Int × Bool :=
  let fraction : Nat := bits.toNat % (1 <<< 52)
  let biased : Nat := (bits.toNat >>> 52) % (1 <<< 11)
  if biased = 0 then (fraction, -1074, false)
  else (fraction + (1 <<< 52), (biased : Int) - 1075, fraction = 0 ∧ biased ≠ 1)

/-- The number of decimal digits of a positive number. -/
def digitCount (n : Nat) : Nat :=
  (toString n).length

/-- The numerator and denominator of `n · base ^ e`. -/
def scaled (n base : Nat) (e : Int) : Nat × Nat :=
  if 0 ≤ e then (n * base.pow e.toNat, 1) else (n, base.pow (-e).toNat)

/-- Whether `d · 10 ^ e` rounds to `m · 2 ^ q`. -/
def readsBack (m : Nat) (q : Int) (least : Bool) (d : Nat) (e : Int) : Bool :=
  -- All three numbers are taken four times, so that both ends of the interval are whole.
  let (x, xd) := scaled (4 * d) 10 e
  let (lo, den) := scaled (4 * m - (if least then 1 else 2)) 2 q
  let (hi, _) := scaled (4 * m + 2) 2 q
  if m % 2 = 0 then lo * xd ≤ x * den && x * den ≤ hi * xd
  else lo * xd < x * den && x * den < hi * xd

/-- The distance of `d · 10 ^ e` to `m · 2 ^ q`, as a numerator over a denominator that depends on
`e` and `q` only. -/
def distance (m : Nat) (q : Int) (d : Nat) (e : Int) : Nat :=
  let (x, xd) := scaled d 10 e
  let (y, yd) := scaled m 2 q
  if x * yd ≤ y * xd then y * xd - x * yd else x * yd - y * xd

/-- The better of the two neighbours on the grid `10 ^ e`, if one of them reads back. -/
def onGrid? (m : Nat) (q : Int) (least : Bool) (e : Int) : Option Scientific :=
  let (y, yd) := scaled m 2 q
  let (g, gd) := scaled 1 10 e
  let below := y * gd / (yd * g)
  let lo := readsBack m q least below e
  let hi := readsBack m q least (below + 1) e
  if lo && hi then
    let d := if distance m q (below + 1) e < distance m q below e then below + 1 else below
    some ⟨d, e⟩
  else if lo then some ⟨below, e⟩
  else if hi then some ⟨below + 1, e⟩
  else none

/-- The number of digits in front of the decimal point of `m · 2 ^ q`; not positive for small
numbers. -/
def magnitude (m : Nat) (q : Int) : Int :=
  let (y, yd) := scaled m 2 q
  if yd ≤ y then digitCount (y / yd)
  else
    -- `yd / y` has `k` digits, so the number lies between `10 ^ -k` and `10 ^ (1 - k)`.
    let k := digitCount (yd / y)
    if y * Nat.pow 10 (k - 1) = yd then 2 - k else 1 - k

/-- The decimal without zeros at the end of its digits. -/
def trimZeros : Nat → Scientific → Scientific
  | 0, s => s
  | fuel + 1, s =>
    if s.digits ≠ 0 ∧ s.digits % 10 = 0 then trimZeros fuel ⟨s.digits / 10, s.exponent + 1⟩ else s

/-- The shortest decimal that reads back as the absolute value of a finite number that is not
zero. -/
def shortest (bits : UInt64) : Scientific :=
  let (m, q, least) := decode bits
  let top := magnitude m q
  let found := (List.range 18).findSome? fun (n : Nat) => onGrid? m q least (top - 1 - n)
  trimZeros 20 (found.getD ⟨m, 0⟩)

/-- A number of the binary format: up to 16 digits are written in place, with at most five zeros
behind the point in front of them; all others have an exponent. -/
def text (bits : UInt64) : String :=
  let sign := if bits.toNat >>> 63 = 1 then "-" else ""
  if bits.toNat % (1 <<< 63) = 0 then sign ++ "0.0"
  else
    let s := shortest bits
    let digits := (toString s.digits).toList
    let point := (digits.length : Int) + s.exponent
    let body : List Char :=
      if 0 ≤ s.exponent ∧ point ≤ 16 then
        digits ++ List.replicate s.exponent.toNat '0' ++ ".0".toList
      else if 0 < point ∧ point ≤ 16 then
        digits.take point.toNat ++ '.' :: digits.drop point.toNat
      else if -5 < point ∧ point ≤ 0 then
        "0.".toList ++ List.replicate (-point).toNat '0' ++ digits
      else
        digits.take 1 ++ (if digits.length = 1 then [] else '.' :: digits.drop 1)
          ++ 'e' :: (toString (point - 1)).toList
    sign ++ String.ofList body

end Retrofit.Decimal
