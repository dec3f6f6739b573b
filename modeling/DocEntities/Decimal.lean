/-
This file gives the text of a number literal that is used as a key. The number is first
rounded to double precision, to the nearest with ties to even, and then written with the
fewest digits that round back to it, the nearest such digits where there is a choice. The text
is positional, however large or small the number is.

All of it is exact arithmetic on natural numbers. A double is `m · 2 ^ q` with `m < 2 ^ 53`;
the numbers that round to it form an interval whose ends belong to it if `m` is even. For one
digit, two digits and so on, the two neighbours of the number on that decimal grid are tested
against the interval; if any point of the grid lies in it, one of the two does.
-/

namespace DocEntities.Decimal

/-- A positive number of double precision, `mantissa · 2 ^ exponent`. -/
structure Double where
  mantissa : Nat
  exponent : Int
  deriving DecidableEq, Repr, Inhabited

/-- The least exponent of a double. -/
def leastExponent : Int := -1074

/-- The greatest exponent of a double. -/
def greatestExponent : Int := 971

/-- `2 ^ n` if `n` is positive, else one. -/
def twoTo (n : Int) : Nat :=
  Nat.pow 2 n.toNat

/-- `10 ^ n` if `n` is positive, else one. -/
def tenTo (n : Int) : Nat :=
  Nat.pow 10 n.toNat

/-- A quotient rounded to the nearest, ties to even. -/
def roundDiv (numerator denominator : Nat) : Nat :=
  let quotient := numerator / denominator
  let twice := 2 * (numerator % denominator)
  if twice < denominator then quotient
  else if twice > denominator then quotient + 1
  else if quotient % 2 = 0 then quotient
  else quotient + 1

/-- The double next to `numerator / denominator`, both positive; none if it would be too large. -/
def nearest? (numerator denominator : Nat) : Option Double :=
  let floorAt (exponent : Int) : Nat :=
    (numerator * twoTo (-exponent)) / (denominator * twoTo exponent)
  let guess : Int := (numerator.log2 : Int) - denominator.log2 - 53
  let low := if guess < leastExponent then leastExponent else guess
  let exponent :=
    if floorAt low < Nat.pow 2 53 then low
    else if floorAt (low + 1) < Nat.pow 2 53 then low + 1
    else low + 2
  let mantissa := roundDiv (numerator * twoTo (-exponent)) (denominator * twoTo exponent)
  let double : Double :=
    if mantissa < Nat.pow 2 53 then ⟨mantissa, exponent⟩ else ⟨Nat.pow 2 52, exponent + 1⟩
  if double.exponent > greatestExponent then none else some double

namespace Double

/-- The place of the first digit of `numerator / denominator`: the greatest power of ten that
is not above it. Below one, at most `bound` places are looked at. -/
def leadingPlace (numerator denominator : Nat) (bound : Nat) : Int :=
  if numerator ≥ denominator then ((Nat.toDigits 10 (numerator / denominator)).length : Int) - 1
  else
    let rec go : Nat → Nat → Int
      | 0, _ => -(bound : Int)
      | left + 1, scaled =>
        if scaled * 10 ≥ denominator then -((bound - left : Nat) : Int) else go left (scaled * 10)
    go bound numerator

/-- The digits `p` and the place `e` of the shortest decimal `p · 10 ^ e` that rounds to the
double, looked for with `digits` digits and more. -/
def shortestFrom (double : Double) (place : Int) : Nat → Nat → Nat × Int
  | 0, _ => (0, 0)
  | bound + 1, digits =>
    let unit := double.exponent - 2
    let low := 4 * double.mantissa -
      (if double.mantissa = Nat.pow 2 52 ∧ double.exponent ≠ leastExponent then 1 else 2)
    let high := 4 * double.mantissa + 2
    let grid := place + 1 - digits
    let scalePoint := tenTo grid * twoTo (-unit)
    let scaleUnit := twoTo unit * tenTo (-grid)
    let exact := 4 * double.mantissa * scaleUnit
    let inside (point : Nat) : Bool :=
      let scaled := point * scalePoint
      if double.mantissa % 2 = 0 then low * scaleUnit ≤ scaled && scaled ≤ high * scaleUnit
      else low * scaleUnit < scaled && scaled < high * scaleUnit
    let below := exact / scalePoint
    let above := below + 1
    if inside below && (!inside above ||
        exact - below * scalePoint ≤ above * scalePoint - exact) then (below, grid)
    else if inside above then (above, grid)
    else shortestFrom double place bound (digits + 1)

/-- The shortest decimal `p · 10 ^ e` that rounds to the double. Seventeen digits suffice. -/
def shortest (double : Double) : Nat × Int :=
  let numerator := double.mantissa * twoTo double.exponent
  let denominator := twoTo (-double.exponent)
  shortestFrom double (leadingPlace numerator denominator 330) 17 1

end Double

/-- The positional text of `digits · 10 ^ place`. -/
def positional (digits : Nat) (place : Int) : String :=
  let text := Nat.toDigits 10 digits
  if place ≥ 0 then String.ofList (text ++ List.replicate place.toNat '0')
  else
    let decimals := (-place).toNat
    let padded := List.replicate (decimals + 1 - text.length) '0' ++ text
    let fraction := (padded.drop (padded.length - decimals)).reverse.dropWhile (· == '0')
    let whole := String.ofList (padded.take (padded.length - decimals))
    if fraction.isEmpty then whole else whole ++ "." ++ String.ofList fraction.reverse

/-- The text of `significand · 10 ^ exponent`, rounded to double precision. -/
def text (significand : Nat) (exponent : Int) : String :=
  if significand = 0 then "0"
  else if exponent > 400 then "inf"
  else if exponent < -400 - ((Nat.toDigits 10 significand).length : Int) then "0"
  else
    match nearest? (significand * tenTo exponent) (tenTo (-exponent)) with
    | none => "inf"
    | some double =>
      if double.mantissa = 0 then "0"
      else
        let (digits, place) := double.shortest
        positional digits place

end DocEntities.Decimal
