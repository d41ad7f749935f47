import Mintage.Number.Binary64
import Mintage.Text.Digits

/-!
Decimal text of binary64 numbers: with a fixed count of places, and the shortest that
still reads back.

The numbers nearest to a given whole one leave a gap on either side of it; any decimal
inside that gap reads back as the number. The shortest is found by trying ever finer
grids of powers of ten until one has a point there.
-/

namespace Mintage.Binary64

/-- A fraction's decimal text with `places` digits after the point, rounded half to even. -/
def fixedText (places num den : Nat) : List Char :=
  let unit := Nat.pow 10 places
  let scaled := roundHalfEven (num * unit) den
  Text.digits (scaled / unit) ++ '.' :: Text.paddedDigits places (scaled % unit)

/-- The text of a number's exact value with `places` digits after the point, rounded
half to even. -/
def toFixed (places : Nat) (a : Binary64) : String :=
  String.ofList ((if a.negative then ['-'] else []) ++ fixedText places a.units unitsPerOne)

/-- Whether a decimal, given as twice its value, reads back as the whole number `n`: it
lies no further away than the middle between `n` and its neighbours, and a middle itself
goes to an even fraction. -/
def readsBack (n twice : Nat) : Bool :=
  let k := n.log2 - 52
  let half := 1 <<< k
  -- below a power of two the neighbours are twice as close
  let below := if n == 1 <<< n.log2 && 0 < k then half / 2 else half
  if n < 1 <<< 53 then twice == 2 * n
  else if n >>> k % 2 == 0 then 2 * n - below ≤ twice && twice ≤ 2 * n + half
  else 2 * n - below < twice && twice < 2 * n + half

/-- The multiple of 10ʲ nearest to `n` that reads back as `n`, on the coarsest grid that
has one. -/
def shortestFrom (n : Nat) : Nat → Nat
  | 0 => n
  | j + 1 =>
      let unit := Nat.pow 10 (j + 1)
      let low := n / unit * unit
      let high := low + unit
      match readsBack n (2 * low), readsBack n (2 * high) with
      | true, true => if n - low ≤ high - n then low else high
      | true, false => low
      | false, true => high
      | false, false => shortestFrom n j

/-- The text of the binary64 nearest to a whole number: the fewest significant digits
that read back, filled up with zeros. -/
def wholeText (n : Nat) : String :=
  let v := roundUnits n 1
  String.ofList (Text.digits (shortestFrom v (Text.digits v).length))

end Mintage.Binary64
