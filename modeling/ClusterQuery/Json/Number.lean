/-!
# JSON numbers

A number has an integer part without leading zeros, and it may have a sign, a fraction and an
exponent. Only integers keep their value: a negative zero, a fraction or an exponent makes it
a real number.
-/

namespace ClusterQuery.Json

inductive Number
  | integer (n : Int)
  | real
  deriving DecidableEq, Repr

namespace Number

def isExponent : List Char → Bool
  | [] => true
  | e :: rest =>
    let digits := match rest with
      | '+' :: digits => digits
      | '-' :: digits => digits
      | digits => digits
    (e == 'e' || e == 'E') && !digits.isEmpty && digits.all Char.isDigit

/-- Whether the text is a fraction, an exponent or both. -/
def isTail : List Char → Bool
  | '.' :: rest =>
    !(rest.takeWhile Char.isDigit).isEmpty && isExponent (rest.dropWhile Char.isDigit)
  | rest => isExponent rest

/-- Reads a number without its sign. -/
def ofUnsigned? (negative : Bool) (cs : List Char) : Option Number :=
  let whole := cs.takeWhile Char.isDigit
  let tail := cs.dropWhile Char.isDigit
  let value : Int := Nat.ofDigitChars 10 whole 0
  if whole = [] ∨ (whole.head? = some '0' ∧ whole ≠ ['0']) then none
  else if tail ≠ [] then if isTail tail then some .real else none
  else if negative then some (if value = 0 then .real else .integer (-value))
  else some (.integer value)

def ofChars? : List Char → Option Number
  | '-' :: cs => ofUnsigned? true cs
  | cs => ofUnsigned? false cs

end Number

end ClusterQuery.Json
