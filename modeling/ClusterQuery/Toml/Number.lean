import ClusterQuery.Toml.Text

/-!
# TOML numbers

An integer is decimal, with a sign or none and no leading zeros, or a hexadecimal, octal or
binary one without a sign; it fits in 64 bits with sign. A float has a fraction, an exponent
or both, or is `inf` or `nan`; a positive one may not be so large that the nearest double is
infinite. Underscores stand between digits only.
-/

namespace ClusterQuery.Toml

inductive Number
  | integer (n : Int)
  | float
  deriving DecidableEq, Repr

/-- Reads digits, of which there must be one at once when `needed`. -/
def digits? (isDigit : Char → Bool) (needed : Bool) : Reads (List Char)
  | [] => if needed then none else some ([], [])
  | c :: cs =>
    if isDigit c then prepend [c] (digits? isDigit false cs)
    else if needed then none
    else if c = '_' then digits? isDigit true cs
    else some ([], c :: cs)

def valueOf (base : Nat) (digits : List Char) : Nat :=
  digits.foldl (fun n c => n * base + (hexValue? c).getD 0) 0

def integer? (n : Int) : Option Number :=
  if fitsInt64 n then some (.integer n) else none

/-- Whether the double nearest to `m * 10 ^ e` is infinite. -/
def roundsToInfinity (m : Nat) (e : Int) : Bool :=
  let bound := Nat.pow 2 1024 - Nat.pow 2 970
  let size : Int := (Nat.toDigits 10 m).length + e
  if m = 0 ∨ size < 300 then false
  else if 400 < size then true
  else if 0 ≤ e then bound ≤ m * Nat.pow 10 e.toNat
  else bound * Nat.pow 10 (-e).toNat ≤ m

/-- Reads the integer part of a decimal number: a zero alone, or digits that start with none. -/
def whole? : Reads (List Char)
  | '0' :: cs => some (['0'], cs)
  | cs => digits? Char.isDigit true cs

def fraction? : Reads (List Char)
  | '.' :: cs => digits? Char.isDigit true cs
  | _ => none

def exponent? : Reads Int
  | e :: cs =>
    if e = 'e' ∨ e = 'E' then do
      let (negative, cs) := match cs with
        | '+' :: cs => (false, cs)
        | '-' :: cs => (true, cs)
        | cs => (false, cs)
      let (digits, rest) ← digits? Char.isDigit true cs
      let value : Int := valueOf 10 digits
      return (if negative then -value else value, rest)
    else none
  | [] => none

def float? (negative : Bool) (m : Nat) (e : Int) : Option Number :=
  if !negative && roundsToInfinity m e then none else some .float

/-- Reads a decimal number without its sign. -/
def decimal? (negative : Bool) (cs : List Char) : Option (Number × List Char) := do
  let (whole, rest) ← whole? cs
  match rest with
  | '.' :: _ =>
    let (fraction, rest) ← fraction? rest
    let m := valueOf 10 (whole ++ fraction)
    match rest with
    | 'e' :: _ | 'E' :: _ =>
      let (e, rest) ← exponent? rest
      return (← float? negative m (e - fraction.length), rest)
    | _ => return (← float? negative m (-fraction.length), rest)
  | 'e' :: _ | 'E' :: _ =>
    let (e, rest) ← exponent? rest
    return (← float? negative (valueOf 10 whole) e, rest)
  | _ =>
    let value : Int := valueOf 10 whole
    return (← integer? (if negative then -value else value), rest)

def isHexDigit (c : Char) : Bool :=
  (hexValue? c).isSome

def isOctalDigit (c : Char) : Bool :=
  '0' ≤ c && c ≤ '7'

def isBinaryDigit (c : Char) : Bool :=
  c == '0' || c == '1'

def radix? (base : Nat) (isDigit : Char → Bool) (cs : List Char) :
    Option (Number × List Char) := do
  let (digits, rest) ← digits? isDigit true cs
  return (← integer? (valueOf base digits), rest)

/-- Reads a number after its sign, if it has one. -/
def signed? (negative : Bool) : Reads Number
  | 'i' :: 'n' :: 'f' :: rest => some (.float, rest)
  | 'n' :: 'a' :: 'n' :: rest => some (.float, rest)
  | cs => decimal? negative cs

def number? : Reads Number
  | '+' :: cs => signed? false cs
  | '-' :: cs => signed? true cs
  | '0' :: 'x' :: cs => radix? 16 isHexDigit cs
  | '0' :: 'o' :: cs => radix? 8 isOctalDigit cs
  | '0' :: 'b' :: cs => radix? 2 isBinaryDigit cs
  | cs => signed? false cs

end ClusterQuery.Toml
