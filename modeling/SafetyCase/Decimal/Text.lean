import SafetyCase.Decimal.Shortest
/-! How numbers are written: integers in plain digits, floating-point numbers by their shortest digits,
positionally within a range of exponents and with an exponent outside it. -/
namespace SafetyCase.Decimal

structure Style where
  least : Int
  limit : Int
  exponentDigits : Nat

def plain : Style := ⟨-4, 16, 2⟩

def digitsOf (n : Nat) : List Char := Nat.toDigits 10 n

def padded (width : Nat) (cs : List Char) : List Char := List.replicate (width - cs.length) '0' ++ cs

def exponentText (style : Style) (e : Int) : List Char :=
  (if e < 0 then '-' else '+') :: padded style.exponentDigits (digitsOf e.natAbs)

def normalDigits (d : Numeral) : List Char :=
  (digitsOf d.digits).reverse.dropWhile (· = '0') |>.reverse

def positional (digits : List Char) (lead : Int) : List Char :=
  if lead < 0 then '0' :: '.' :: List.replicate (-lead - 1).toNat '0' ++ digits
  else
    let whole := lead.toNat + 1
    let missing := whole - digits.length
    let tail := digits.drop whole
    digits.take whole ++ List.replicate missing '0' ++ '.' :: (if tail.isEmpty then ['0'] else tail)

def scientific (style : Style) (digits : List Char) (lead : Int) : List Char :=
  let tail := digits.drop 1
  digits.take 1 ++ (if tail.isEmpty then [] else '.' :: tail) ++ 'e' :: exponentText style lead

def magnitude (style : Style) (x : Binary) : List Char :=
  if x.mantissa = 0 then ['0', '.', '0']
  else
    let d := shortest x
    let lead : Int := d.power + (digitsOf d.digits).length - 1
    let digits := normalDigits d
    if style.least ≤ lead && lead < style.limit then positional digits lead
    else scientific style digits lead

def Binary.text (x : Binary) : String :=
  String.ofList ((if x.negative then ['-'] else []) ++ magnitude plain x)

def intText (n : Int) : String :=
  String.ofList ((if n < 0 then ['-'] else []) ++ digitsOf n.natAbs)

end SafetyCase.Decimal
