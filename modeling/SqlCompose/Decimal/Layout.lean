import SqlCompose.Decimal.Shortest

/-! # Decimal layout — how the shortest digits of a number are written down

    The digits `d₁d₂…dₙ` with the decimal point after the first `point` of them are written
    positionally if `point` lies in a window, and as `d₁.d₂…dₙe±x` outside it. A whole number keeps
    one zero after the point. What differs between formats is one `Layout` value. -/

namespace SqlCompose.Decimal

/-- The choices of one decimal format. -/
structure Layout where
  /-- Positional notation is used when the point comes after more than this many digits … -/
  above : Int
  /-- … and after at most this many. -/
  upTo : Int
  /-- Whether a positive exponent carries its sign. -/
  plusSign : Bool
  /-- Which of two equally near shortest decimals is written. -/
  tie : Tie

/-- Writes digits positionally, the point after the first `point` of them. -/
def positional (digits : List Char) (point : Int) : List Char :=
  if point ≤ 0 then '0' :: '.' :: List.replicate (-point).toNat '0' ++ digits
  else
    let whole := point.toNat
    if digits.length ≤ whole then
      digits ++ List.replicate (whole - digits.length) '0' ++ ['.', '0']
    else digits.take whole ++ '.' :: digits.drop whole

/-- Writes digits with one of them before the point and a power of ten behind. -/
def scientific (plusSign : Bool) (digits : List Char) (point : Int) : List Char :=
  let exponent := point - 1
  let mantissa :=
    match digits with
    | first :: second :: rest => first :: '.' :: second :: rest
    | short => short
  let sign := if plusSign && 0 ≤ exponent then ['+'] else []
  mantissa ++ 'e' :: sign ++ (toString exponent).toList

/-- The text of a number. What is not finite is `NaN`, `inf` or `-inf`. -/
def Layout.write (layout : Layout) (x : Binary64) : String :=
  if x.isNaN then "NaN"
  else
    let sign := if x.isNegative then "-" else ""
    if !x.isFinite then sign ++ "inf"
    else if x.significand = 0 then sign ++ "0.0"
    else
      let (number, exponent) := shortest layout.tie x
      let digits := Nat.toDigits 10 number
      let point : Int := digits.length + exponent
      let body :=
        if layout.above < point && point ≤ layout.upTo then positional digits point
        else scientific layout.plusSign digits point
      sign ++ String.ofList body

end SqlCompose.Decimal
