import CairoForge.Binary64.Shortest

/-!
# Text of numbers

A number is written with the fewest digits that read back. Everything else about
its text — which exponents are written out, whether a point is kept, the words
for what is no finite number — is a decision of the place that writes it, held
in one record.

## Main definitions

* `NumberStyle` — the decisions.
* `Binary64.text` — the text of a number in a style.
-/

namespace CairoForge

/-- How numbers are written in one kind of text. -/
structure NumberStyle where
  /-- Is a number whose leading digit stands at this power of ten written without
  an exponent? -/
  isPlain : Int → Bool
  /-- Is an integral number written with a point and a zero? -/
  keepPoint : Bool
  /-- Which of two equally near shortest decimals is written. -/
  tie : Tie
  /-- The text of what is no number. -/
  nan : String
  /-- The text of an infinity, given whether it is negative. -/
  infinite : Bool → String

/-- A row of zeros. -/
def zeros (n : Nat) : String :=
  String.ofList (List.replicate n '0')

/-- The decimal digits of a natural. -/
def decimalDigits (n : Nat) : List Char :=
  Nat.toDigits 10 n

/-- The decimal text of an integer. -/
def decimalText (n : Int) : String :=
  (if n < 0 then "-" else "") ++ String.ofList (decimalDigits n.natAbs)

namespace NumberStyle

/-- Digits whose last one stands at `10 ^ e`, written without an exponent. -/
def plain (style : NumberStyle) (ds : List Char) (e : Int) : String :=
  if 0 ≤ e then
    String.ofList ds ++ zeros e.toNat ++ (if style.keepPoint then ".0" else "")
  else if -e < ds.length then
    let whole := ds.length - (-e).toNat
    String.ofList (ds.take whole) ++ "." ++ String.ofList (ds.drop whole)
  else
    "0." ++ zeros ((-e).toNat - ds.length) ++ String.ofList ds

/-- Digits whose leading one stands at `10 ^ lead`, written with an exponent. -/
def scientific (ds : List Char) (lead : Int) : String :=
  let fraction := ds.drop 1
  String.ofList (ds.take 1) ++
    (if fraction.isEmpty then "" else "." ++ String.ofList fraction) ++
    "e" ++ (if lead < 0 then "" else "+") ++ decimalText lead

/-- The text of a positive decimal. -/
def decimal (style : NumberStyle) (d : Decimal) : String :=
  let ds := decimalDigits d.digits
  let lead := d.exponent + ds.length - 1
  if style.isPlain lead then style.plain ds d.exponent else scientific ds lead

end NumberStyle

/-- The text of a number: its sign, then the shortest decimal of its magnitude. -/
def Binary64.text (style : NumberStyle) (x : Binary64) : String :=
  match x.datum with
  | .nan => style.nan
  | .infinite negative => style.infinite negative
  | .finite negative m q =>
    (if negative then "-" else "") ++
      (if m = 0 then style.plain ['0'] 0
       else style.decimal ((Magnitude.ofBinary64 m q).shortest style.tie).trim)

end CairoForge
