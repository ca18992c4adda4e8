-- SUMMARY: Conversion of texts to numbers by the C++ standard library, with the exceptions it throws.
import NeuroPipeline.Lib.CNumber
import NeuroPipeline.Lib.Fallible

/-!
# Conversion of texts to numbers

`std::stoul` and `std::stof` convert the longest initial part of a text that is a
number; they throw when there is none and when it is out of range. The C
functions under them see the text up to its first NUL.
-/

/-- The exceptions of the standard library that are told apart here. -/
inductive StdException where
  | invalidArgument
  | outOfRange
  | lengthError
  deriving DecidableEq

/-- A converted value, with what is left of the text. -/
structure Conversion (α : Type) where
  value : α
  rest : List Char
  deriving DecidableEq

/-- What `strtof` reads, before it is rounded. -/
inductive Numeral where
  | nan
  | inf (negative : Bool)
  | number (q : ℚ)

/-- Rounding of a numeral; `none` when `strtof` reports a range error. -/
class OfNumeral (F : Type) where
  ofNumeral : Numeral → Option F

namespace Strto

/-! ## Parts of a numeral -/

def isSpace (c : Char) : Bool :=
  c = ' ' || c = '\t' || c = '\n' || c = '\r' || c.toNat = 11 || c.toNat = 12

/-- An optional sign; true for a minus. -/
def sign : List Char → Bool × List Char
  | '-' :: rest => (true, rest)
  | '+' :: rest => (false, rest)
  | rest => (false, rest)

def digit? (base : Nat) (c : Char) : Option Nat :=
  let n :=
    if '0' ≤ c ∧ c ≤ '9' then c.toNat - '0'.toNat
    else if 'a' ≤ c ∧ c ≤ 'f' then c.toNat - 'a'.toNat + 10
    else if 'A' ≤ c ∧ c ≤ 'F' then c.toNat - 'A'.toNat + 10
    else base
  if n < base then some n else none

/-- The digits at the front of a text. -/
def digits (base : Nat) : List Char → List Nat × List Char
  | [] => ([], [])
  | c :: text =>
    match digit? base c with
    | some d => let (ds, rest) := digits base text; (d :: ds, rest)
    | none => ([], c :: text)

def ofDigits (base : Nat) (ds : List Nat) : Nat := ds.foldl (fun n d => n * base + d) 0

/-- The text after a word that is matched in any case. -/
def afterWord : List Char → List Char → Option (List Char)
  | [], text => some text
  | _ :: _, [] => none
  | w :: word, c :: text => if c.toLower = w then afterWord word text else none

/-- Digits with an optional point, as an integer and the number of digits after
the point; at least one digit is needed. -/
def mantissa (base : Nat) (text : List Char) : Option (Nat × Nat × List Char) :=
  let (whole, rest) := digits base text
  let (fraction, rest) :=
    match rest with
    | '.' :: after => digits base after
    | _ => ([], rest)
  if whole.isEmpty && fraction.isEmpty then none
  else some (ofDigits base (whole ++ fraction), fraction.length, rest)

/-- An optional exponent, which counts only when a digit follows. -/
def exponent (marker : Char) (text : List Char) : Int × List Char :=
  match text with
  | [] => (0, text)
  | c :: after =>
    if c.toLower = marker then
      let (negative, after) := sign after
      match digits 10 after with
      | ([], _) => (0, text)
      | (ds, rest) => (if negative then -(ofDigits 10 ds : Int) else ofDigits 10 ds, rest)
    else (0, text)

def afterNanPayload (text : List Char) : List Char :=
  match text with
  | '(' :: inner =>
    match inner.dropWhile fun c => c.isAlphanum || c = '_' with
    | ')' :: rest => rest
    | _ => text
  | _ => text

/-! ## Numerals -/

def hexadecimal (text : List Char) : Option (Conversion ℚ) := do
  let body ← afterWord ['0', 'x'] text
  let (m, k, rest) ← mantissa 16 body
  let (e, rest) := exponent 'p' rest
  return ⟨m / 16 ^ k * 2 ^ e, rest⟩

def decimal (text : List Char) : Option (Conversion ℚ) := do
  let (m, k, rest) ← mantissa 10 text
  let (e, rest) := exponent 'e' rest
  return ⟨m / 10 ^ k * 10 ^ e, rest⟩

/-- The longest numeral at the front of a text. -/
def numeral (text : List Char) : Option (Conversion Numeral) :=
  let (negative, body) := sign (text.dropWhile isSpace)
  match afterWord "infinity".toList body <|> afterWord "inf".toList body with
  | some rest => some ⟨.inf negative, rest⟩
  | none =>
    match afterWord "nan".toList body with
    | some rest => some ⟨.nan, afterNanPayload rest⟩
    | none =>
      (hexadecimal body <|> decimal body).map fun c =>
        ⟨.number (if negative then -c.value else c.value), c.rest⟩

/-- The part of a text that a C string holds, and the rest of the text. -/
def cString (text : String) : List Char × List Char := text.toList.span (· ≠ '\x00')

end Strto

open Strto

/-- `std::stoul` in base 10 for 64 bits. A minus negates modulo `2 ^ 64`. -/
def stoul (text : String) : Except StdException (Conversion Nat) :=
  let (str, beyond) := cString text
  let (negative, body) := sign (str.dropWhile isSpace)
  match digits 10 body with
  | ([], _) => .error .invalidArgument
  | (ds, rest) =>
    let n := ofDigits 10 ds
    if 2 ^ 64 ≤ n then .error .outOfRange
    else .ok ⟨if negative then (2 ^ 64 - n) % 2 ^ 64 else n, rest ++ beyond⟩

/-- `std::stoi` in base 10, for an `int` of 32 bits. -/
def stoi (text : String) : Except StdException (Conversion Int) :=
  let (str, beyond) := cString text
  let (negative, body) := sign (str.dropWhile isSpace)
  match digits 10 body with
  | ([], _) => .error .invalidArgument
  | (ds, rest) =>
    let n : Int := if negative then -(ofDigits 10 ds : Int) else ofDigits 10 ds
    if n < -2 ^ 31 ∨ 2 ^ 31 ≤ n then .error .outOfRange else .ok ⟨n, rest ++ beyond⟩

theorem stoi_bounds {text : String} {n : Conversion Int} (h : stoi text = .ok n) :
    -2 ^ 31 ≤ n.value ∧ n.value < 2 ^ 31 := by
  simp only [stoi] at h
  cases hd : digits 10 (sign ((cString text).1.dropWhile isSpace)).2 with
  | mk ds rest =>
    rw [hd] at h
    cases ds with
    | nil => cases h
    | cons d ds =>
      rw [ite_eq_iff] at h
      obtain ⟨-, ⟨⟩⟩ | ⟨hin, hn⟩ := h
      cases hn
      obtain ⟨hlow, hhigh⟩ := not_or.mp hin
      exact ⟨not_lt.mp hlow, not_le.mp hhigh⟩

def stof {F : Type} [OfNumeral F] (text : String) : Except StdException (Conversion F) :=
  let (str, beyond) := cString text
  match numeral str with
  | none => .error .invalidArgument
  | some ⟨n, rest⟩ =>
    match OfNumeral.ofNumeral n with
    | none => .error .outOfRange
    | some x => .ok ⟨x, rest ++ beyond⟩

namespace BinaryFloat

variable {f : FloatFormat}

/-- The smallest number that uses every digit of the format. -/
def minNormal (f : FloatFormat) : ℚ := 2 ^ (f.minExp + f.precision - 1)

/-- A result that overflows is out of range, and one below the normal numbers
that is not exact. -/
instance : OfNumeral (BinaryFloat f) where
  ofNumeral
    | .nan => some nan
    | .inf negative => some (inf negative)
    | .number q =>
      if h : |roundedValue f q| < overflow f then
        if |q| < minNormal f ∧ roundedValue f q ≠ q then none
        else some (finite (roundedValue f q) (represents_roundedValue h))
      else none

end BinaryFloat
