import Mathlib.Data.List.Basic

namespace Foundation.Numerals

inductive NumErr where
  | badSyntax
  | outOfRange
  deriving DecidableEq, Repr

structure Letters (α : Type) where
  digit : α → Option Nat
  plus : α
  minus : α

def ofBytes : Letters UInt8 := ⟨fun c => if 0x30 ≤ c ∧ c ≤ 0x39 then some (c.toNat - 0x30) else none,0x2b,0x2d⟩

def ofChars : Letters Char := ⟨fun c => if c.isDigit then some (c.toNat - '0'.toNat) else none,'+','-'⟩

-- The digits of a number below 2^64. What has become too large is reported before
-- the rest is looked at.
def parseUint (letters : Letters α) (n : Nat) : List α → Except NumErr Nat
  | [] => .ok n
  | c :: rest => match letters.digit c with
      | none => .error .badSyntax
      | some d =>
          if 18446744073709551615 < 10 * n + d then .error .outOfRange else parseUint letters (10 * n + d) rest

def signed (letters : Letters α) (neg : Bool) : List α → Except NumErr Int64
  | [] => .error .badSyntax
  | c :: rest => match parseUint letters 0 (c :: rest) with
      | .error err => .error err
      | .ok un =>
          if !neg ∧ 9223372036854775808 ≤ un then .error .outOfRange
          else if neg ∧ 9223372036854775808 < un then .error .outOfRange
          else .ok (Int64.ofInt (if neg then -(un : Int) else un))

def parseInt [DecidableEq α] (letters : Letters α) : List α → Except NumErr Int64
  | [] => .error .badSyntax
  | c :: rest =>
      if c = letters.plus then signed letters false rest
      else if c = letters.minus then signed letters true rest
      else signed letters false (c :: rest)

end Foundation.Numerals
