import SolanaPrograms.Runtime.Account

/-!
# Amounts as decimal text

The conversions between raw amounts and their UI representation that the token program
offers as instructions. Strings are lists of characters; only the place where the source
measures a string in bytes depends on the encoding.
-/

namespace SolanaPrograms.Token

open Outcome SolanaPrograms.Runtime

/-- `amount_to_ui_amount_string`: the digits, padded with zeros to at least `decimals + 1`
places, with a point before the last `decimals` of them. -/
def amountToUiAmountString (amount : UInt64) (decimals : UInt8) : List Char :=
  let decimals := decimals.toNat
  let digits := Nat.toDigits 10 amount.toNat
  if 0 < decimals then
    let s := .replicate (decimals + 1 - digits.length) '0' ++ digits
    s.take (s.length - decimals) ++ '.' :: s.drop (s.length - decimals)
  else digits

def trimEndMatches (c : Char) (s : List Char) : List Char := s.rdropWhile (· = c)

def amountToUiAmountStringTrimmed (amount : UInt64) (decimals : UInt8) : List Char :=
  let s := amountToUiAmountString amount decimals
  if 0 < decimals then trimEndMatches '.' (trimEndMatches '0' s) else s

def byteLength (s : List Char) : Nat := (s.map Char.utf8Size).sum

/-- One digit of `u64::from_str`: multiply and add, both checked. -/
def pushDigit (value : UInt64) (c : Char) : Option UInt64 :=
  if c.isDigit then
    let next := value.toNat * 10 + (c.toNat - '0'.toNat)
    if next < 2 ^ 64 then some (UInt64.ofNat next) else none
  else none

/-- `str::parse::<u64>`: an optional plus sign, then at least one digit. -/
def parseU64 : List Char → Option UInt64
  | [] => none
  | ['+'] => none
  | '+' :: digits => digits.foldlM pushDigit 0
  | digits => digits.foldlM pushDigit 0

def tryUiAmountIntoAmount (uiAmount : List Char) (decimals : UInt8) : Except Fault UInt64 := do
  let decimals := decimals.toNat
  let parts := uiAmount.splitOn '.'
  let amountStr := parts.headD []
  let afterDecimal := trimEndMatches '0' (parts.tail.headD [])
  failIf ((amountStr = [] ∧ afterDecimal = []) ∨ 2 < parts.length ∨
    decimals < byteLength afterDecimal) (.err .invalidArgument)
  -- the zeros that are missing to the right of the given decimals
  let zeros := .replicate (decimals - byteLength afterDecimal) '0'
  okOr (parseU64 (amountStr ++ afterDecimal ++ zeros)) (.err .invalidArgument)

example : amountToUiAmountString 1234 2 = ['1', '2', '.', '3', '4'] := by decide +kernel

example : tryUiAmountIntoAmount ['.', '5', '0'] 3 = .ok 500 := by decide +kernel

end SolanaPrograms.Token
