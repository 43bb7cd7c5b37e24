import Canals.Text.Regex

/-! `redactString`: card numbers in a text are masked, api keys in a query string
replaced. The text is generic in what carries a character, so that the same code
runs on plain characters and on characters that remember where they stood. -/
namespace Canals
open Regex

def isDigit (c : Char) : Bool := '0' ≤ c && c ≤ '9'

def isSeparator (c : Char) : Bool := c = ' ' || c = '-'

/-- `\s` -/
def isWhitespace (c : Char) : Bool :=
  ('\t' ≤ c && c ≤ '\r') || c = ' ' || c.toNat ∈ [0xa0, 0x1680, 0x2028, 0x2029, 0x202f, 0x205f,
    0x3000, 0xfeff] || (0x2000 ≤ c.toNat && c.toNat ≤ 0x200a)

/-- A letter of a pattern with the flag `i`. -/
def letter (lower : Char) : Regex Char := .set fun c => c = lower || c = lower.toUpper

/-- `(?:\d[ -]?){12,18}\d` -/
def CARD_NUMBER_VALUE_PATTERN : Regex Char :=
  .seq (.times (.seq (.set isDigit) (.opt (.set isSeparator))) 12 6) (.set isDigit)

/-- `[?&]api_?key=`, the first group. -/
def API_KEY_PREFIX : Regex Char :=
  .seq (.set fun c => c = '?' || c = '&') <| .seq (letter 'a') <| .seq (letter 'p') <|
  .seq (letter 'i') <| .seq (.opt (.set (· = '_'))) <| .seq (letter 'k') <| .seq (letter 'e') <|
  .seq (letter 'y') <| .set (· = '=')

/-- `[^&\s]`, repeated in the second group. -/
def isKeyCharacter (c : Char) : Bool := !(c = '&' || isWhitespace c)

def API_KEY_QUERY_PATTERN : Regex Char := .seq API_KEY_PREFIX (.plus isKeyCharacter)

def REDACTED_SECRET : List Char := "[REDACTED]".toList

/-- The sum of the digits and whether the next one is doubled. -/
def luhnStep (state : Nat × Bool) (c : Char) : Nat × Bool :=
  let digit := c.toNat - '0'.toNat
  let digit := if state.2 then (if digit * 2 > 9 then digit * 2 - 9 else digit * 2) else digit
  (state.1 + digit, !state.2)

def isLuhnValid (digits : List Char) : Bool :=
  (digits.reverse.foldl luhnStep (0, false)).1 % 10 = 0

/-- What carries a character. -/
structure Ink (G : Type) where
  read : G → Char
  write : Char → G

namespace Ink
variable {G : Type} (ink : Ink G)

def maskDigits (digits : List G) : List G :=
  let last4 := digits.drop (digits.length - 4)
  List.replicate (digits.length - last4.length) (ink.write '*') ++ last4

def maskMatch (match_ : List G) : List G :=
  let digits := match_.filter fun g => isDigit (ink.read g)
  if digits.length < 13 || digits.length > 19 || !isLuhnValid (digits.map ink.read) then match_
  else ink.maskDigits digits

def redactKey (match_ : List G) : List G :=
  match_.take ((API_KEY_PREFIX.matched (match_.map ink.read)).getD 0) ++
    REDACTED_SECRET.map ink.write

def redactString (value : List G) : List G :=
  let withMaskedCardNumbers :=
    replace CARD_NUMBER_VALUE_PATTERN.matched ink.read ink.maskMatch value
  replace API_KEY_QUERY_PATTERN.matched ink.read ink.redactKey withMaskedCardNumbers

end Ink

def plain : Ink Char := ⟨id, id⟩

/-- `redact` of a string. -/
def redact (input : String) : String := String.ofList (plain.redactString input.toList)

example : redact "card 4242 4242 4242 4242 failed" = "card ************4242 failed" := by
  decide +kernel

end Canals
