import Autolean.Text.JsonValues

/-! The JSON text of a value, in ASCII, without spaces. -/
namespace Autolean.Text
variable {F : Type}

/-- `'{0:04x}'.format(n)`. -/
def hex4 (n : Nat) : List Char :=
  [Nat.digitChar (n / 4096 % 16), Nat.digitChar (n / 256 % 16), Nat.digitChar (n / 16 % 16), Nat.digitChar (n % 16)]

def unicodeEscape (n : Nat) : List Char := '\\' :: 'u' :: hex4 n

/-- The letter that stands for the code point after a backslash. -/
def escapeLetter (c : CodePoint) : Option Char :=
  if c = .ofChar '"' then some '"'
  else if c = .ofChar '\\' then some '\\'
  else if c.val = 0x08 then some 'b'
  else if c.val = 0x0c then some 'f'
  else if c.val = 0x0a then some 'n'
  else if c.val = 0x0d then some 'r'
  else if c.val = 0x09 then some 't'
  else none

def highSurrogate (c : CodePoint) : Nat := 0xd800 + (c.val - 0x10000) / 1024
def lowSurrogate (c : CodePoint) : Nat := 0xdc00 + (c.val - 0x10000) % 1024

def escapeCodePoint (c : CodePoint) : List Char :=
  match escapeLetter c with
  | some letter => ['\\', letter]
  | none =>
    if 0x20 ≤ c.val ∧ c.val ≤ 0x7e then [Char.ofNat c.val]
    else if c.val < 0x10000 then unicodeEscape c.val
    else unicodeEscape (highSurrogate c) ++ unicodeEscape (lowSurrogate c)

def printText (s : PyText) : List Char := '"' :: (s.flatMap escapeCodePoint ++ ['"'])

def printInt (n : Int) : List Char :=
  if n < 0 then '-' :: Nat.toDigits 10 n.natAbs else Nat.toDigits 10 n.natAbs

namespace JsonTree

mutual
def print (floatText : F → List Char) : JsonValue F → List Char
  | .null => ['n', 'u', 'l', 'l']
  | .bool true => ['t', 'r', 'u', 'e']
  | .bool false => ['f', 'a', 'l', 's', 'e']
  | .int n => printInt n
  | .float x => floatText x
  | .str s => printText s
  | .list [] => ['[', ']']
  | .list (v :: items) => '[' :: (print floatText v ++ printItems floatText items)
  | .dict [] => ['{', '}']
  | .dict ((k, v) :: fields) => '{' :: (printText k ++ ':' :: (print floatText v ++ printFields floatText fields))

/-- The rest of a list. -/
def printItems (floatText : F → List Char) : List (JsonValue F) → List Char
  | [] => [']']
  | v :: items => ',' :: (print floatText v ++ printItems floatText items)

/-- The rest of a dict. -/
def printFields (floatText : F → List Char) : List (PyText × JsonValue F) → List Char
  | [] => ['}']
  | (k, v) :: fields => ',' :: (printText k ++ ':' :: (print floatText v ++ printFields floatText fields))
end

/-- `json.dumps(value, ensure_ascii=True, sort_keys=True, separators=(",", ":"))`. -/
def dumps (floatText : F → List Char) (v : JsonValue F) : List Char := v.sortKeys.print floatText

end JsonTree
end Autolean.Text
