import GraphSql.Text.Hex

/-!
# Escaped — the text between the quotes of a JSON string

* `encode` — only the quote, the backslash and the control characters are escaped;
* `decode` — undo every escape; a surrogate that is not half of a pair denotes no character;
* `scan?` — the escaped text up to the closing quote, checked as far as the grammar goes: it has no
  control characters and every escape is one of the nine forms.
-/

namespace GraphSql
namespace Json
namespace Escaped

/-! ## Writing -/

def encodeChar (c : Char) : List Char :=
  if c = '"' then ['\\', '"']
  else if c = '\\' then ['\\', '\\']
  else if c = '\x08' then ['\\', 'b']
  else if c = '\t' then ['\\', 't']
  else if c = '\n' then ['\\', 'n']
  else if c = '\x0c' then ['\\', 'f']
  else if c = '\r' then ['\\', 'r']
  else if c.toNat < 32 then
    ['\\', 'u', '0', '0', Text.hexDigit (c.toNat / 16), Text.hexDigit (c.toNat % 16)]
  else [c]

def encode (cs : List Char) : List Char :=
  cs.flatMap encodeChar

/-! ## Escapes -/

/-- Four hexadecimal digits. -/
def unit? (a b c d : Char) : Option Nat := do
  let a ← Text.hexValue? a
  let b ← Text.hexValue? b
  let c ← Text.hexValue? c
  let d ← Text.hexValue? d
  return ((a * 16 + b) * 16 + c) * 16 + d

/-- The escapes of one character. -/
def short? : Char → Option Char
  | '"' => some '"'
  | '\\' => some '\\'
  | '/' => some '/'
  | 'b' => some '\x08'
  | 'f' => some '\x0c'
  | 'n' => some '\n'
  | 'r' => some '\r'
  | 't' => some '\t'
  | _ => none

/-! ## Reading -/

/-- What an escaped text is made of: characters, and units of sixteen bits in hexadecimal. -/
inductive Part
  | char (c : Char)
  | unit (n : Nat)
  deriving DecidableEq, Repr

def parts? : List Char → Option (List Part)
  | [] => some []
  | '\\' :: 'u' :: a :: b :: c :: d :: cs => do
      let n ← unit? a b c d
      let more ← parts? cs
      return .unit n :: more
  | '\\' :: c :: cs => do
      let first ← short? c
      let more ← parts? cs
      return .char first :: more
  | c :: cs => do
      let more ← parts? cs
      return .char c :: more

def isHigh (unit : Nat) : Bool :=
  0xD800 ≤ unit && unit ≤ 0xDBFF

def isLow (unit : Nat) : Bool :=
  0xDC00 ≤ unit && unit ≤ 0xDFFF

/-- A high surrogate has to be followed by a low one, and the two are one character. -/
def join? : List Part → Option (List Char)
  | [] => some []
  | .char c :: ps => (join? ps).map (c :: ·)
  | .unit n :: ps =>
      if isLow n then none
      else if isHigh n then
        match ps with
        | .unit m :: ps =>
            if isLow m then
              (join? ps).map (Char.ofNat (0x10000 + (n - 0xD800) * 0x400 + (m - 0xDC00)) :: ·)
            else none
        | _ => none
      else
        (join? ps).map (Char.ofNat n :: ·)

def decode (cs : List Char) : Option (List Char) := do
  join? (← parts? cs)

def scan? : List Char → Option (List Char × List Char)
  | [] => none
  | '"' :: cs => some ([], cs)
  -- Whether surrogates pair up is only asked when the text is decoded.
  | '\\' :: 'u' :: a :: b :: c :: d :: cs => do
      let _ ← unit? a b c d
      let (written, rest) ← scan? cs
      return ('\\' :: 'u' :: a :: b :: c :: d :: written, rest)
  | '\\' :: c :: cs => do
      let _ ← short? c
      let (written, rest) ← scan? cs
      return ('\\' :: c :: written, rest)
  | c :: cs =>
      if c.toNat < 32 then none
      else do
        let (written, rest) ← scan? cs
        return (c :: written, rest)

end Escaped
end Json
end GraphSql
