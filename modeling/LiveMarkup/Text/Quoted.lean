import LiveMarkup.Text.Printable
/-! Quoted texts, as a literal of the render source shows them. Single quotes are used unless the
text holds a single quote and no double one. -/
namespace LiveMarkup.Text

def hexChar (n : Nat) : Char :=
  if n < 10 then Char.ofNat ('0'.toNat + n) else Char.ofNat ('a'.toNat + (n - 10))

def hexDigits : (width : Nat) → Nat → List Char
  | 0, _ => []
  | width + 1, n => hexDigits width (n / 16) ++ [hexChar (n % 16)]

namespace Quoted

def quoteFor (s : List Char) : Char :=
  if s.contains '\'' && !s.contains '"' then '"' else '\''

def escapeCode (c : Char) : List Char :=
  if c.toNat < 0x100 then '\\' :: 'x' :: hexDigits 2 c.toNat
  else if c.toNat < 0x10000 then '\\' :: 'u' :: hexDigits 4 c.toNat
  else '\\' :: 'U' :: hexDigits 8 c.toNat

def escapeChar (quote c : Char) : List Char :=
  if c == quote || c == '\\' then ['\\', c]
  else if c == '\t' then ['\\', 't']
  else if c == '\n' then ['\\', 'n']
  else if c == '\r' then ['\\', 'r']
  else if isPrintable c then [c]
  else escapeCode c

def encode (s : List Char) : List Char :=
  let quote := quoteFor s
  quote :: s.flatMap (escapeChar quote) ++ [quote]

def encodeBytes (bytes : List UInt8) : List Char :=
  let s := bytes.map fun b => Char.ofNat b.toNat
  let quote := quoteFor s
  let body := s.flatMap fun c =>
    if c.toNat < 128 then escapeChar quote c else '\\' :: 'x' :: hexDigits 2 c.toNat
  'b' :: quote :: body ++ [quote]

def asciiOnly (s : String) : String :=
  String.ofList (s.toList.flatMap fun c => if c.toNat < 128 then [c] else escapeCode c)

end Quoted

def quoted (s : String) : String := String.ofList (Quoted.encode s.toList)

end LiveMarkup.Text
