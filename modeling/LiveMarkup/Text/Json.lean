import LiveMarkup.Text.Quoted
/-! String literals of JSON, in ASCII alone. The script variant never writes `</`, so that a literal
cannot end the script element around it. -/
namespace LiveMarkup.Text.Json

def units (c : Char) : List Nat :=
  if c.toNat < 0x10000 then [c.toNat]
  else
    let n := c.toNat - 0x10000
    [0xd800 + n / 0x400, 0xdc00 + n % 0x400]

def escapeChar (c : Char) : List Char :=
  if c == '"' then ['\\', '"']
  else if c == '\\' then ['\\', '\\']
  else if c == '\n' then ['\\', 'n']
  else if c == '\r' then ['\\', 'r']
  else if c == '\t' then ['\\', 't']
  else if c == '\x0c' then ['\\', 'f']
  else if c == '\x08' then ['\\', 'b']
  else if 32 ≤ c.toNat ∧ c.toNat < 127 then [c]
  else (units c).flatMap fun u => '\\' :: 'u' :: hexDigits 4 u

def encode (s : List Char) : List Char := '"' :: s.flatMap escapeChar ++ ['"']

def guardClosing : List Char → List Char
  | '<' :: '/' :: rest => '<' :: '\\' :: '/' :: guardClosing rest
  | c :: rest => c :: guardClosing rest
  | [] => []

end Json

def jsString (s : String) : String := String.ofList (Json.guardClosing (Json.encode s.toList))

end LiveMarkup.Text
