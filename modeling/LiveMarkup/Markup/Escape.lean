/-! Text made safe for markup. -/
namespace LiveMarkup.Markup

def escapeChar (c : Char) : List Char :=
  if c == '&' then ['&', 'a', 'm', 'p', ';']
  else if c == '<' then ['&', 'l', 't', ';']
  else if c == '>' then ['&', 'g', 't', ';']
  else if c == '"' then ['&', 'q', 'u', 'o', 't', ';']
  else [c]

def escape (s : String) : String := String.ofList (s.toList.flatMap escapeChar)

def escapeQuotesChar (c : Char) : List Char :=
  if c == '"' then ['&', '#', '3', '4', ';']
  else if c == '\'' then ['&', '#', '3', '9', ';']
  else escapeChar c

def escapeQuotes (s : String) : String := String.ofList (s.toList.flatMap escapeQuotesChar)

end LiveMarkup.Markup
