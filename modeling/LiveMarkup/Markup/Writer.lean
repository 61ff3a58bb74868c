import LiveMarkup.Markup.Tree
/-! Trees written as markup. Attributes are in the order of their names. -/
namespace LiveMarkup.Markup

def writtenChar (c : Char) : List Char :=
  if c == '&' then ['&', 'a', 'm', 'p', ';']
  else if c == '<' then ['&', 'l', 't', ';']
  else if c == '>' then ['&', 'g', 't', ';']
  else [c]

def writeText (s : String) : String := String.ofList (s.toList.flatMap writtenChar)

def writeQuoted (s : String) : String :=
  let chars := s.toList
  if chars.contains '"' then
    if chars.contains '\'' then
      "\"" ++ String.ofList (chars.flatMap fun c =>
        if c == '"' then ['&', 'q', 'u', 'o', 't', ';'] else [c]) ++ "\""
    else "'" ++ s ++ "'"
  else "\"" ++ s ++ "\""

namespace Attribute

def write (a : Attribute) : String :=
  " " ++ a.name ++ "=" ++ writeQuoted (writeText (a.written?.getD a.value))

def insertByName (a : Attribute) : List Attribute → List Attribute
  | [] => [a]
  | b :: rest => if b.name < a.name then b :: insertByName a rest else a :: b :: rest

def sortByName (attributes : List Attribute) : List Attribute :=
  attributes.foldr insertByName []

end Attribute

def Aside.write (s : String) : Aside → String
  | comment => "<!--" ++ s ++ "-->"
  | doctype => "<!DOCTYPE " ++ s ++ ">\n"
  | cdata => "<![CDATA[" ++ s ++ "]]>"
  | declaration => "<?" ++ s ++ "?>"
  | instruction => "<?" ++ s ++ ">"

namespace Node

mutual

def write (raw : Bool) : Node → String
  | text (.aside kind) s => kind.write s
  | text _ s => if raw then s else writeText s
  | element name attributes children =>
    let start := "<" ++ name ++ String.join ((Attribute.sortByName attributes).map (·.write))
    if children.isEmpty && isVoid name then start ++ "/>"
    else start ++ ">" ++ writeAll (Reader.rawElements.contains name) children ++ "</" ++ name ++ ">"

def writeAll (raw : Bool) : List Node → String
  | [] => ""
  | n :: rest => write raw n ++ writeAll raw rest

end

end Node

def writeTree (nodes : List Node) : String := Node.writeAll false nodes

end LiveMarkup.Markup
