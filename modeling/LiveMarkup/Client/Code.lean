/-! Client code by the parts it is written from. Fields of the component, the component itself and
variables are kept apart from the text around them, and so is every function. -/
namespace LiveMarkup.Client

inductive Code where
  | text (s : String)
  | access (field shown : String)
  | component
  | variable (id shown : String)
  | arrow (params : List String) (listed : Bool) (body : Code)
  | join (first second : Code)
  deriving DecidableEq, Repr

def parens (text : String) : String := "(" ++ text ++ ")"

def commas (parts : List String) : String := ", ".intercalate parts

namespace Code

instance : Append Code := ⟨join⟩

instance : Coe String Code := ⟨text⟩

def paramsText (params : List String) (listed : Bool) : String :=
  parens (if listed then "[" ++ commas params ++ "]" else commas params)

def write : Code → String
  | text s => s
  | access _ shown => "this." ++ shown
  | component => "this"
  | «variable» _ shown => shown
  | arrow params listed body => paramsText params listed ++ " => " ++ body.write
  | join first second => first.write ++ second.write

def separated (sep : String) : List Code → Code
  | [] => text ""
  | [c] => c
  | c :: rest => c ++ text sep ++ separated sep rest

def concat : List Code → Code
  | [] => text ""
  | c :: rest => c ++ concat rest

def group (c : Code) : Code := text "(" ++ c ++ text ")"

def arguments (args : List Code) : Code := group (separated ", " args)

end Code

end LiveMarkup.Client
