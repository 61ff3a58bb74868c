import LiveMarkup.Site.Basic
/-! Where commands find the site they are about: the modules that can be imported. -/
namespace LiveMarkup.Command

inductive Module where
  | app (s : Site)
  | bare
  | broken (reason : String)

structure Workspace where
  modules : List (String × Module) := []
  processors : Nat := 1

inductive LocateError where
  | noColon
  | emptyName
  | relative (name : String)
  | notImported (name reason : String)
  | noMember (name member : String)
  deriving DecidableEq, Repr

namespace LocateError

def message : LocateError → String
  | noColon => "App must be in format 'module:app'"
  | emptyName => "Empty module name"
  | relative name =>
    "the 'package' argument is required to perform a relative import for " ++ Text.quoted name
  | notImported name reason => "Could not import module '" ++ name ++ "': " ++ reason
  | noMember name member => "Attribute '" ++ member ++ "' not found in module '" ++ name ++ "'"

def typeName : LocateError → String
  | emptyName => "ValueError"
  | relative _ => "TypeError"
  | _ => "BadParameter"

end LocateError

namespace Workspace

def isPackage (w : Workspace) (name : String) : Bool :=
  w.modules.any fun (other, _) => (name ++ ".").toList.isPrefixOf other.toList

def module? (w : Workspace) (name : String) : Option Module :=
  match w.modules.lookup name with
  | some m => some m
  | none => if w.isPackage name then some .bare else none

def importFrom (w : Workspace) (done? : Option String) : List (List Char) → Except String Module
  | [] => .error "No module named ''"
  | part :: rest =>
    let name := match done? with
      | none => String.ofList part
      | some done => done ++ "." ++ String.ofList part
    let missing := "No module named " ++ Text.quoted name
    match done?.filter (!w.isPackage ·) with
    | some package => .error (missing ++ "; " ++ Text.quoted package ++ " is not a package")
    | none =>
      match w.module? name with
      | none => .error missing
      | some (.broken reason) => .error reason
      | some m => if rest.isEmpty then .ok m else w.importFrom (some name) rest

def importModule (w : Workspace) (name : String) : Except String Module :=
  w.importFrom none (Text.splitAt '.' name.toList)

def locate (w : Workspace) (target : String) : Except LocateError Site := do
  if !target.toList.contains ':' then throw .noColon
  let (name, member) := Text.cutAt ':' target.toList
  let (name, member) := (String.ofList name, String.ofList member)
  if name.isEmpty then throw .emptyName
  if name.toList.head? == some '.' then throw (.relative name)
  match w.importModule name with
  | .error reason => throw (.notImported name reason)
  | .ok (.app site) => if member == "app" then return site else throw (.noMember name member)
  | .ok _ => throw (.noMember name member)

def usualModules : List String := ["main", "app", "src.main", "src.app"]

def discover? (w : Workspace) : Option String :=
  (usualModules.find? fun name =>
    match w.importModule name with
    | .ok (.app _) => true
    | _ => false).map (· ++ ":app")

end Workspace

end LiveMarkup.Command
