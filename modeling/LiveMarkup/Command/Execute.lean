import LiveMarkup.Command.Arguments
import LiveMarkup.Command.Workspace
/-! The commands: `dev` and `run` serve a site, `render` writes one of its pages. -/
namespace LiveMarkup.Command
open Render

inductive CommandError where
  | usage (e : UsageError)
  | locate (e : LocateError)
  | noSite
  | site (e : SiteError)
  deriving DecidableEq, Repr

namespace CommandError

def message : CommandError → String
  | usage e => e.message
  | locate e => e.message
  | noSite =>
    "Could not auto-discover app. Please provide 'APP' argument (e.g. 'main:app')."
  | site e => e.message

def typeName : CommandError → String
  | usage e => e.typeName
  | locate e => e.typeName
  | noSite => "UsageError"
  | site e => if e.isForeseen then "ClickException" else e.typeName

def exitCode? : CommandError → Option Nat
  | usage _ => some 2
  | locate e => if e.typeName = "BadParameter" then some 2 else none
  | noSite => some 2
  | site e => if e.isForeseen then some 1 else none

end CommandError

inductive Service where
  | development (target host : String) (port : Int) (logLevel : String)
  | production (target host : String) (port workers : Int) (accessLog : Bool) (logLevel : String)
  deriving DecidableEq, Repr

inductive Outcome where
  | help
  | version
  | done (output : String) (service? : Option Service)
  deriving DecidableEq, Repr

inductive Name where
  | dev
  | run
  | render
  deriving DecidableEq, Repr

namespace Name

def read? (s : String) : Option Name :=
  if s == "dev" then some dev
  else if s == "run" then some run
  else if s == "render" then some render
  else none

def logLevels : List String := ["critical", "error", "warning", "info", "debug"]

def options : Name → List OptionSpec
  | dev =>
    [⟨"--host", .text⟩, ⟨"--port", .whole⟩, ⟨"--log-level", .choice logLevels⟩, ⟨"--help", .flag⟩]
  | run =>
    [⟨"--host", .text⟩, ⟨"--port", .whole⟩, ⟨"--workers", .whole⟩, ⟨"--no-access-log", .flag⟩,
      ⟨"--log-level", .choice logLevels⟩, ⟨"--help", .flag⟩]
  | render => [⟨"--help", .flag⟩]

def arguments : Name → List ArgumentSpec
  | dev | run => [⟨"app", false⟩]
  | render => [⟨"app", true⟩, ⟨"path", false⟩]

end Name

def targetOr (w : Workspace) (argument? : Option String) : Except CommandError (String × String) :=
  match argument?.filter (!·.isEmpty) with
  | some target => .ok (target, "")
  | none =>
    match w.discover? with
    | some target => .ok (target, "🔍 Auto-discovered app: " ++ target ++ "\n")
    | none => .error .noSite

def address (host : String) (port : Int) : String := "http://" ++ host ++ ":" ++ toString port

def usualWorkers (w : Workspace) : Int := w.processors * 2 + 1

def executeDev (w : Workspace) (s : Settings) (argument? : Option String) :
    Except CommandError Outcome := do
  let (target, found) ← targetOr w argument?
  let _ ← (w.locate target).mapError .locate
  let host := s.text "--host" "127.0.0.1"
  let port := s.whole "--port" 3000
  return .done (found ++ "🚀 Starting zinc dev server on " ++ address host port ++ "\n")
    (some (.development target host port (s.text "--log-level" "debug")))

def executeRun (w : Workspace) (s : Settings) (argument? : Option String) :
    Except CommandError Outcome := do
  let (target, found) ← targetOr w argument?
  let host := s.text "--host" "0.0.0.0"
  let port := s.whole "--port" 8000
  let workers := s.whole "--workers" (usualWorkers w)
  let _ ← (w.locate target).mapError .locate
  return .done
    (found ++ "🚀 Starting production server for " ++ target ++ "\n🌍 Listening on " ++ address host port ++
      "\n👷 Workers: " ++ toString workers ++ "\n")
    (some (.production target host port workers (!s.isOn "--no-access-log") (s.text "--log-level" "info")))

def executeRender (w : Workspace) (page : Page) (target path : String) :
    Except CommandError Outcome := do
  let site ← (w.locate target).mapError .locate
  match (site.renderPath path none page).1 with
  | .ok output => return .done (output ++ "\n") none
  | .error e => throw (.site e)

def executeNamed (w : Workspace) (page : Page) (name : Name) (arguments : List String) :
    Except CommandError Outcome := do
  let given ← (scan name.options true arguments).mapError .usage
  if given.options.any (·.1.name == "--help") then return .help
  let settings ← (readSettings given.options).mapError .usage
  (checkRest name.arguments given.rest).mapError .usage
  match name with
  | .dev => executeDev w settings given.rest.head?
  | .run => executeRun w settings given.rest.head?
  | .render => executeRender w page (given.rest.headD "") (given.rest[1]?.getD "/")

def programOptions : List OptionSpec := [⟨"--version", .flag⟩, ⟨"--help", .flag⟩]

def asked? (g : Given) : Option Outcome :=
  g.options.head?.map fun (spec, _) => if spec.name == "--version" then .version else .help

def mayBeOption (name : String) : Bool :=
  match name.toList with
  | c :: _ => !Text.isWord c || c == '_'
  | [] => false

def execute (w : Workspace) (page : Page) (arguments : List String) : Except CommandError Outcome := do
  if arguments.isEmpty then return .help
  let given ← (scan programOptions false arguments).mapError .usage
  match asked? given with
  | some outcome => return outcome
  | none =>
    match given.rest with
    | [] => throw (.usage .noCommand)
    | name :: rest =>
      match Name.read? name with
      | some command => executeNamed w page command rest
      | none =>
        if mayBeOption name then
          let again ← (scan programOptions false given.rest).mapError .usage
          match asked? again with
          | some outcome => return outcome
          | none => throw (.usage (.noSuchCommand name))
        else throw (.usage (.noSuchCommand name))

end LiveMarkup.Command
