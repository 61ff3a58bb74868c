import LiveMarkup.Report.Guard
import LiveMarkup.Site.Basic
/-! Answers to the requests that a site gets. -/
namespace LiveMarkup
open Render Report

structure Request where
  method : String
  path : String
  deriving DecidableEq, Repr

structure Response where
  status : Nat
  contentType? : Option String
  body : String
  deriving DecidableEq, Repr

structure Reply where
  response : Response
  raised? : Option SiteError := none
  deriving DecidableEq, Repr

namespace Response

def html (status : Nat) (body : String) : Response :=
  ⟨status, some "text/html; charset=utf-8", body⟩

def plain (status : Nat) (body : String) : Response :=
  ⟨status, some "text/plain; charset=utf-8", body⟩

def redirect : Response := ⟨307, none, ""⟩

def missing : Response := html 404 "<h1>404 Not Found</h1>"

end Response

/-- Pages are on all paths that begin with a slash and go on in one line, at whose end there may be one
line break. -/
def isPagePath (path : String) : Bool :=
  match path.toList with
  | '/' :: rest => !rest.dropLast.contains '\n'
  | _ => false

def otherPath (path : String) : String :=
  if path.toList.getLast? == some '/' then
    String.ofList ((path.toList.reverse.dropWhile (· == '/')).reverse)
  else path ++ "/"

def SiteError.fault (e : SiteError) : Fault :=
  match e with
  | .render (.analysis (.located problem file line)) => .template ⟨problem.message, file, line⟩
  | e => .other e.typeName e.message []

namespace Site

def methods : List String := ["GET", "HEAD"]

def respondPage (s : Site) (d : Directory) (path : String) (page : Page) : Reply × Page :=
  let (result, page) := s.renderPath path (some path) page
  let reply : Reply :=
    match result with
    | .ok output => ⟨.html 200 output, none⟩
    | .error (.notFound _) => ⟨.missing, none⟩
    | .error e =>
      if s.debug then ⟨.html faultStatus (faultPage d e.fault), none⟩
      else ⟨.plain 500 "Internal Server Error", some e⟩
  (reply, page)

def respond (s : Site) (d : Directory) (r : Request) (page : Page) : Reply × Page :=
  if isPagePath r.path then
    if methods.contains r.method then s.respondPage d r.path page
    else (⟨.plain 405 "Method Not Allowed", none⟩, page)
  else if r.path ≠ "/" ∧ isPagePath (otherPath r.path) then (⟨.redirect, none⟩, page)
  else (⟨.plain 404 "Not Found", none⟩, page)

end Site

end LiveMarkup
