import LiveMarkup.Report.Page
/-! The guard of an app under development: a fault in the answer to a request becomes a page. -/
namespace LiveMarkup.Report

inductive Message where
  | start (status : Nat)
  | body (html : String)
  | other (kind : String)
  deriving DecidableEq, Repr

namespace Message

def kind : Message → String
  | start _ => "http.response.start"
  | body _ => "http.response.body"
  | other kind => kind

def status? : Message → Option Nat
  | start status => some status
  | _ => none

def html : Message → String
  | body html => html
  | _ => ""

end Message

structure Run where
  sent : List Message
  fault? : Option Fault
  deriving DecidableEq, Repr

def faultStatus : Nat := 500

def guarded (d : Directory) (scope : String) (run : Run) : Run :=
  match run.fault? with
  | some fault =>
    if scope == "http" then ⟨run.sent ++ [.start faultStatus, .body (faultPage d fault)], none⟩
    else run
  | none => run

end LiveMarkup.Report
