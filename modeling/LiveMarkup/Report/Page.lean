import LiveMarkup.Analysis.Slot
import LiveMarkup.Markup.Escape
import LiveMarkup.Report.Context
/-! Pages that report a fault to the author of a site, with the lines of source it comes from. -/
namespace LiveMarkup.Report
open Analysis Markup

structure Frame where
  file : String
  line : Int
  function : String
  deriving DecidableEq, Repr

inductive Fault where
  | template (l : Located)
  | other (typeName message : String) (frames : List Frame)
  deriving DecidableEq, Repr

def isFrameworkFile (file : String) : Bool :=
  let s := file.toList
  Text.occurs "src/zinc/".toList s || Text.occurs "site-packages/zinc/".toList s

def isUserFile (file : String) : Bool :=
  !isFrameworkFile file && !Text.occurs "<frozen".toList file.toList

def aboveTitle : String :=
  "<!DOCTYPE html>
<html lang=\"en\">
<head>
  <meta charset=\"utf-8\">
  <title>"

def belowTitle : String :=
  "</title>
  <style>
    body \x7b font-family: ui-sans-serif, system-ui, sans-serif; margin: 0; background: #0f172a; color: #e2e8f0; \x7d
    main \x7b max-width: 960px; margin: 0 auto; padding: 2rem; \x7d
    h1 \x7b color: #22d3ee; font-size: 1.5rem; \x7d
    .message \x7b background: #1e293b; border-left: 4px solid #f43f5e; padding: 1rem; white-space: pre-wrap; \x7d
    .frame \x7b margin: 1.5rem 0; \x7d
    .frame.framework \x7b opacity: 0.6; \x7d
    .location \x7b font-family: ui-monospace, monospace; color: #94a3b8; \x7d
    pre \x7b background: #1e293b; padding: 0.75rem 0; overflow-x: auto; \x7d
    .line \x7b display: block; padding: 0 1rem; \x7d
    .line.current \x7b background: #7f1d1d; \x7d
    .num \x7b display: inline-block; width: 3rem; color: #64748b; \x7d
  </style>
</head>
<body>
  <main>
    "

def belowContent : String :=
  "
  </main>
</body>
</html>"

def page (title content : String) : String :=
  aboveTitle ++ escapeQuotes title ++ belowTitle ++ content ++ belowContent

def writeLine (l : ContextLine) : String :=
  "<span class=\"line" ++ (if l.current then " current" else "") ++ "\"><span class=\"num\">" ++
    toString l.number ++ "</span>" ++ escapeQuotes l.content ++ "</span>\n"

def writeContext (lines : List ContextLine) : String :=
  if lines.isEmpty then "" else "<pre>" ++ String.join (lines.map writeLine) ++ "</pre>"

def writeFrame (className location : String) (lines : List ContextLine) : String :=
  "<div class=\"" ++ className ++ "\">\n  <div class=\"location\">" ++ location ++ "</div>\n  " ++
    writeContext lines ++ "\n</div>\n"

def heading (title message : String) : String :=
  "\n<h1>" ++ escapeQuotes title ++ "</h1>\n<div class=\"message\">" ++ escapeQuotes message ++ "</div>\n"

def frameText (d : Directory) (f : Frame) : String :=
  writeFrame (if isUserFile f.file then "frame" else "frame framework")
    (escapeQuotes (d.shorten f.file) ++ ":" ++ toString f.line ++ " in " ++ escapeQuotes f.function)
    (contextLines d f.file f.line usualRadius)

def templateContent (d : Directory) (l : Located) : String :=
  let file? := l.file.filter (· ≠ "")
  let line? := l.line.filter (· ≠ 0)
  let lines := match file?, line? with
    | some file, some line => contextLines d file line usualRadius
    | _, _ => []
  let place := escapeQuotes ((file?.map d.shorten).getD "unknown file") ++
    (line?.map fun n => ":" ++ toString n).getD ""
  heading "Template Error" l.message ++ writeFrame "frame" place lines

def otherContent (d : Directory) (typeName message : String) (frames : List Frame) : String :=
  let own := frames.getLast?.any fun f => isFrameworkFile f.file
  heading typeName message ++
    (if own then "\n<p>The error was raised inside zinc itself.</p>\n" else "") ++ "\n" ++
    String.join (frames.reverse.map fun f => "\n" ++ frameText d f) ++ "\n"

def faultPage (d : Directory) : Fault → String
  | .template l => page "Template Error" (templateContent d l)
  | .other typeName message frames => page typeName (otherContent d typeName message frames)

end LiveMarkup.Report
