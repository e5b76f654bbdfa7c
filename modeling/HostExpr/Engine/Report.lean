import HostExpr.Engine.Error
import HostExpr.Text.Basic

/-!
# Error reports

How an error is shown to the one who wrote the source. An error of the source is shown below the line it is in, with
its span marked; all others take a line.
-/

namespace HostExpr

/-- The same character some times over. -/
def repeated (n : Nat) (c : Char) : String := String.ofList (List.replicate n c)

/-- The mark below a span: the span underlined, with a branch at `tip`, or a single stroke for an empty one. -/
def underline (width tip : Nat) : String :=
  if width = 0 then "│ " else repeated tip '─' ++ "┬" ++ repeated (width - tip - 1) '─' ++ "  "

/-- The line from the mark to the message. -/
def pointer (width tip : Nat) : String := "╰" ++ repeated (if width = 0 then 1 else width - tip + 1) '─'

/-- The report of an error in a source of one line. -/
def CompileError.report (e : CompileError) (source : String) : String :=
  let width := e.span.stop - e.span.start
  -- the branch of the mark stands below the middle of the span
  let tip := width / 2
  let margin := "   │ "
  let message := e.cause.message
  let help :=
    match e.cause.help? with
    | some help => [margin, margin ++ "Help: " ++ help]
    | none => []
  let lines :=
    ["[" ++ e.cause.code ++ "] Error: " ++ message,
      "   ╭─[ <expr>:1:" ++ natText (e.span.start + 1) ++ " ]",
      "   │",
      " 1 │ " ++ String.ofList (trimEnd source.toList),
      margin ++ repeated e.span.start ' ' ++ underline width tip,
      margin ++ repeated (e.span.start + tip) ' ' ++ pointer width tip ++ " " ++ message]
    ++ help ++ ["───╯"]
  String.join (lines.map (· ++ "\n"))

/-- The report of a failure to compile or run a source. -/
def EngineError.report (e : EngineError) (source : String) : String :=
  match e with
  | compile e => e.report source
  | stopped (.runtime (.conversion e)) => "Conversion error: " ++ e.message ++ "\n"
  | stopped (.runtime e) => "Runtime error: " ++ e.message ++ "\n"
  | stopped s => "Resource limit exceeded: " ++ s.message ++ "\n"
  | image e => "Persistence error: " ++ e.message ++ "\n"
  | misuse m => "API error: " ++ m.message ++ "\n"

end HostExpr
