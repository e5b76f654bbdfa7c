import HostExpr.Syntax.Build.Stmt

/-!
# From source text to syntax trees

`parse` matches the source against the grammar and builds the statements from the parse tree. A source that does
not match is refused where the match went furthest.
-/

namespace HostExpr.Syntax

/-- Nesting allowed where no limit is given. -/
def defaultMaxDepth : Nat := 500

/-- The syntax error for the attempts that a failed match leaves. -/
def ParseError.ofAttempts (source : List Char) (log : Attempts) : ParseError :=
  let before := (takeBytes log.offset source).length
  ⟨.unexpected log.rules source[before]?, .point log.offset⟩

/-- The statements of a source whose expressions nest at most `limit` deep. -/
def parseWithLimit (limit : Nat) (source : String) : Except ParseError (List Stmt) :=
  match Node.ofSource source.toList with
  | .error log => .error (.ofAttempts source.toList log)
  | .ok (.mk _ _ _ [.mk _ _ _ statements]) => buildStmts limit statements
  | .ok n => failAt n .malformedTree

/-- The statements of a source. -/
def parse (source : String) : Except ParseError (List Stmt) := parseWithLimit defaultMaxDepth source

end HostExpr.Syntax
