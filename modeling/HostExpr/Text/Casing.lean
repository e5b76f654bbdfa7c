import HostExpr.Text.CaseTable

/-!
# Upper and lower case

Whole texts are mapped letter by letter; a letter may become several characters, as `ß` does in upper case. The
only rule that looks around is that of the sigma: at the end of a word its lower-case form is `ς`.
-/

namespace HostExpr

/-- A code moved by a distance. -/
private def movedBy (code : Nat) (distance : Int) : Char := Char.ofNat (code + distance).toNat

/-- The letter in its other case, by the given data. -/
private def mapCase (runs : List CaseRun) (expansions : List (Nat × List Nat)) (c : Char) : List Char :=
  match runs.find? (·.has c.toNat) with
  | some r => [movedBy c.toNat r.distance]
  | none =>
    match expansions.lookup c.toNat with
    | some codes => codes.map Char.ofNat
    | none => [c]

/-- The upper-case form of a character. -/
def upperChar (c : Char) : List Char :=
  if c.toNat < 128 then [c.toUpper] else mapCase upperRuns upperExpansions c

/-- The lower-case form of a character on its own. -/
def lowerChar (c : Char) : List Char :=
  if c.toNat < 128 then [c.toLower] else mapCase lowerRuns lowerExpansions c

/-- Whether the first character that counts for the end of a word has case. -/
private def nextIsCased (cs : List Char) : Bool :=
  match cs.dropWhile fun c => caseIgnorableRanges.has c.toNat with
  | c :: _ => casedRanges.has c.toNat
  | [] => false

/-- The lower-case forms of the characters that follow `before`, which is given backwards. -/
private def lowerFrom : List Char → List Char → List Char
  | _, [] => []
  | before, c :: cs =>
    let here :=
      -- a sigma ends a word if a letter with case goes before it and none follows
      if c = 'Σ' then (if nextIsCased before && !nextIsCased cs then ['ς'] else ['σ']) else lowerChar c
    here ++ lowerFrom (c :: before) cs

/-- A text in upper case. -/
def upperCase (s : String) : String := String.ofList (s.toList.flatMap upperChar)

/-- A text in lower case. -/
def lowerCase (s : String) : String := String.ofList (lowerFrom [] s.toList)

/-- A name with its first letter in upper case, if it has a letter. -/
def capitalized? (name : String) : Option String :=
  match name.toList with
  | [] => none
  | c :: cs => some (String.ofList (upperChar c ++ cs))

end HostExpr
