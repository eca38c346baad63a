import Hotload.Console.Tag

/-!
Escaping and rendering of marked-up texts, piece by piece. A backslash before a tag makes it plain text, two make a
backslash. A bracket that opens no tag loses a backslash before it, and a single closing backslash is doubled, so texts
with those are not shown as they are.
-/
namespace Hotload.StandIn.Markup

open Console

/-- A tag with the number of backslashes before it, or a stretch of plain text. -/
inductive Piece where
  | plain (s : List Char)
  | tag (backslashes : Nat) (text : List Char)

def pieces (s : List Char) : List Piece :=
  match _found : tagAt (s.dropWhile isBackslash) with
  | some (tag, rest) => .tag (s.takeWhile isBackslash).length tag :: pieces rest
  | none =>
    match _left : s.dropWhile isBackslash with
    | [] => if s.isEmpty then [] else [.plain s]
    | c :: r => .plain (s.takeWhile isBackslash ++ [c]) :: pieces r
termination_by s.length
decreasing_by
  · have := length_of_tagAt _found
    have := length_dropWhile_le isBackslash s
    omega
  · have := length_dropWhile_le isBackslash s
    rw [_left] at this
    simp only [List.length_cons] at this
    omega

def Piece.escaped : Piece → List Char
  | .plain s => s
  | .tag n text => backslashes (2 * n + 1) ++ text

def escape (s : List Char) : List Char :=
  let t := (pieces s).flatMap Piece.escaped
  if endsInLoneBackslash t then t ++ ['\\'] else t

/-- What a piece shows: a tag that is not escaped shows only half of the backslashes before it. -/
def Piece.shown : Piece → List Char
  | .plain s =>
    if s.getLast? = some '[' && 1 < s.length then s.drop 1 else s
  | .tag n text => backslashes (n / 2) ++ (if n % 2 = 1 then text else [])

/-- The text that is left of a marked-up text when its tags are gone. -/
def render (s : List Char) : List Char :=
  (pieces s).flatMap Piece.shown

end Hotload.StandIn.Markup
