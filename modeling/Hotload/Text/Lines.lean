/-!
Line ends. A carriage return, alone or before a line feed, is read as a line feed.
-/
namespace Hotload.Text

def unifyLineEnds : List Char → List Char
  | [] => []
  | '\r' :: '\n' :: r => '\n' :: unifyLineEnds r
  | '\r' :: r => '\n' :: unifyLineEnds r
  | c :: r => c :: unifyLineEnds r

end Hotload.Text
