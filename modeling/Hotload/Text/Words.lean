/-!
Words of a command line. Blanks separate words; single quotes keep everything, double quotes keep everything but a
backslash before a double quote or a backslash, and a backslash outside quotes keeps the next character.
-/
namespace Hotload.Text.Words

inductive Fault where
  | openQuote
  | openEscape
  deriving DecidableEq

def Fault.message : Fault → String
  | .openQuote => "No closing quotation"
  | .openEscape => "No escaped character"

/-- Where a reader stands: between words, inside a word, inside quotes, or behind a backslash in one of the two. -/
inductive Mode where
  | between
  | word
  | quote (mark : Char)
  | escape
  | quoteEscape

def isSeparator (c : Char) : Bool :=
  c = ' ' || c = '\t' || c = '\r' || c = '\n'

/-- Reads on from a mode with the characters of the open word, latest first. -/
def read : Mode → List Char → List Char → Except Fault (List String)
  | .between, _, [] => .ok []
  | .word, word, [] => .ok [String.ofList word.reverse]
  | .quote _, _, [] => .error .openQuote
  | .escape, _, [] => .error .openEscape
  | .quoteEscape, _, [] => .error .openEscape
  | .between, _, c :: r =>
    if isSeparator c then read .between [] r
    else if c = '\'' || c = '"' then read (.quote c) [] r
    else if c = '\\' then read .escape [] r
    else read .word [c] r
  | .word, word, c :: r =>
    if isSeparator c then (read .between [] r).map (String.ofList word.reverse :: ·)
    else if c = '\'' || c = '"' then read (.quote c) word r
    else if c = '\\' then read .escape word r
    else read .word (c :: word) r
  | .quote mark, word, c :: r =>
    if c = mark then read .word word r
    else if c = '\\' && mark = '"' then read .quoteEscape word r
    else read (.quote mark) (c :: word) r
  | .escape, word, c :: r => read .word (c :: word) r
  | .quoteEscape, word, c :: r =>
    if c = '"' || c = '\\' then read (.quote '"') (c :: word) r
    else read (.quote '"') (c :: '\\' :: word) r

def split (s : String) : Except Fault (List String) :=
  read .between [] s.toList

end Hotload.Text.Words
