/-!
Paths as they are written. Repeated slashes and single dots vanish, double dots stay. A path is relative, starts at the
root, or starts at the root with two slashes, which is kept apart.
-/
namespace Hotload.Files

inductive Anchor where
  | relative
  | rooted
  | doubled
  deriving DecidableEq

def Anchor.text : Anchor → String
  | .relative => ""
  | .rooted => "/"
  | .doubled => "//"

structure Path where
  anchor : Anchor
  parts : List String
  deriving DecidableEq

/-- The stretches between slashes, empty ones too. -/
def splitSlashes : List Char → List (List Char)
  | [] => [[]]
  | c :: r =>
    if c = '/' then [] :: splitSlashes r
    else
      match splitSlashes r with
      | [] => [[c]]
      | w :: ws => (c :: w) :: ws

/-- The components of a text in the order in which they are followed, empty ones too. -/
def components (s : String) : List String :=
  (splitSlashes s.toList).map String.ofList

namespace Path

def current : Path := ⟨.relative, []⟩

def root : Path := ⟨.rooted, []⟩

def anchorOf : List Char → Anchor
  | '/' :: '/' :: '/' :: _ => .rooted
  | '/' :: '/' :: _ => .doubled
  | '/' :: _ => .rooted
  | _ => .relative

def isIdle (part : String) : Bool :=
  part = "" || part = "."

def ofString (s : String) : Path :=
  ⟨anchorOf s.toList, (components s).filter (!isIdle ·)⟩

def isAbsolute (p : Path) : Bool :=
  p.anchor != .relative

def toString (p : Path) : String :=
  if p.anchor = .relative && p.parts.isEmpty then "."
  else p.anchor.text ++ "/".intercalate p.parts

instance : ToString Path := ⟨toString⟩

/-- The last component, empty if there is none. -/
def name (p : Path) : String :=
  p.parts.getLastD ""

/-- The path without its last component, whatever that is. -/
def parent (p : Path) : Path :=
  ⟨p.anchor, p.parts.dropLast⟩

/-- An absolute second path replaces the first. -/
def join (p q : Path) : Path :=
  if q.isAbsolute then q else ⟨p.anchor, p.parts ++ q.parts⟩

instance : Div Path := ⟨join⟩

def child (p : Path) (part : String) : Path :=
  ⟨p.anchor, p.parts ++ [part]⟩

/-- The same path seen from a working directory. -/
def absolute (p workingDirectory : Path) : Path :=
  workingDirectory / p

/-- The path itself and the paths above it, nearest first. -/
def ancestry (p : Path) : List Path :=
  (List.range (p.parts.length + 1)).map fun k => ⟨p.anchor, p.parts.take (p.parts.length - k)⟩

def byteSize (p : Path) : Nat :=
  p.toString.utf8ByteSize

def hasNul (p : Path) : Bool :=
  p.parts.any fun part => part.toList.contains (Char.ofNat 0)

theorem child_parent (p : Path) (part : String) : (p.child part).parent = p := by
  simp [child, parent]

end Path

end Hotload.Files
