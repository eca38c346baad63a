import Hotload.Files.Access

/-!
Canonical paths. Links are replaced by what they lead to, component by component; a double dot drops the component that
was found last. In the strict mode everything must be there; else what is missing is kept as it is written, and a path
that runs into a loop of links is a failure only if the system refuses it.
-/
namespace Hotload.Files

namespace Path

/-- One step up from a path in which all components are known. -/
def up (p : Path) : Path :=
  if p.isAbsolute then p.parent
  else
    match p.parts.getLast? with
    | none => p.child ".."
    | some last => if last = ".." then p.child ".." else p.parent

/-- Drops the idle components and lets each double dot cancel the component before it. -/
def collapseParts : List String → List String → List String
  | done, [] => done.reverse
  | done, part :: parts =>
    if isIdle part then collapseParts done parts
    else if part = ".." then collapseParts done.tail parts
    else collapseParts (part :: done) parts

/-- An absolute path without dots, by its text alone. -/
def collapse (p : Path) : Path :=
  ⟨p.anchor, collapseParts [] p.parts⟩

/-- A path followed by components that are still as they were written, a leading empty one standing for the root. -/
def joinRest (p : Path) : List String → Path
  | "" :: part :: rest => ⟨.rooted, part :: rest⟩
  | rest => ⟨p.anchor, p.parts ++ rest⟩

end Path

/-- Links met on the way with what they lead to, or nothing while that is still being found out. -/
abbrev Seen := List (Path × Option Path)

/-- A path followed to its end, or up to a link that leads back to itself. -/
inductive Reached where
  | whole (p : Path)
  | stuck (p : Path)

def Reached.path : Reached → Path
  | .whole p => p
  | .stuck p => p

namespace Disk

/-- The target of a link, if there is one at the path itself. -/
def linkAt (d : Disk) (p : Path) : Outcome (Option String) :=
  match d.look ⟨false, false⟩ p with
  | .ok (.found _ (.link target)) => .ok (some target)
  | .ok (.found _ _) => .ok none
  | .ok (.absent _ _) => .error (missing p)
  | .error f => .error f

/-- The failure of a path that leads into a loop. -/
def loopFailure (d : Disk) (p : Path) : Failure :=
  match d.look ⟨true, false⟩ p with
  | .error (.system e path) => if e = Errno.loop then .linkLoop path else .system e path
  | _ => .linkLoop p.toString

/-- Follows components from a path that is canonical already. -/
def trace (d : Disk) (strict : Bool) (depth : Nat) (p : Path) (seen : Seen) : List String → Outcome (Reached × Seen)
  | [] => .ok (.whole p, seen)
  | part :: rest =>
    if Path.isIdle part then d.trace strict depth p seen rest
    else if part = ".." then d.trace strict depth p.up seen rest
    else
      let q := p.child part
      match d.linkAt q with
      | .error f =>
        if strict || !f.isSystem then .error f else d.trace strict depth q seen rest
      | .ok none => d.trace strict depth q seen rest
      | .ok (some target) =>
        match valueAt? q seen with
        | some (some known) => d.trace strict depth known seen rest
        | some none => if strict then .error (d.loopFailure q) else .ok (.stuck (q.joinRest rest), seen)
        | none =>
          match depth with
          | 0 => if strict then .error (d.loopFailure q) else .ok (.stuck (q.joinRest rest), seen)
          | depth + 1 =>
            let start := if isRootedText target then Path.root else p
            match d.trace strict depth start (setEntry q none seen) (components target) with
            | .error f => .error f
            | .ok (.stuck r, seen) => .ok (.stuck (r.joinRest rest), seen)
            | .ok (.whole r, seen) => d.trace strict (depth + 1) r (setEntry q (some r) seen) rest
termination_by parts => (depth, parts.length)

/-- The canonical absolute path. -/
def canonical (d : Disk) (strict : Bool) (p : Path) : Outcome Path := do
  let start := if p.isAbsolute then Path.root else Path.current
  let (reached, _) ← d.trace strict d.nesting start [] p.parts
  let q := (d.workingPath / reached.path).collapse
  if strict then return q
  match d.look ⟨true, false⟩ q with
  | .error (.system e path) => if e = Errno.loop then .error (.linkLoop path) else return q
  | _ => return q

end Disk

end Hotload.Files
