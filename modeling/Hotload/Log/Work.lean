import Hotload.Host

/-!
Work that logs, in blocks inside blocks. A block adds its fields to what is logged in it; it may be left by a failure,
and a failure may be caught anywhere around it.
-/
namespace Hotload.Log

inductive Work where
  | done
  | record (e : Event)
  | fail (f : Failure)
  | block (fs : Fields) (body : Work)
  | guarded (body : Work)
  | next (first second : Work)

namespace Work

def run : Work → Action Unit
  | .done => pure ()
  | .record e => Action.log e
  | .fail f => throw f
  | .block fs body => Action.within fs body.run
  | .guarded body => do
    let _ ← Action.attempt body.run
  | .next first second => do
    first.run
    second.run

/-- What work logs, each event with the fields of the blocks around it, those of the innermost block first, and how the
work ends. -/
def trace (blocks : List Fields) : Work → List (Event × List Fields) × Outcome Unit
  | .done => ([], .ok ())
  | .record e => ([(e, blocks)], .ok ())
  | .fail f => ([], .error f)
  | .block fs body => body.trace (fs :: blocks)
  | .guarded body => ((body.trace blocks).1, .ok ())
  | .next first second =>
    match first.trace blocks with
    | (es, .ok _) => (es ++ (second.trace blocks).1, (second.trace blocks).2)
    | (es, .error f) => (es, .error f)

/-- The events in some work. -/
def events : Work → List Event
  | .record e => [e]
  | .block _ body | .guarded body => body.events
  | .next first second => first.events ++ second.events
  | .done | .fail _ => []

end Work

/-- The context inside some blocks, the innermost one first. -/
def contextOf (blocks : List Fields) : Context :=
  blocks.foldr (fun fs context => context.enter fs) []

/-- The value under a key; the last one, if there are several. -/
def lastValue? (key : String) (fs : Fields) : Option Value :=
  valueAt? key fs.reverse

/-- The value that the innermost of some blocks gives to a key, of those that give it a value. -/
def blockValue? (key : String) (blocks : List Fields) : Option Value :=
  blocks.findSome? fun fs => lastValue? key (given fs)

/-- The value of a field of a record that is logged inside some blocks: that of the event, else that of the innermost
block that gives one, else a dash if the field is a standard one. -/
def resolve (key : String) (e : Event) (blocks : List Fields) : Option Value :=
  (lastValue? key e.extra).or
    ((blockValue? key blocks).or (if standardFields.contains key then some (.text "-") else none))

end Hotload.Log
