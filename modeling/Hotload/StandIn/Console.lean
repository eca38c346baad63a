import Hotload.Console
import Hotload.StandIn.Cells
import Hotload.StandIn.Markup

/-!
A console of 80 columns.
-/
namespace Hotload.StandIn

/-- Columns that a printed line has at most. -/
def lineWidth : Nat := 80

def console : Console where
  escape s := String.ofList (Markup.escape s.toList)
  render s := String.ofList (Markup.render s.toList)
  wrap s := (wrap lineWidth s.toList).map String.ofList

end Hotload.StandIn
