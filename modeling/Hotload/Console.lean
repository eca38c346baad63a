/-!
What prints styled texts on a terminal. A text may have marks of style in it; others are escaped, so that they are shown as
they are. Colors are off, so that nothing but the text is shown.
-/
namespace Hotload

structure Console where
  /-- A text for a place in a marked-up one. -/
  escape : String → String
  /-- What is shown of a marked-up text. -/
  render : String → String
  /-- The lines that a text is broken into where it is too long. -/
  wrap : String → List String

namespace Console

/-- The lines of a marked-up text. -/
def lines (c : Console) (markup : String) : List String :=
  c.wrap (c.render markup)

end Console

end Hotload
