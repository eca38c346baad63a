import Hotload.Json.Grammar
import Hotload.TypeTable

/-!
Type tables as they are written: an object with a list of functions, each one an object with the name of the function, the
names of the types of its parameters and that of the type of its result. The parameters may be left out if there are none,
and the result may be left out or null. Members come in any order, and further ones with texts as values may stand among
them.
-/
namespace Hotload

open Json (Quotes QuotesAny QuotesOther Keyed Enclosed Spaces)

/-- A function as it is listed. The name of the type of a result is not empty. -/
structure Signature where
  name : String
  parameters : List String
  result : Option String
  result_ne : result ≠ some ""

namespace Signature

/-- The definition that a signature stands for: each type has its name and the digest of that. -/
def definition (g : Signature) : Definition where
  name := .text g.name
  parameters := g.parameters.map fun n => ⟨n, Digest.md5 n.toUTF8.toList⟩
  result := g.result.map fun n => ⟨n, Digest.md5 n.toUTF8.toList⟩

/-- The value of a result that is written. -/
def resultValue (g : Signature) : Value :=
  match g.result with
  | some s => .text s
  | none => .null

/-- A signature as an entry that leaves nothing out. -/
def entry (g : Signature) : Value :=
  .record [("name", .text g.name), ("arg_types", .list (g.parameters.map .text)), ("return_type", g.resultValue)]

/-- The members of an entry. -/
inductive Field where
  | name
  | parameters
  | result
  | other

def keys : List String := ["name", "arg_types", "return_type"]

def WritesResult : Option String → List Char → Prop
  | some s, t => Quotes s t
  | none, t => t = "null".toList

def Writes (g : Signature) : Field → List Char → Prop
  | .name => Keyed (Quotes "name") (Quotes g.name)
  | .parameters => Keyed (Quotes "arg_types") (Enclosed '[' ']' Quotes g.parameters)
  | .result => Keyed (Quotes "return_type") (WritesResult g.result)
  | .other => Keyed (QuotesOther keys) QuotesAny

/-- Members that leave nothing out but what there is not. -/
structure Covers (g : Signature) (fs : List Field) : Prop where
  name : .name ∈ fs
  parameters : g.parameters ≠ [] → .parameters ∈ fs
  result : g.result ≠ none → .result ∈ fs

/-- A signature with its text. -/
def Entry (g : Signature) (t : List Char) : Prop :=
  ∃ fs, g.Covers fs ∧ Enclosed '\x7b' '\x7d' g.Writes fs t

/-- The last of some signatures that has its name. -/
def Latest (g : Signature) (gs : List Signature) : Prop :=
  ∃ before after, gs = before ++ g :: after ∧ ∀ g' ∈ after, g'.name ≠ g.name

end Signature

namespace TypeTable

/-- Signatures as the table that lists their entries. -/
def listing (gs : List Signature) : Value :=
  .record [("functions", .list (gs.map (·.entry)))]

/-- The members of a table. -/
inductive Part where
  | functions
  | other

def Writes (gs : List Signature) : Part → List Char → Prop
  | .functions => Keyed (Quotes "functions") (Enclosed '[' ']' Signature.Entry gs)
  | .other => Keyed (QuotesOther ["functions"]) QuotesAny

/-- Signatures with the text of a table that lists them. -/
def Document (gs : List Signature) (t : List Char) : Prop :=
  ∃ ps w u w', .functions ∈ ps ∧ Spaces w ∧ Enclosed '\x7b' '\x7d' (Writes gs) ps u ∧ Spaces w' ∧ t = w ++ (u ++ w')

end TypeTable

end Hotload
