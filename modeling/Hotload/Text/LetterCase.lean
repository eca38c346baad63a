/-!
Letter case. The lower case is that of ASCII letters, which is all that the words looked for are made of. The upper case
also takes in the other letters whose upper case is an ASCII letter or a sequence of them.
-/
namespace Hotload.Text

def lowerChar (c : Char) : Char :=
  if 0x41 ≤ c.toNat && c.toNat ≤ 0x5a then Char.ofNat (c.toNat + 0x20) else c

def lower (s : String) : String :=
  String.ofList (s.toList.map lowerChar)

/-- Letters outside ASCII whose upper case is within it. -/
def asciiUppers : List (Char × List Char) :=
  [('ı', ['I']), ('ſ', ['S']), ('ß', ['S', 'S']), ('ﬀ', ['F', 'F']), ('ﬁ', ['F', 'I']), ('ﬂ', ['F', 'L']),
   ('ﬃ', ['F', 'F', 'I']), ('ﬄ', ['F', 'F', 'L']), ('ﬅ', ['S', 'T']), ('ﬆ', ['S', 'T'])]

def upperChar (c : Char) : List Char :=
  if 0x61 ≤ c.toNat && c.toNat ≤ 0x7a then [Char.ofNat (c.toNat - 0x20)]
  else (asciiUppers.lookup c).getD [c]

def upper (s : String) : String :=
  String.ofList (s.toList.flatMap upperChar)

end Hotload.Text
