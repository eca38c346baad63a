/-!
Style tags in marked-up texts. A tag stands between brackets and starts with a small letter or one of the marks `#`, `/`
and `@`. Backslashes before it tell whether it is one or plain text.
-/
namespace Hotload.Console

def startsTag (c : Char) : Bool :=
  (0x61 ≤ c.toNat && c.toNat ≤ 0x7a) || c = '#' || c = '/' || c = '@'

def inTag (c : Char) : Bool :=
  c != '[' && c != ']'

/-- The tag that a text starts with, and what follows it. -/
def tagAt : List Char → Option (List Char × List Char)
  | '[' :: c :: r =>
    if startsTag c then
      match r.dropWhile inTag with
      | ']' :: rest => some ('[' :: c :: r.takeWhile inTag ++ [']'], rest)
      | _ => none
    else none
  | _ => none

theorem length_dropWhile_le {α : Type} (p : α → Bool) (s : List α) : (s.dropWhile p).length ≤ s.length :=
  (List.dropWhile_suffix p).length_le

theorem length_of_tagAt {s tag rest : List Char} (h : tagAt s = some (tag, rest)) : rest.length < s.length := by
  unfold tagAt at h
  split at h
  · next c r =>
    split at h
    · split at h
      · next rest' hd =>
        simp only [Option.some.injEq, Prod.mk.injEq] at h
        have hl := length_dropWhile_le inTag r
        rw [hd] at hl
        simp only [List.length_cons] at hl ⊢
        rw [← h.2]
        omega
      · simp at h
    · simp at h
  · simp at h

def isBackslash (c : Char) : Bool :=
  c = '\\'

def backslashes (n : Nat) : List Char :=
  List.replicate n '\\'

/-- Whether a text ends in one backslash and not in two. -/
def endsInLoneBackslash (s : List Char) : Bool :=
  s.reverse.head? = some '\\' && s.reverse.tail.head? != some '\\'

end Hotload.Console
