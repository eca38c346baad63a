import Hotload.Proofs.Files.Denoted

/-!
Canonical paths while directories are made. Tracing a path that need not be there looks for links by names below its start,
and not by way of a double dot. A link that it sees once directories were made was there before, in a directory that was
there before. So a path that is canonical afterwards was so already.
-/
namespace Hotload.Files.Disk

variable {d d' : Disk} {p q : Path} {l m : Location} {name target : String} {i : Intent} {k : Nat} {rest : List String}
  {x : Landing} {e : Node}

/-- A path as tracing makes it, with the location that it tells: some double dots, and names below them under which no link
is seen. -/
inductive Clear (d : Disk) : Path → Location → Prop where
  | root : Clear d .root []
  | dots (n : Nat) : Clear d ⟨.relative, List.replicate n ".."⟩ (ascend n d.workingDirectory)
  | child {p : Path} {l : Location} {name : String} : Clear d p l → IsDownward name → d.Unlinked (p.child name) →
      Clear d (p.child name) (l ++ [name])

theorem up_child (h : name ≠ "..") : (p.child name).up = p := by
  unfold Path.up
  split
  · exact p.child_parent name
  · simp [Path.child, Path.parent, h]

theorem Clear.up (h : Clear d p l) : Clear d p.up l.dropLast := by
  cases h with
  | root => exact .root
  | dots n =>
    rw [up_of_dots, ← ascend_succ]
    exact .dots (n + 1)
  | child h hd =>
    rw [up_child hd.2, List.dropLast_concat]
    exact h

/-- Where a link goes on from. -/
theorem Clear.start (h : Clear d p l) : Clear d (if isRootedText target then Path.root else p) (linkStart l target) := by
  unfold linkStart
  split
  · exact .root
  · exact h

theorem Clear.locates (h : Clear d' p l) (hw : d'.workingDirectory = d.workingDirectory) : Locates d p l := by
  induction h with
  | root => exact .rooted
  | dots n =>
    have hlocates : Locates d ⟨.relative, List.replicate n ".." ++ []⟩ _ := .relative List.not_mem_nil
    rwa [List.append_nil, List.append_nil, ← hw] at hlocates
  | child _ hd _ ih => exact ih.child hd.2

theorem walk_child (d : Disk) (p : Path) (name : String) (i : Intent) (k : Nat) (rest : List String) :
    d.tree.walk i k (d.start (p.child name)) ((p.child name).parts ++ rest) =
      d.tree.walk i k (d.start p) (p.parts ++ name :: rest) := by
  rw [Path.child, List.append_assoc, List.singleton_append]
  rfl

/-- If names behind such a path lead anywhere, then all do as they do from the location: there is a directory. -/
theorem Clear.walk_eq (h : Clear d p l) (hn : p.hasNul = false) (hb : p.byteSize < pathLimit) (hi : i.create = false)
    (hrest : rest ≠ []) (hx : d.tree.walk i k (d.start p) (p.parts ++ rest) = .ok x) {i' : Intent} {k' : Nat}
    {rest' : List String} (hi' : i'.create = false) :
    d.tree.walk i' k' (d.start p) (p.parts ++ rest') = d.tree.walk i' k' l rest' := by
  induction h generalizing i k rest x i' k' rest' with
  | root => rfl
  | dots n => exact Tree.walk_ascend
  | @child p l name _ hd hu ih =>
    have hn' : p.hasNul = false := Path.hasNul_of_append hn
    have hb' : p.byteSize < pathLimit := Path.byteSize_lt_of_above (List.prefix_append _ _) hb
    rw [walk_child] at hx
    have hwalk {i' : Intent} {k' : Nat} {rest' : List String} (hi' : i'.create = false) :
        d.tree.walk i' k' (d.start p) (p.parts ++ rest') = d.tree.walk i' k' l rest' :=
      ih hn' hb' hi (List.cons_ne_nil _ _) hx hi'
    rw [hwalk hi] at hx
    by_cases hlong : nameLimit < name.utf8ByteSize
    · rw [Tree.walk_long hd.1 hd.2 (by simp [hi]) hlong] at hx
      cases hx
    · have henters {i' : Intent} {rest' : List String} (hi' : i'.create = false) : Tree.Enters i' name rest' :=
        ⟨hd.1, hd.2, by simp [hi'], Nat.not_lt.1 hlong⟩
      rw [Tree.walk_enters (henters hi)] at hx
      -- Nothing leads on from a missing name or a file, and a link would have been seen.
      cases hg : d.tree.get? (l ++ [name]) with
      | none => simp [hg, hrest] at hx
      | some e =>
        cases e with
        | file => simp [hg, hrest] at hx
        | directory => rw [walk_child, hwalk hi', Tree.walk_enters (henters hi'), hg]
        | link target =>
          have hend : d.tree.walk ⟨false, false⟩ linkLimit (d.start p) (p.parts ++ [name]) =
              .ok (.found (l ++ [name]) (.link target)) := by
            rw [hwalk rfl, Tree.walk_enters (henters rfl), hg]
            rfl
          have hlook : d.look ⟨false, false⟩ (p.child name) = .ok (.found (l ++ [name]) (.link target)) :=
            look_eq_ok.2 ⟨hn, hb, Tree.leads_of_walk hend⟩
          have hlink := linkAt_eq_some.2 ⟨_, hlook⟩
          obtain hnone | ⟨f, hf, -⟩ := hu
          · cases hnone.symm.trans hlink
          · cases hf.symm.trans hlink

/-- What is found under the next name is at the location that this tells. -/
theorem Clear.get?_child (h : Clear d p l) (hd : IsDownward name)
    (hl : d.look ⟨false, false⟩ (p.child name) = .ok (.found m e)) : d.tree.get? (l ++ [name]) = some e := by
  obtain ⟨hn, hb, hleads⟩ := look_eq_ok.1 hl
  have hn' : p.hasNul = false := Path.hasNul_of_append hn
  have hb' : p.byteSize < pathLimit := Path.byteSize_lt_of_above (List.prefix_append _ _) hb
  have hx : d.tree.walk ⟨false, false⟩ linkLimit (d.start p) (p.parts ++ [name]) = .ok (.found m e) := hleads.walk_eq
  rw [h.walk_eq hn' hb' rfl (List.cons_ne_nil _ _) hx rfl] at hx
  by_cases hlong : nameLimit < name.utf8ByteSize
  · rw [Tree.walk_long hd.1 hd.2 rfl hlong] at hx
    cases hx
  · rw [Tree.walk_enters ⟨hd.1, hd.2, rfl, Nat.not_lt.1 hlong⟩] at hx
    cases hg : d.tree.get? (l ++ [name]) with
    | none => simp [hg] at hx
    | some e' =>
      rw [hg] at hx
      cases e' with
      | file | link =>
        cases hx
        rfl
      | directory =>
        dsimp only at hx
        rw [Tree.walk] at hx
        cases hx
        rfl

namespace Grows

theorem linkAt (h : Grows d d') (hl : d.linkAt q = .ok (some target)) : d'.linkAt q = .ok (some target) := by
  obtain ⟨l, hl⟩ := linkAt_eq_some.1 hl
  exact linkAt_eq_some.2 ⟨l, look_carry_found h.workingDirectory h.carries nofun hl⟩

theorem unlinked (h : Grows d d') (hu : d'.Unlinked q) : d.Unlinked q := by
  obtain ⟨-, hn⟩ | hu' | ⟨target, hl⟩ := d.linkAt_cases q
  · obtain hnone | ⟨f, hf, hs⟩ := hu
    · cases (linkAt_of_nul hn).symm.trans hnone
    · cases (linkAt_of_nul hn).symm.trans hf
      cases hs
  · exact hu'
  · have hlink := h.linkAt hl
    obtain hnone | ⟨f, hf, -⟩ := hu
    · cases hnone.symm.trans hlink
    · cases hf.symm.trans hlink

section Before

variable (h : Grows d d') (ht : d.tree.Proper)

include h ht

/-- A link that tracing sees was there before, and it was seen under the same path. -/
theorem linkAt_before (hp : Clear d' p l) (hd : IsDownward name) (hl : d'.linkAt (p.child name) = .ok (some target)) :
    d.linkAt (p.child name) = .ok (some target) := by
  obtain ⟨m, hlook⟩ := linkAt_eq_some.1 hl
  obtain hold | hnew := h.made _ _ (hp.get?_child hd hlook)
  · have hdenotes : Denotes d p l :=
      ⟨hp.locates h.workingDirectory, .directory, ht.within _ _ _ hold, Node.directory_ne_link⟩
    exact linkAt_of_some ht hdenotes hold (look_eq_ok.1 hlook).2.1
  · cases hnew

end Before

end Grows

/-- Every link that was followed to its end has led to a path that tracing has passed. -/
def Passed (d : Disk) (seen : Seen) : Prop :=
  ∀ q r, valueAt? q seen = some (some r) → ∃ l, Clear d r l

theorem passed_nil (d : Disk) : Passed d [] := by
  intro q r hv
  cases hv

theorem Passed.begin {seen : Seen} (h : Passed d seen) (q : Path) : Passed d (setEntry q none seen) := by
  intro q' r hv
  rw [valueAt?_setEntry] at hv
  split at hv
  · cases hv
  · exact h q' r hv

theorem Passed.finish {seen : Seen} {r : Path} (h : Passed d seen) (hr : Clear d r l) (q : Path) :
    Passed d (setEntry q (some r) seen) := by
  intro q' r' hv
  rw [valueAt?_setEntry] at hv
  split at hv
  · cases hv
    exact ⟨l, hr⟩
  · exact h q' r' hv

/-- Tracing sees the same with and without the directories that were made. -/
theorem Grows.trace_eq (h : Grows d d') (ht : d.tree.Proper) {depth : Nat} {seen : Seen} {parts : List String}
    (hp : Clear d' p l) (hs : Passed d' seen) :
    d.trace false depth p seen parts = d'.trace false depth p seen parts ∧
      ∀ r seen', d'.trace false depth p seen parts = .ok (.whole r, seen') → (∃ m, Clear d' r m) ∧ Passed d' seen' := by
  -- Every start is clear, those taken from the table too: a link that is seen below one was there before.
  fun_induction trace d' false depth p seen parts generalizing l with
  | case1 depth p seen =>
    refine ⟨by rw [trace], fun r seen' hr => ?_⟩
    cases hr
    exact ⟨⟨l, hp⟩, hs⟩
  | case2 depth p seen part rest hi ih =>
    rw [trace_idle hi]
    exact ih hp hs
  | case3 depth p seen rest hi ih =>
    rw [trace_up]
    exact ih hp.up hs
  | case4 depth p seen part rest hi hd q f hl =>
    rename_i hf
    obtain rfl := linkAt_error hl (by simpa using hf)
    have hn : q.hasNul = true := by
      cases hq : q.hasNul with
      | true => rfl
      | false => cases isSystem_of_linkAt hq hl
    exact ⟨trace_of_nul hi hd hn, by rintro _ _ ⟨⟩⟩
  | case5 depth p seen part rest hi hd q f hl =>
    rename_i hf ih
    have hu : d'.Unlinked q := .inr ⟨f, hl, by simpa using hf⟩
    rw [trace_unlinked hi hd (h.unlinked hu)]
    exact ih (hp.child (.of_not hi hd) hu) hs
  | case6 depth p seen part rest hi hd q hl =>
    rename_i ih
    rw [trace_unlinked hi hd (h.unlinked (.inl hl))]
    exact ih (hp.child (.of_not hi hd) (.inl hl)) hs
  | case7 depth p seen part rest hi hd q target hl known hv =>
    rename_i ih
    rw [trace_known hi hd (h.linkAt_before ht hp (.of_not hi hd) hl) hv]
    obtain ⟨m, hknown⟩ := hs q known hv
    exact ih hknown hs
  | case9 depth p seen part rest hi hd q target hl hv =>
    exact ⟨trace_circular hi hd (h.linkAt_before ht hp (.of_not hi hd) hl) hv, by rintro _ _ ⟨⟩⟩
  | case11 p seen part rest hi hd q target hl hv =>
    exact ⟨trace_deepest hi hd (h.linkAt_before ht hp (.of_not hi hd) hl) hv, by rintro _ _ ⟨⟩⟩
  | case12 p seen part rest hi hd q target hl hv depth start f hf =>
    rename_i ih
    obtain ⟨htrace, -⟩ := ih hp.start (hs.begin q)
    exact ⟨trace_followed hi hd (h.linkAt_before ht hp (.of_not hi hd) hl) hv (htrace.trans hf), by rintro _ _ ⟨⟩⟩
  | case13 p seen part rest hi hd q target hl hv depth start r seen' hf =>
    rename_i ih
    obtain ⟨htrace, -⟩ := ih hp.start (hs.begin q)
    exact ⟨trace_followed hi hd (h.linkAt_before ht hp (.of_not hi hd) hl) hv (htrace.trans hf), by rintro _ _ ⟨⟩⟩
  | case14 p seen part rest hi hd q target hl hv depth start r seen' hf =>
    rename_i ih ih'
    obtain ⟨htrace, hend⟩ := ih hp.start (hs.begin q)
    obtain ⟨⟨m, hr⟩, hs'⟩ := hend r seen' hf
    obtain ⟨hrest, hend'⟩ := ih' hr (hs'.finish hr q)
    have hlink := h.linkAt_before ht hp (.of_not hi hd) hl
    exact ⟨(trace_followed hi hd hlink hv (htrace.trans hf)).trans hrest, hend'⟩
  | case8 | case10 => contradiction

theorem clear_traceStart (d : Disk) (p : Path) : ∃ l, Clear d (traceStart p) l := by
  unfold traceStart
  split
  · exact ⟨_, .root⟩
  · exact ⟨_, .dots 0⟩

/-- What a path is canonically once directories were made it was before. -/
theorem Grows.canonical_before (h : Grows d d') (ht : d.tree.Proper) (hq : d'.canonical false p = .ok q) :
    d.canonical false p = .ok q := by
  have hworking : d'.workingPath = d.workingPath := by simp [workingPath, h.workingDirectory]
  obtain ⟨l, hstart⟩ := clear_traceStart d' p
  have htrace : d.trace false d.nesting (traceStart p) [] p.parts = d'.trace false d'.nesting (traceStart p) [] p.parts := by
    rw [nesting, nesting, h.spare]
    exact (h.trace_eq ht hstart (passed_nil d')).1
  cases hfound : d'.trace false d'.nesting (traceStart p) [] p.parts with
  | error f => cases (canonical_of_error hfound).symm.trans hq
  | ok found =>
    obtain ⟨reached, seen⟩ := found
    have hbefore := htrace.trans hfound
    have hfree' (path : String) : d'.look ⟨true, false⟩ (d'.workingPath / reached.path).collapse ≠
        .error (.system .loop path) := by
      intro hloop
      cases (canonical_of_loop hfound hloop).symm.trans hq
    have hfree (path : String) : d.look ⟨true, false⟩ (d.workingPath / reached.path).collapse ≠
        .error (.system .loop path) := by
      rw [← hworking]
      exact fun hloop => hfree' path (look_carry_loop h.workingDirectory h.carries hloop)
    rw [canonical_of_free hfound hfree'] at hq
    rw [canonical_of_free hbefore hfree, ← hworking]
    exact hq

end Hotload.Files.Disk
