import Hotload.Proofs.Files.Denoted

/-!
Tracing a path where everything must be there. What was seen of links is right, and a link that is still being followed is
not met again on a way that ends. So tracing comes to just that location to which the names lead, links and all, unless
the system finds a path on the way too long. The canonical path is then the one with the names of that location.
-/
namespace Hotload.Files

namespace Disk

variable {d : Disk} {p : Path} {l : Location} {name : String}

/-- What was seen of links is right: they lead to what they are known to lead to. -/
def Known (d : Disk) (seen : Seen) : Prop :=
  ∀ {p : Path} {l : Location} {name target : String} {r : Path}, Locates d p l →
    d.tree.get? (l ++ [name]) = some (.link target) → valueAt? (p.child name) seen = some (some r) →
    ∃ c m, Tree.Follows d.tree c (linkStart l target) (components target) (some m) ∧ Denotes d r m

/-- The links that are still being followed need at least so many links to follow. -/
def Awaits (d : Disk) (seen : Seen) (c : Nat) : Prop :=
  ∀ {p : Path} {l : Location} {name target : String}, Locates d p l →
    d.tree.get? (l ++ [name]) = some (.link target) → valueAt? (p.child name) seen = some none →
    ∃ c' o, c ≤ c' ∧ Tree.Follows d.tree c' (linkStart l target) (components target) o

section Tracing

variable {seen seen' : Seen} {target : String} {c depth : Nat} {parts : List String}

theorem known_nil (d : Disk) : Known d [] := by
  intro p l name target r _ _ hv
  cases hv

theorem awaits_nil (d : Disk) (c : Nat) : Awaits d [] c := by
  intro p l name target _ _ hv
  cases hv

theorem Awaits.weaken {c' : Nat} (h : Awaits d seen c) (hc : c' ≤ c) : Awaits d seen c' := by
  intro p l name target hl hg hv
  obtain ⟨k, o, hk, hf⟩ := h hl hg hv
  exact ⟨k, o, Nat.le_trans hc hk, hf⟩

theorem child_inj {p' : Path} {name' : String} (h : p.child name = p'.child name') : p = p' ∧ name = name' := by
  obtain ⟨hanchor, hparts⟩ := Path.mk.inj h
  obtain ⟨habove, hname⟩ := List.append_inj' hparts rfl
  obtain ⟨a, above⟩ := p
  obtain ⟨a', above'⟩ := p'
  cases hanchor
  cases habove
  exact ⟨rfl, by simpa using hname⟩

/-- A link that is begun is not known. -/
theorem Known.begin (h : Known d seen) (q : Path) : Known d (setEntry q none seen) := by
  intro p l name target r hl hg hv
  rw [valueAt?_setEntry] at hv
  split at hv
  · cases hv
  · exact h hl hg hv

theorem Known.finish {r : Path} {m : Location} (h : Known d seen) (hl : Locates d p l)
    (hg : d.tree.get? (l ++ [name]) = some (.link target))
    (hf : Tree.Follows d.tree c (linkStart l target) (components target) (some m)) (hr : Denotes d r m) :
    Known d (setEntry (p.child name) (some r) seen) := by
  intro p' l' name' target' r' hl' hg' hv
  rw [valueAt?_setEntry] at hv
  split at hv
  · rename_i hq
    obtain ⟨rfl, rfl⟩ := child_inj hq
    cases hl.unique hl'
    cases hg.symm.trans hg'
    cases hv
    exact ⟨c, m, hf, hr⟩
  · exact h hl' hg' hv

theorem Awaits.begin {c' : Nat} {o : Option Location} (h : Awaits d seen c) (hl : Locates d p l)
    (hg : d.tree.get? (l ++ [name]) = some (.link target))
    (hf : Tree.Follows d.tree c' (linkStart l target) (components target) o) (hc : c' ≤ c) :
    Awaits d (setEntry (p.child name) none seen) c' := by
  intro p' l' name' target' hl' hg' hv
  rw [valueAt?_setEntry] at hv
  split at hv
  · rename_i hq
    obtain ⟨rfl, rfl⟩ := child_inj hq
    cases hl.unique hl'
    cases hg.symm.trans hg'
    exact ⟨c', o, Nat.le_refl _, hf⟩
  · exact h.weaken hc hl' hg' hv

/-- All links that were begun are finished: none is being followed that was not before. -/
def Finished (seen seen' : Seen) : Prop :=
  ∀ q, valueAt? q seen' = some none → valueAt? q seen = some none

theorem Finished.trans {seen'' : Seen} (h : Finished seen seen') (h' : Finished seen' seen'') : Finished seen seen'' :=
  fun q hv => h q (h' q hv)

/-- A link is finished once it is known what it leads to. -/
theorem Finished.known {q : Path} (h : Finished (setEntry q none seen) seen') (r : Path) :
    Finished seen (setEntry q (some r) seen') := by
  intro q' hv
  rw [valueAt?_setEntry] at hv
  split at hv
  · cases hv
  · rename_i hne
    have hbegun := h q' hv
    rwa [valueAt?_setEntry, if_neg hne] at hbegun

theorem Awaits.finish (h : Awaits d seen c) (hs : Finished seen seen') : Awaits d seen' c := by
  intro p l name target hl hg hv
  exact h hl hg (hs _ hv)

/-- What tracing comes to where the names lead to a location, or to a name that is missing. -/
inductive Traced (d : Disk) (seen : Seen) : Option Location → Outcome (Reached × Seen) → Prop where
  | whole {r : Path} {m : Location} {seen' : Seen} : Denotes d r m → Known d seen' → Finished seen seen' →
      Traced d seen (some m) (.ok (.whole r, seen'))
  | missing {f : Failure} : f.isSystem = true ∨ f = .nulByte → Traced d seen none (.error f)
  | long {o : Option Location} {q : Path} : pathLimit ≤ q.byteSize →
      Traced d seen o (.error (.system .nameTooLong q.toString))

theorem Traced.of_finished {o : Option Location} {result : Outcome (Reached × Seen)} (h : Traced d seen' o result)
    (hs : Finished seen seen') : Traced d seen o result := by
  cases h with
  | whole hr hk hs' => exact .whole hr hk (hs.trans hs')
  | missing hf => exact .missing hf
  | long hq => exact .long hq

/-- A link on a way that ends is not one that is still being followed. -/
theorem seen_cases {c' : Nat} {o : Option Location} (hl : Locates d p l)
    (hg : d.tree.get? (l ++ [name]) = some (.link target)) (hk : Known d seen) (ha : Awaits d seen c)
    (hf : Tree.Follows d.tree c' (linkStart l target) (components target) o) (hc : c' < c) :
    valueAt? (p.child name) seen = none ∨
      ∃ r m, valueAt? (p.child name) seen = some (some r) ∧ o = some m ∧ Denotes d r m := by
  cases hv : valueAt? (p.child name) seen with
  | none => exact .inl rfl
  | some known =>
    cases known with
    | none =>
      obtain ⟨c₁, o₁, hc₁, hf₁⟩ := ha hl hg hv
      obtain ⟨rfl, -⟩ := hf.unique hf₁
      exact absurd hc (Nat.not_lt.2 hc₁)
    | some r =>
      obtain ⟨c₁, m, hf₁, hr⟩ := hk hl hg hv
      exact .inr ⟨r, m, rfl, (hf.unique hf₁).2, hr⟩

theorem mem_of_mem_splitSlashes {cs w : List Char} {x : Char} (hw : w ∈ splitSlashes cs) (hx : x ∈ w) : x ∈ cs := by
  induction cs generalizing w with
  | nil =>
    rw [splitSlashes, List.mem_singleton] at hw
    rwa [hw] at hx
  | cons c r ih =>
    rw [splitSlashes] at hw
    split at hw
    · obtain rfl | hw := List.mem_cons.1 hw
      · cases hx
      · exact List.mem_cons_of_mem _ (ih hw hx)
    · split at hw
      · rw [List.mem_singleton] at hw
        rw [hw, List.mem_singleton] at hx
        rw [hx]
        exact List.mem_cons_self
      · rename_i v vs hsplit
        obtain rfl | hw := List.mem_cons.1 hw
        · obtain rfl | hx := List.mem_cons.1 hx
          · exact List.mem_cons_self
          · exact List.mem_cons_of_mem _ (ih (by rw [hsplit]; exact List.mem_cons_self) hx)
        · exact List.mem_cons_of_mem _ (ih (by rw [hsplit]; exact List.mem_cons_of_mem _ hw) hx)

theorem noNul_components {part : String} (h : target.toList.contains (Char.ofNat 0) = false) (hp : part ∈ components target) :
    part.toList.contains (Char.ofNat 0) = false := by
  obtain ⟨w, hw, rfl⟩ := List.mem_map.1 hp
  rw [String.toList_ofList, Bool.eq_false_iff, ne_eq, List.contains_iff_mem]
  rw [Bool.eq_false_iff, ne_eq, List.contains_iff_mem] at h
  exact fun hx => h (mem_of_mem_splitSlashes hw hx)

/-- Tracing comes to where the names lead. The links that are still being followed need more of them than are left on the
way, so the way does not meet one again, and it does not nest deeper than it is long. -/
theorem traced_of_follows (ht : d.tree.Proper) (hw : d.Settled) {o : Option Location} (h : Tree.Follows d.tree c l parts o)
    (hp : Denotes d p l) (hk : Known d seen) (ha : Awaits d seen c) (hc : c ≤ depth) :
    Traced d seen o (d.trace true depth p seen parts) := by
  induction h generalizing p seen depth with
  | here =>
    rw [trace]
    exact .whole hp hk fun _ hq => hq
  | idle hi _ ih =>
    rw [trace_idle hi]
    exact ih hp hk ha hc
  | up _ ih =>
    rw [trace_up]
    exact ih (hp.up ht) hk ha hc
  | missing hd hg =>
    obtain ⟨f, hf⟩ := linkAt_of_none ht hw hp hd hg
    rw [trace_refused hd.not_idle hd.2 hf]
    exact .missing (linkAt_failure hf)
  | @down c l name rest e o hd hg he _ ih =>
    obtain hl | ⟨hlong, hl⟩ := linkAt_cases_of_some ht hp hg
    · rw [Node.target?_eq_none.2 he] at hl
      rw [trace_plain hd.not_idle hd.2 hl]
      exact ih (hp.child hd hg he) hk ha hc
    · rw [trace_refused hd.not_idle hd.2 hl]
      exact .long hlong
  | @astray c l name target rest hd hg hf ih =>
    obtain hl | ⟨hlong, hl⟩ := linkAt_cases_of_some ht hp hg
    · obtain hv | ⟨r, m, -, hm, -⟩ := seen_cases hp.locates hg hk ha hf (Nat.lt_succ_self c)
      · obtain ⟨depth, rfl⟩ : ∃ k, depth = k + 1 := ⟨depth - 1, by omega⟩
        have hinner := ih hp.linkStart (hk.begin _) (ha.begin hp.locates hg hf (Nat.le_succ c)) (Nat.le_of_succ_le_succ hc)
        generalize hresult : d.trace true depth _ _ _ = result at hinner
        rw [trace_followed hd.not_idle hd.2 hl hv hresult]
        cases hinner with
        | missing hs => exact .missing hs
        | long hlong => exact .long hlong
      · cases hm
    · rw [trace_refused hd.not_idle hd.2 hl]
      exact .long hlong
  | @through c₁ c₂ l m name target rest o hd hg hf _ ih₁ ih₂ =>
    obtain hl | ⟨hlong, hl⟩ := linkAt_cases_of_some ht hp hg
    · obtain hv | ⟨r, m', hv, hm, hr⟩ := seen_cases hp.locates hg hk ha hf (by omega)
      · obtain ⟨depth, rfl⟩ : ∃ k, depth = k + 1 := ⟨depth - 1, by omega⟩
        have hdepth : c₁ ≤ depth := by omega
        have hinner := ih₁ hp.linkStart (hk.begin _) (ha.begin hp.locates hg hf (by omega)) hdepth
        generalize hresult : d.trace true depth _ _ _ = result at hinner
        rw [trace_followed hd.not_idle hd.2 hl hv hresult]
        cases hinner with
        | @whole r _ seen' hr hk' hs =>
          have hfinished := hs.known r
          have hawaits : Awaits d seen c₂ := ha.weaken (by omega)
          have hroom : c₂ ≤ depth + 1 := by omega
          have hrest := ih₂ hr (hk'.finish hp.locates hg hf hr) (hawaits.finish hfinished) hroom
          exact hrest.of_finished hfinished
        | long hlong => exact .long hlong
      · cases hm
        rw [trace_known hd.not_idle hd.2 hl hv]
        exact ih₂ hr hk (ha.weaken (by omega)) (by omega)
    · rw [trace_refused hd.not_idle hd.2 hl]
      exact .long hlong

/-- Where tracing comes to, the names lead. -/
theorem follows_of_trace (ht : d.tree.Proper) (hw : d.Settled) {reached : Reached} (hp : Denotes d p l) (hk : Known d seen)
    (h : d.trace true depth p seen parts = .ok (reached, seen')) :
    ∃ r c m, reached = .whole r ∧ Tree.Follows d.tree c l parts (some m) ∧ Denotes d r m ∧ Known d seen' := by
  fun_induction trace d true depth p seen parts generalizing l reached seen' with
  | case1 depth p seen =>
    cases h
    exact ⟨p, 0, l, rfl, .here, hp, hk⟩
  | case2 depth p seen part rest hi ih =>
    obtain ⟨r, c, m, hr, hf, hend⟩ := ih hp hk h
    exact ⟨r, c, m, hr, .idle hi hf, hend⟩
  | case3 depth p seen rest hi ih =>
    obtain ⟨r, c, m, hr, hf, hend⟩ := ih (hp.up ht) hk h
    exact ⟨r, c, m, hr, .up hf, hend⟩
  | case6 depth p seen part rest hi hu q hl =>
    rename_i ih
    have hd : IsDownward part := .of_not hi hu
    obtain ⟨e, hg, he⟩ := linkAt_ok ht hw hp hd hl
    have hplain := Node.target?_eq_none.1 he
    obtain ⟨r, c, m, hr, hf, hend⟩ := ih (hp.child hd hg hplain) hk h
    exact ⟨r, c, m, hr, .down hd hg hplain hf, hend⟩
  | case7 depth p seen part rest hi hu q target hl known hv =>
    rename_i ih
    have hd : IsDownward part := .of_not hi hu
    have hg := linkAt_link ht hw hp hd hl
    obtain ⟨c₁, m₁, hf₁, hknown⟩ := hk hp.locates hg hv
    obtain ⟨r, c, m, hr, hf, hend⟩ := ih hknown hk h
    exact ⟨r, _, m, hr, .through hd hg hf₁ hf, hend⟩
  | case13 =>
    -- What a link says is traced to its end.
    rename_i hr ih
    obtain ⟨_, -, -, hwhole, -⟩ := ih hp.linkStart (hk.begin _) hr
    cases hwhole
  | case14 p seen part rest hi hu q target hl hv depth start r₁ seen₁ hr₁ =>
    rename_i ih ih'
    have hd : IsDownward part := .of_not hi hu
    have hg := linkAt_link ht hw hp hd hl
    obtain ⟨_, c₁, m₁, hwhole, hf₁, hend₁, hk₁⟩ := ih hp.linkStart (hk.begin _) hr₁
    cases hwhole
    obtain ⟨r, c, m, hr, hf, hend⟩ := ih' hend₁ (hk₁.finish hp.locates hg hf₁ hend₁) h
    exact ⟨r, _, m, hr, .through hd hg hf₁ hf, hend⟩
  | case8 | case10 | case12 => cases h
  | case4 | case5 | case9 | case11 => simp_all

/-- What ends the tracing of a path is the system, or there is a NUL in the path or a loop of links on the way. -/
theorem trace_failure {f : Failure} (h : d.trace true depth p seen parts = .error f) :
    f.isSystem = true ∨ f = .nulByte ∨ ∃ path, f = .linkLoop path := by
  fun_induction trace d true depth p seen parts generalizing f with
  | case1 | case13 => cases h
  | case2 | case3 | case6 | case7 | case14 =>
    rename_i ih
    exact ih h
  | case4 =>
    rename_i hl _
    cases h
    exact (linkAt_failure hl).imp_right .inl
  | case8 | case10 =>
    cases h
    exact (loopFailure_cases _ _).imp_right .inr
  | case12 =>
    rename_i hf ih
    cases h
    exact ih hf
  | case5 | case9 | case11 => simp_all

/-- The NUL that ends the tracing of a path is in the path itself. -/
theorem nul_of_trace (ht : d.tree.Proper) (hw : d.Settled) (hp : Denotes d p l) (hk : Known d seen)
    (h : d.trace true depth p seen parts = .error .nulByte) :
    ∃ part ∈ parts, part.toList.contains (Char.ofNat 0) = true := by
  have hlater {part : String} {rest : List String} (hr : ∃ other ∈ rest, other.toList.contains (Char.ofNat 0) = true) :
      ∃ other ∈ part :: rest, other.toList.contains (Char.ofNat 0) = true := by
    obtain ⟨other, hother, hn⟩ := hr
    exact ⟨other, List.mem_cons_of_mem _ hother, hn⟩
  fun_induction trace d true depth p seen parts generalizing l with
  | case1 | case13 => cases h
  | case2 depth p seen part rest hi ih => exact hlater (ih hp hk h)
  | case3 depth p seen rest hi ih => exact hlater (ih (hp.up ht) hk h)
  | case4 depth p seen part rest hi hu q f hl =>
    cases h
    cases hn : part.toList.contains (Char.ofNat 0) with
    | true => exact ⟨part, List.mem_cons_self, hn⟩
    | false =>
      have hs := isSystem_of_linkAt (hasNul_child (hp.noNul ht) hn) hl
      cases hs
  | case6 depth p seen part rest hi hu q hl =>
    rename_i ih
    have hd : IsDownward part := .of_not hi hu
    obtain ⟨e, hg, he⟩ := linkAt_ok ht hw hp hd hl
    exact hlater (ih (hp.child hd hg (Node.target?_eq_none.1 he)) hk h)
  | case7 depth p seen part rest hi hu q target hl known hv =>
    rename_i ih
    have hd : IsDownward part := .of_not hi hu
    obtain ⟨_, _, -, hknown⟩ := hk hp.locates (linkAt_link ht hw hp hd hl) hv
    exact hlater (ih hknown hk h)
  | case8 | case10 =>
    have hnul := Except.error.inj h
    obtain hs | ⟨path, hs⟩ := loopFailure_cases d _
    · rw [hnul] at hs
      cases hs
    · cases hnul.symm.trans hs
  | case12 p seen part rest hi hu q target hl hv depth start f hr =>
    -- No link says a text with a NUL.
    rename_i ih
    cases h
    have hd : IsDownward part := .of_not hi hu
    obtain ⟨other, hother, hn⟩ := ih hp.linkStart (hk.begin _) hr
    have hno := noNul_components (ht.linked _ target (linkAt_link ht hw hp hd hl)) hother
    cases hn.symm.trans hno
  | case14 p seen part rest hi hu q target hl hv depth start r₁ seen₁ hr₁ =>
    rename_i ih'
    have hd : IsDownward part := .of_not hi hu
    have hg := linkAt_link ht hw hp hd hl
    obtain ⟨_, c₁, m₁, hwhole, hf₁, hend₁, hk₁⟩ := follows_of_trace ht hw hp.linkStart (hk.begin _) hr₁
    cases hwhole
    exact hlater (ih' hend₁ (hk₁.finish hp.locates hg hf₁ hend₁) h)
  | case5 | case9 | case11 => simp_all

end Tracing

section Canonical

variable {strict : Bool} {e : Node} {seen : Seen} {depth : Nat} {above names rest : List String}

theorem collapseParts_down {done : List String} (h : ∀ name ∈ names, IsDownward name) :
    Path.collapseParts done (names ++ rest) = Path.collapseParts (names.reverse ++ done) rest := by
  induction names generalizing done with
  | nil => rfl
  | cons name names ih =>
    have hname := h name List.mem_cons_self
    rw [List.cons_append, Path.collapseParts, if_neg hname.not_idle, if_neg hname.2,
      ih fun other ho => h other (List.mem_cons_of_mem _ ho)]
    simp

theorem collapseParts_up (n : Nat) :
    Path.collapseParts l.reverse (List.replicate n ".." ++ rest) = Path.collapseParts (ascend n l).reverse rest := by
  induction n generalizing l with
  | zero => rfl
  | succ n ih =>
    rw [List.replicate_succ, List.cons_append, Path.collapseParts, if_neg (by decide), if_pos rfl, List.tail_reverse, ih,
      ascend]

theorem collapse_of_downward {a : Anchor} (h : ∀ name ∈ names, IsDownward name) : Path.collapse ⟨a, names⟩ = ⟨a, names⟩ := by
  have hparts : Path.collapseParts [] (names ++ []) = _ := collapseParts_down h
  rw [List.append_nil, List.append_nil, Path.collapseParts, List.reverse_reverse] at hparts
  rw [Path.collapse, hparts]

/-- What a traced path denotes is told by its text, after that of the working directory. -/
theorem Denotes.collapse (ht : d.tree.Proper) (hw : d.Settled) (h : Denotes d p l) :
    (d.workingPath / p).collapse = ⟨.rooted, l⟩ := by
  obtain ⟨hlocates, e, hg, -⟩ := h
  have hnames (name : String) (hn : name ∈ l) : IsDownward name := (ht.named l e hg name hn).isDownward
  cases hlocates with
  | rooted => exact collapse_of_downward hnames
  | @relative n names hdots =>
    have hworking (name : String) (hn : name ∈ d.workingDirectory) : IsDownward name := (Tree.Stands.isName hw hn).isDownward
    have hbelow (name : String) (hn : name ∈ names) : IsDownward name := hnames name (List.mem_append_right _ hn)
    have hparts : Path.collapseParts [] (d.workingDirectory ++ (List.replicate n ".." ++ (names ++ []))) =
        ascend n d.workingDirectory ++ names := by
      rw [collapseParts_down hworking, List.append_nil d.workingDirectory.reverse, collapseParts_up,
        collapseParts_down hbelow, Path.collapseParts, List.reverse_append, List.reverse_reverse, List.reverse_reverse]
    rw [List.append_nil] at hparts
    exact congrArg (Path.mk .rooted) hparts

theorem denotes_traceStart (hw : d.Settled) (p : Path) : Denotes d (traceStart p) (d.start p) := by
  unfold traceStart start
  split
  · exact d.denotes_root
  · exact denotes_current hw

theorem canonical_of_whole {r : Path} (h : d.trace true d.nesting (traceStart p) [] p.parts = .ok (.whole r, seen)) :
    d.canonical true p = .ok (d.workingPath / r).collapse := by
  rw [traceStart] at h
  rw [canonical, h]
  rfl

/-- An entry that is no link is found under its own names. -/
theorem look_rooted (ht : d.tree.Proper) (hl : d.tree.Solid l) (hg : d.tree.get? l = some e) {follow : Bool}
    (hb : (⟨.rooted, l⟩ : Path).byteSize < pathLimit) : d.look ⟨follow, false⟩ ⟨.rooted, l⟩ = .ok (.found l e) := by
  have hdenotes : Denotes d ⟨.rooted, l⟩ l := ⟨.rooted, hl⟩
  obtain ⟨e', hg', he⟩ := hl
  cases hg.symm.trans hg'
  refine look_eq_ok.2 ⟨hdenotes.noNul ht, hb, Tree.leads_of_walk ?_⟩
  obtain rfl | ⟨above, name, rfl⟩ := List.eq_nil_or_concat' l
  · cases hg
    exact Tree.Leads.here.walk_eq
  · have habove : Denotes d ⟨.rooted, above⟩ above :=
      ⟨.rooted, .directory, ht.within above name e hg, Node.directory_ne_link⟩
    exact walk_of_some ht habove hg rfl fun target hlink => absurd hlink (he target)

/-- The names of an entry that is no link are traced one by one. -/
theorem trace_rooted (ht : d.tree.Proper) (hl : d.tree.Solid (above ++ names))
    (hb : (⟨.rooted, above ++ names⟩ : Path).byteSize < pathLimit) :
    d.trace true depth ⟨.rooted, above⟩ seen names = .ok (.whole ⟨.rooted, above ++ names⟩, seen) := by
  induction names generalizing above with
  | nil => rw [trace, List.append_nil]
  | cons name names ih =>
    have hsplit : above ++ name :: names = above ++ [name] ++ names := by simp
    rw [hsplit] at hl hb ⊢
    have hname : above ++ [name] <+: above ++ [name] ++ names := List.prefix_append _ _
    obtain ⟨e, hg, he⟩ := hl.of_prefix ht hname
    have habove : Denotes d ⟨.rooted, above⟩ above :=
      ⟨.rooted, .directory, ht.within above name e hg, Node.directory_ne_link⟩
    have hlink := linkAt_of_some ht habove hg (Path.byteSize_lt_of_above hname hb)
    rw [Node.target?_eq_none.2 he] at hlink
    have hd := (ht.isName hg).isDownward
    rw [trace_plain hd.not_idle hd.2 hlink]
    exact ih hl hb

/-- An absolute path that goes through no link is canonical already. -/
theorem canonical_rooted (ht : d.tree.Proper) (hw : d.Settled) (hl : d.tree.Solid l)
    (hb : (⟨.rooted, l⟩ : Path).byteSize < pathLimit) : d.canonical true ⟨.rooted, l⟩ = .ok ⟨.rooted, l⟩ := by
  have hdenotes : Denotes d ⟨.rooted, l⟩ l := ⟨.rooted, hl⟩
  have htrace : d.trace true d.nesting (traceStart ⟨.rooted, l⟩) [] l = .ok (.whole ⟨.rooted, l⟩, []) :=
    trace_rooted ht hl hb
  rw [canonical_of_whole htrace]
  exact congrArg Except.ok (hdenotes.collapse ht hw)

end Canonical

end Disk

end Hotload.Files
