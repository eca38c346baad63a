import Hotload.Proofs.Action
import Hotload.Proofs.Files.Climbing
import Hotload.Proofs.Files.Nested
import Hotload.Watcher.Run
import Mathlib

/-!
What a watcher reports. Its listing is always that of the files as it saw them last, so a poll reports a change, once, just if
a watched file was added, removed or modified since then; else nothing happens. What is reported depends on nothing but
which files are watched and their times.
-/
namespace Hotload.Watcher

open Files Files.Disk

/-- Polls in some states of the files, one after another; true for each poll that reports a change. -/
def follow (w : Watcher) : List Disk → Action (List Bool)
  | [] => return []
  | d :: ds => do
    modify fun h => { h with disk := d }
    let (changed, w) ← w.pollOnce
    let rest ← w.follow ds
    return changed :: rest

/-- Answers that tell for each of some states of the files whether it is an altered one. -/
inductive Answers (ps : List Path) : Disk → List Disk → List Bool → Prop where
  | nil {d : Disk} : Answers ps d [] []
  | cons {d d' : Disk} {ds : List Disk} {b : Bool} {bs : List Bool} : (b = true ↔ Altered d d' ps) → Answers ps d' ds bs →
      Answers ps d (d' :: ds) (b :: bs)

variable {w : Watcher} {d d' : Disk} {ds ds' : List Disk} {ps ps' : List Path} {bs bs' : List Bool}
  {h : Host} {ls : Listing} {interval : Binary64}

theorem start_eq_ok :
    start d ps interval = .ok w ↔ w.paths = ps ∧ w.interval = interval ∧ d.snapshot ps = .ok w.seen := by
  obtain ⟨paths, seen, between⟩ := w
  rw [start]
  cases hs : d.snapshot ps with
  | error f => simp [Except.map]
  | ok ls => simp [Except.map, eq_comm, and_comm]

theorem start_ok_iff : (∃ w, start d ps interval = .ok w) ↔ ∀ p ∈ ps, ¬d.Oversized p := by
  rw [← snapshot_ok_iff, start]
  cases d.snapshot ps with
  | error f => exact iff_of_false nofun nofun
  | ok ls => exact iff_of_true ⟨_, rfl⟩ ⟨_, rfl⟩

theorem start_ok (hw : d.Watchable ps) : ∃ w, start d ps interval = .ok w :=
  start_ok_iff.2 hw.fitting

theorem poll_of_snapshot (hs : d.snapshot w.paths = .ok ls) :
    w.poll d = .ok (if ls = w.seen then (false, w) else (true, { w with seen := ls })) := by
  rw [poll, hs]
  rfl

/-- A poll fails just if the system finds one of the watched paths too long, and then nothing else happens. -/
theorem pollOnce_error_iff : (∃ f, w.pollOnce h = (.error f, h)) ↔ ∃ p ∈ w.paths, h.disk.Oversized p := by
  have hask : Action.ask (Watcher.poll · w) h = (w.poll h.disk, h) := Action.ask_eq _ h
  have hall : (∃ p ∈ w.paths, h.disk.Oversized p) ↔ ¬∃ ls, h.disk.snapshot w.paths = .ok ls := by
    rw [snapshot_ok_iff]
    simp
  rw [hall, pollOnce, Action.bind_eq, hask, poll]
  cases h.disk.snapshot w.paths with
  | error f => exact iff_of_true ⟨f, rfl⟩ nofun
  | ok ls =>
    refine iff_of_false ?_ fun hno => hno ⟨_, rfl⟩
    rintro ⟨f, hf⟩
    have hresult := congrArg Prod.fst hf
    simp only [Except.map] at hresult
    split at hresult <;> cases hresult

/-- Nothing happens if nothing was altered. -/
theorem pollOnce_unaltered (hd : d.Watchable ps) (hd' : h.disk.Watchable ps) (hw : start d ps interval = .ok w)
    (ha : ¬Altered d h.disk ps) : w.pollOnce h = (.ok (false, w), h) ∧ start h.disk ps interval = .ok w := by
  obtain ⟨rfl, rfl, hseen⟩ := start_eq_ok.1 hw
  obtain ⟨ls, hs⟩ := hd'.snapshot_ok
  obtain rfl : w.seen = ls := (hd.snapshot_eq_iff hd' hseen hs).2 ((Watchable.not_altered_iff hd').1 ha)
  have hpoll : w.poll h.disk = .ok (false, w) := by
    rw [poll_of_snapshot hs, if_pos rfl]
  refine ⟨?_, start_eq_ok.2 ⟨rfl, rfl, hs⟩⟩
  rw [pollOnce, Action.bind_of_ok (Action.ask_of_ok hpoll)]
  rfl

/-- A change is reported once, and from then on it is known. -/
theorem pollOnce_altered (hd : d.Watchable ps) (hd' : h.disk.Watchable ps) (hw : start d ps interval = .ok w)
    (ha : Altered d h.disk ps) :
    ∃ w' h', w.pollOnce h = (.ok (true, w'), h') ∧ h'.effects = h.effects ++ [.change] ∧ start h.disk ps interval = .ok w' := by
  obtain ⟨rfl, rfl, hseen⟩ := start_eq_ok.1 hw
  obtain ⟨ls, hs⟩ := hd'.snapshot_ok
  have hne : ls ≠ w.seen := fun heq =>
    (Watchable.not_altered_iff hd').2 ((hd.snapshot_eq_iff hd' hseen hs).1 heq.symm) ha
  let w' : Watcher := { w with seen := ls }
  have hpoll : w.poll h.disk = .ok (true, w') := by
    rw [poll_of_snapshot hs, if_neg hne]
  refine ⟨w', (Action.note .change (Action.log w'.changeEvent h).2).2, ?_, rfl, start_eq_ok.2 ⟨rfl, rfl, hs⟩⟩
  rw [pollOnce, Action.bind_of_ok (Action.ask_of_ok hpoll)]
  rfl

theorem follow_cons (w : Watcher) (d : Disk) (ds : List Disk) (h : Host) :
    w.follow (d :: ds) h =
      match w.pollOnce { h with disk := d } with
      | (.error f, h₁) => (.error f, h₁)
      | (.ok (changed, w), h₁) =>
        match w.follow ds h₁ with
        | (.error f, h₂) => (.error f, h₂)
        | (.ok rest, h₂) => (.ok (changed :: rest), h₂) := by
  have hset : (modify fun h => { h with disk := d } : Action Unit) h = (.ok (), { h with disk := d }) := rfl
  rw [follow, Action.bind_of_ok hset, Action.bind_eq]
  rcases w.pollOnce { h with disk := d } with ⟨f | ⟨changed, w'⟩, h₁⟩
  · rfl
  · dsimp only
    rw [Action.bind_eq]
    rcases w'.follow ds h₁ with ⟨f | rest, h₂⟩ <;> rfl

/-- Each poll tells whether the files were altered since the one before, and each change is reported once. -/
theorem follow_answers (hd : d.Watchable ps) (hds : ∀ e ∈ ds, e.Watchable ps) (hw : start d ps interval = .ok w) (h : Host) :
    ∃ bs h', w.follow ds h = (.ok bs, h') ∧ Answers ps d ds bs ∧
      h'.effects = h.effects ++ List.replicate (bs.count true) .change := by
  induction ds generalizing d w h with
  | nil => exact ⟨[], h, rfl, .nil, (List.append_nil _).symm⟩
  | cons e ds ih =>
    have he := hds e List.mem_cons_self
    have hrest := fun e' he' => hds e' (List.mem_cons_of_mem e he')
    rw [follow_cons]
    by_cases ha : Altered d e ps
    · obtain ⟨w', h₁, hpoll, heffects, hw'⟩ := pollOnce_altered (h := { h with disk := e }) hd he hw ha
      obtain ⟨bs, h₂, hfollow, hanswers, heffects'⟩ := ih he hrest hw' h₁
      refine ⟨true :: bs, h₂, by rw [hpoll]; dsimp only; rw [hfollow], .cons (iff_of_true rfl ha) hanswers, ?_⟩
      rw [heffects', heffects, List.count_cons_self, List.replicate_succ, List.append_assoc]
      rfl
    · obtain ⟨hpoll, hw'⟩ := pollOnce_unaltered (h := { h with disk := e }) hd he hw ha
      obtain ⟨bs, h₂, hfollow, hanswers, heffects⟩ := ih he hrest hw' { h with disk := e }
      refine ⟨false :: bs, h₂, by rw [hpoll]; dsimp only; rw [hfollow],
        .cons (iff_of_false Bool.false_ne_true ha) hanswers, ?_⟩
      rw [heffects, List.count_cons_of_ne (by decide)]

/-- In two states of the files the same files are watched with the same times, each by its own paths. -/
def Same (ps ps' : List Path) (d d' : Disk) : Prop :=
  ∀ q t, d.Watched ps t q ↔ d'.Watched ps' t q

theorem Same.altered {e e' : Disk} (h : Same ps ps' d d') (h' : Same ps ps' e e') (ha : Altered d e ps) :
    Altered d' e' ps' := by
  cases ha with
  | added hq hno => exact .added ((h' _ _).1 hq) fun t hq' => hno t ((h _ _).2 hq')
  | removed hq hno => exact .removed ((h _ _).1 hq) fun t hq' => hno t ((h' _ _).2 hq')
  | modified hq hq' hne => exact .modified ((h _ _).1 hq) ((h' _ _).1 hq') hne

theorem Same.symm (h : Same ps ps' d d') : Same ps' ps d' d :=
  fun q t => (h q t).symm

/-- There are the same answers where the same files are watched. -/
theorem Answers.unique (ha : Answers ps d ds bs) (ha' : Answers ps' d' ds' bs')
    (hs : List.Forall₂ (Same ps ps') (d :: ds) (d' :: ds')) : bs = bs' := by
  induction ha generalizing d' ds' bs' with
  | nil =>
    obtain ⟨-, hs⟩ := List.forall₂_cons.1 hs
    cases hs
    cases ha'
    rfl
  | cons hb _ ih =>
    obtain ⟨hfirst, hs⟩ := List.forall₂_cons.1 hs
    cases ha' with
    | nil => cases hs
    | cons hb' hrest' =>
      have hsecond := (List.forall₂_cons.1 hs).1
      rw [ih hrest' hs, Bool.eq_iff_iff.2 (hb.trans (Iff.trans ?_ hb'.symm))]
      exact ⟨hfirst.altered hsecond, hfirst.symm.altered hsecond.symm⟩

/-- Two states of the files with the same entries, which may be listed in different orders, and two lists of paths that
cover each other. -/
structure Alike (ps ps' : List Path) (d d' : Disk) : Prop where
  workingDirectory : d'.workingDirectory = d.workingDirectory
  get? : ∀ l, d'.tree.get? l = d.tree.get? l
  covers : d.Covers ps ps'
  covers' : d.Covers ps' ps

theorem Alike.same (h : Alike ps ps' d d') (hd : d.Watchable ps) (hd' : d'.Watchable ps') : Same ps ps' d d' := by
  have hlevel : Level d d' ps' := level_of_same h.workingDirectory h.get?
  have hlevel' : Level d' d ps' := level_of_same h.workingDirectory.symm fun l => (h.get? l).symm
  have hgrounded : ∀ p ∈ ps', d.Grounded p := fun p hp => by
    have hstart : d'.start p = d.start p := by simp [Disk.start, h.workingDirectory]
    rw [Grounded, ← h.get?, ← hstart]
    exact hd'.grounded p hp
  intro q t
  constructor
  · intro hq
    exact hlevel.watched hd.proper hgrounded hd'.proper hd'.grounded (h.covers'.watched hq)
  · intro hq
    exact h.covers.watched (hlevel'.watched hd'.proper hd'.grounded hd.proper hgrounded hq)

theorem forall₂_same {es es' : List Disk} (ha : List.Forall₂ (Alike ps ps') es es') (hes : ∀ e ∈ es, e.Watchable ps)
    (hes' : ∀ e ∈ es', e.Watchable ps') : List.Forall₂ (Same ps ps') es es' := by
  induction ha with
  | nil => exact .nil
  | cons h _ ih =>
    exact .cons (h.same (hes _ List.mem_cons_self) (hes' _ List.mem_cons_self))
      (ih (fun e he => hes e (List.mem_cons_of_mem _ he)) fun e he => hes' e (List.mem_cons_of_mem _ he))

/-- Where the same files are watched, there are the same answers. -/
theorem follow_same (hds : ∀ e ∈ d :: ds, e.Watchable ps) (hw : start d ps interval = .ok w)
    (hds' : ∀ e ∈ d' :: ds', e.Watchable ps') (hs : List.Forall₂ (Same ps ps') (d :: ds) (d' :: ds')) :
    ∃ w', start d' ps' interval = .ok w' ∧ ∀ h h', (w'.follow ds' h').1 = (w.follow ds h).1 := by
  obtain ⟨hd, hrest⟩ := List.forall_mem_cons.1 hds
  obtain ⟨hd', hrest'⟩ := List.forall_mem_cons.1 hds'
  obtain ⟨w', hw'⟩ := start_ok hd'
  refine ⟨w', hw', fun h h' => ?_⟩
  obtain ⟨bs, h₁, hfollow, hanswers, -⟩ := follow_answers hd hrest hw h
  obtain ⟨bs', h₁', hfollow', hanswers', -⟩ := follow_answers hd' hrest' hw' h'
  rw [hfollow, hfollow', hanswers.unique hanswers' hs]

/-- Let some paths be watched while the files take some states, one after another. Then the watcher can be started, and each
poll tells whether a watched file was added, removed or modified since the one before; that many changes are reported.
A poll that finds a change reports it once and leaves the watcher as if it were started now; a poll that finds none does
nothing, and so does one that fails, which it does just if a path has become too long. Paths that cover the watched ones and
are covered by them lead to the same answers, and so do the same entries in another order; so the order of the paths and
their repetitions are no matter. And if only directories come and go between two states, no watched file is altered, unless
some path or link goes up out of one of these directories. -/
theorem follow_reports_altered (interval : Binary64) (hds : ∀ e ∈ d :: ds, e.Watchable ps) :
    ∃ w, start d ps interval = .ok w ∧
      (∀ h, ∃ bs h', w.follow ds h = (.ok bs, h') ∧ Answers ps d ds bs ∧
        h'.effects = h.effects ++ List.replicate (bs.count true) .change) ∧
      (∀ h, h.disk.Watchable ps → Altered d h.disk ps →
        ∃ w' h', w.pollOnce h = (.ok (true, w'), h') ∧ h'.effects = h.effects ++ [.change] ∧ start h.disk ps interval = .ok w') ∧
      (∀ h, h.disk.Watchable ps → ¬Altered d h.disk ps → w.pollOnce h = (.ok (false, w), h) ∧ start h.disk ps interval = .ok w) ∧
      (∀ h, (∃ f, w.pollOnce h = (.error f, h)) ↔ ∃ p ∈ ps, h.disk.Oversized p) ∧
      (∀ ps' d' ds', List.Forall₂ (Alike ps ps') (d :: ds) (d' :: ds') → (∀ e ∈ d' :: ds', e.Watchable ps') →
        ∃ w', start d' ps' interval = .ok w' ∧ ∀ h h', (w'.follow ds' h').1 = (w.follow ds h).1) ∧
      (∀ ps', (∀ p, p ∈ ps' ↔ p ∈ ps) → ∃ w', start d ps' interval = .ok w' ∧ ∀ h h', (w'.follow ds h').1 = (w.follow ds h).1) ∧
      ∀ e ∈ d :: ds, ∀ e' ∈ d :: ds, Level e e' ps → Level e' e ps → ¬Altered e e' ps := by
  obtain ⟨hd, hrest⟩ := List.forall_mem_cons.1 hds
  obtain ⟨w, hw⟩ := start_ok hd
  refine ⟨w, hw, follow_answers hd hrest hw, fun h hh ha => pollOnce_altered hd hh hw ha,
    fun h hh ha => pollOnce_unaltered hd hh hw ha, fun h => ?_, ?_, ?_, ?_⟩
  · rw [pollOnce_error_iff, (start_eq_ok.1 hw).1]
  · intro ps' d' ds' halike hds'
    exact follow_same hds hw hds' (forall₂_same halike hds hds')
  · intro ps' hmem
    have hds' : ∀ e ∈ d :: ds, e.Watchable ps' := fun e he => (hds e he).of_subset fun p hp => (hmem p).1 hp
    refine follow_same hds hw hds' (forall₂_same (List.forall₂_same.2 fun e he => ?_) hds hds')
    exact ⟨rfl, fun _ => rfl, covers_of_subset (hds e he).proper (hds' e he).grounded fun p hp => (hmem p).1 hp,
      covers_of_subset (hds e he).proper (hds e he).grounded fun p hp => (hmem p).2 hp⟩
  · intro e he e' he' hlevel hlevel'
    exact hlevel.not_altered hlevel' (hds e he) (hds e' he')

/-- Nothing but a file of some time. -/
def touched (t : Int) : Disk :=
  ⟨⟨[(["f"], .file .empty t)]⟩, [], 950⟩

theorem look_touched (t : Int) : (touched t).look ⟨true, false⟩ ⟨.relative, ["f"]⟩ = .ok (.found ["f"] (.file .empty t)) :=
  look_eq_ok.2 ⟨by decide, by decide, .file ⟨by decide, by decide, by decide, by decide⟩ rfl⟩

theorem watchable_touched (t : Int) : (touched t).Watchable [⟨.relative, ["f"]⟩] where
  proper := by
    have hname : IsName "f" := ⟨by decide, by decide, by decide, by decide, by decide⟩
    refine Tree.proper_of_entries ?_ ?_ ?_ <;> simp [touched, hname, Tree.get?]
  grounded p hp := by
    rw [List.mem_singleton.1 hp]
    rfl
  neat p hp := by
    rw [List.mem_singleton.1 hp]
    exact Path.isNeat_ofString "f"
  fitting p hp := by
    rw [List.mem_singleton.1 hp, Oversized, look_touched]
    simp

theorem watched_touched (t : Int) : (touched t).Watched [⟨.relative, ["f"]⟩] t ⟨.relative, ["f"]⟩ :=
  .itself List.mem_cons_self (look_touched t)

/-- A file that is touched is reported once, and not again. -/
theorem follow_reports_altered_touched :
    (∀ e ∈ [touched 5, touched 6, touched 6], e.Watchable [⟨.relative, ["f"]⟩]) ∧
      ∃ w, start (touched 5) [⟨.relative, ["f"]⟩] standardInterval = .ok w ∧
        ∀ h, (w.follow [touched 6, touched 6] h).1 = .ok [true, false] := by
  have hds : ∀ e ∈ [touched 5, touched 6, touched 6], e.Watchable [⟨.relative, ["f"]⟩] := by
    simp [watchable_touched]
  refine ⟨hds, ?_⟩
  obtain ⟨w, hw, hfollow, -⟩ := follow_reports_altered standardInterval hds
  refine ⟨w, hw, fun h => ?_⟩
  obtain ⟨bs, h', hbs, hanswers, -⟩ := hfollow h
  have haltered : Altered (touched 5) (touched 6) [⟨.relative, ["f"]⟩] :=
    .modified (watched_touched 5) (watched_touched 6) (by decide)
  have hunaltered : ¬Altered (touched 6) (touched 6) [⟨.relative, ["f"]⟩] :=
    (Watchable.not_altered_iff (watchable_touched 6)).2 fun _ _ => Iff.rfl
  obtain _ | ⟨hfirst, _ | ⟨hsecond, ⟨⟩⟩⟩ := hanswers
  rw [hbs, hfirst.2 haltered, Bool.eq_false_iff.2 fun hb => hunaltered (hsecond.1 hb)]

/-- A file, and a directory with nothing in it. -/
def besides : Disk :=
  ⟨⟨[(["x"], .directory), (["f"], .file .empty 5)]⟩, [], 950⟩

/-- A directory with a link to another one, in which there is a file of some time. -/
def bridged (t : Int) : Disk :=
  ⟨⟨[(["a"], .directory), (["a", "l"], .link "../b"), (["b"], .directory), (["b", "g"], .file .empty t)]⟩, [], 950⟩

/-- Nothing but a link. -/
def linked (target : String) : Disk :=
  ⟨⟨[(["l"], .link target)]⟩, [], 950⟩

/-- A link to a name that is too long. -/
theorem oversized_linked {name : String} (hslash : '/' ∉ name.toList) (hlong : nameLimit < name.utf8ByteSize) :
    (linked name).Oversized ⟨.relative, ["l"]⟩ := by
  have hne (s : String) (hs : s.utf8ByteSize ≤ nameLimit) : name ≠ s := by
    rintro rfl
    exact absurd hlong (Nat.not_lt.2 hs)
  have hcomponents : components name = [name] := by
    rw [components, splitSlashes_of_notMem hslash]
    simp
  have hget : (linked name).tree.get? ([] ++ ["l"]) = some (.link name) := rfl
  have henters : Tree.Enters ⟨true, false⟩ "l" [] := ⟨by decide, by decide, by decide, by decide⟩
  have hidle : Path.isIdle name = false := by
    simp [Path.isIdle, hne "" (by decide), hne "." (by decide)]
  have hwalk : (linked name).tree.walk ⟨true, false⟩ linkLimit [] ["l"] = .error .nameTooLong := by
    rw [Tree.walk_enters henters, hget]
    change (linked name).tree.walk ⟨true, false⟩ (linkLimit - 1) _ (components name ++ []) = _
    rw [hcomponents]
    exact Tree.walk_long hidle (hne _ (by decide)) rfl hlong
  exact look_of_walk_error (by decide) (by decide) hwalk

/-- The root, by going up again and again. -/
def rootAfter (n : Nat) : Path :=
  ⟨.rooted, List.replicate n ".."⟩

theorem byteSize_rootAfter {n : Nat} (hn : n ≠ 0) (names : List String) :
    ((rootAfter n).descend names).byteSize = n * 3 + Path.span names := by
  have hparts : List.replicate n ".." ++ names ≠ [] := by simp [hn]
  have hsize : ((rootAfter n).descend names).byteSize + 1 = 1 + Path.span (List.replicate n ".." ++ names) :=
    Path.byteSize_eq hparts
  have hspan : Path.span (List.replicate n "..") = n * 3 := Path.span_replicate n ".."
  rw [Path.span_append, hspan] at hsize
  omega

theorem look_rootAfter {n : Nat} (hn : n ≠ 0) (hshort : n * 3 < pathLimit) (d : Disk) :
    d.look ⟨true, false⟩ (rootAfter n) = .ok (.found [] .directory) := by
  have hup (n : Nat) : d.tree.Leads ⟨true, false⟩ linkLimit [] (List.replicate n "..") (.found [] .directory) := by
    induction n with
    | zero => exact .here
    | succ n ih => exact .up ih
  have hsize : (rootAfter n).byteSize = n * 3 := by
    have hdescend := byteSize_rootAfter hn []
    rwa [Path.descend_nil] at hdescend
  exact look_eq_ok.2 ⟨by simp [rootAfter, Path.hasNul], by rwa [hsize], hup n⟩

/-- A file is not seen by a path that is too long with its name. -/
theorem snapshot_rootAfter {n : Nat} (hn : n ≠ 0) (hshort : n * 3 < pathLimit) (hlong : pathLimit ≤ n * 3 + 2) (t : Int) :
    (touched t).snapshot [rootAfter n] = .ok [] := by
  have hfiles : (touched t).filesAt (rootAfter n) = .ok [(rootAfter n).descend ["f"]] :=
    filesAt_of_directory (look_rootAfter hn hshort _)
  have hnone : (touched t).modified? ((rootAfter n).descend ["f"]) = none := by
    have hnul : ((rootAfter n).descend ["f"]).hasNul = false := by simp [rootAfter, Path.descend, Path.hasNul]
    have hbytes : pathLimit ≤ ((rootAfter n).descend ["f"]).byteSize := by
      rw [byteSize_rootAfter hn]
      exact hlong
    rw [modified?, oversized_of_byteSize hnul hbytes]
  simp [snapshot, hfiles, hnone, bind, Except.bind, pure, Except.pure, Listing.ofList]

/-- Removing an empty directory is reported where a watched path goes up out of it. A nested path is not without effect where
it is a link to a directory. A link may be found too long, and then the watcher does not start. And a file is not watched if
its own path is too long. -/
theorem follow_reports_altered_fails :
    (∃ w, start besides [⟨.relative, ["x", ".."]⟩] standardInterval = .ok w ∧ besides.tree.below ["x"] = [] ∧
      (w.poll { besides with tree := besides.tree.remove ["x"] }).map Prod.fst = .ok true) ∧
    ((∃ w, start (bridged 1) [⟨.relative, ["a"]⟩] standardInterval = .ok w ∧ (w.poll (bridged 2)).map Prod.fst = .ok false) ∧
      ∃ w, start (bridged 1) [⟨.relative, ["a"]⟩, ⟨.relative, ["a", "l"]⟩] standardInterval = .ok w ∧
        (w.poll (bridged 2)).map Prod.fst = .ok true) ∧
    (¬∃ w, start (linked (String.ofList (List.replicate 256 'm'))) [⟨.relative, ["l"]⟩] standardInterval = .ok w) ∧
    ∃ p w, (touched 5).look ⟨true, false⟩ p = .ok (.found [] .directory) ∧ start (touched 5) [p] standardInterval = .ok w ∧
      (w.poll (touched 6)).map Prod.fst = .ok false := by
  have hbesides : besides.snapshot [⟨.relative, ["x", ".."]⟩] = .ok [(⟨.relative, ["x", "..", "f"]⟩, 5)] := by cbv
  have hremoved : Disk.snapshot { besides with tree := besides.tree.remove ["x"] } [⟨.relative, ["x", ".."]⟩] = .ok [] := by
    cbv
  have houter (t : Int) : (bridged t).snapshot [⟨.relative, ["a"]⟩] = .ok [] := by cbv
  have hinner (t : Int) : (bridged t).snapshot [⟨.relative, ["a"]⟩, ⟨.relative, ["a", "l"]⟩] =
      .ok [(⟨.relative, ["a", "l", "g"]⟩, t)] := by cbv
  have hunseen := snapshot_rootAfter (n := 1365) (by decide) (by decide) (by decide)
  have hlinked : (linked (String.ofList (List.replicate 256 'm'))).Oversized ⟨.relative, ["l"]⟩ := by
    have hslash : '/' ∉ List.replicate 256 'm' := fun h => absurd (List.eq_of_mem_replicate h) (by decide)
    refine oversized_linked (by rwa [String.toList_ofList]) ?_
    rw [utf8ByteSize_replicate]
    decide
  have hpolled {ps : List Path} {d d' : Disk} {seen ls : Listing} (hs : d.snapshot ps = .ok seen)
      (hs' : d'.snapshot ps = .ok ls) :
      ∃ w, start d ps standardInterval = .ok w ∧ (w.poll d').map Prod.fst = .ok (!decide (ls = seen)) := by
    refine ⟨⟨ps, seen, standardInterval⟩, start_eq_ok.2 ⟨rfl, rfl, hs⟩, ?_⟩
    rw [poll_of_snapshot hs']
    by_cases h : ls = seen <;> simp [h, Except.map]
  obtain ⟨w, hw, hpoll⟩ := hpolled hbesides hremoved
  obtain ⟨v, hv, hpoll'⟩ := hpolled (hunseen 5) (hunseen 6)
  refine ⟨⟨w, hw, rfl, hpoll⟩, ⟨hpolled (houter 1) (houter 2), hpolled (hinner 1) (hinner 2)⟩, ?_, rootAfter 1365, v,
    look_rootAfter (by decide) (by decide) _, hv, hpoll'⟩
  exact fun hstart => start_ok_iff.1 hstart _ List.mem_cons_self hlinked

end Hotload.Watcher
