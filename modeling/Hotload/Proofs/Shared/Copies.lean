import Hotload.Proofs.Library.Copies
import Hotload.Proofs.Shared.Upkeep
import Mathlib

/-!
Directories of copies in the life of a handle. Whatever the threads, the owner, timers and the watcher do, there is one
for each library that is open, and one more for each reload that failed and left its own.
-/
namespace Hotload

open NativeLoader (copying)

variable {linker : Linker} {spare left : Nat}

theorem Session.load_balanced {s s' : Session} {r : Outcome LibraryId} (hl : s.loader = .native (copying linker spare))
    (hb : s.host.shelf.Balanced left) (h : s.load = (r, s')) :
    s'.host.shelf.Balanced (left + Loader.stranded r) := by
  obtain ⟨-, rfl, hs⟩ := load_eq h
  rw [hs, hl]
  exact NativeLoader.balanced_load linker spare _ _ hb

/-- Whether a step of a thread leaves a directory that no library has. -/
def Deed.strands : Deed → Bool
  | .fail f => f.strandsCopy
  | _ => false

/-- Reloads and calls keep the directories in step with the libraries. -/
theorem Thread.Step.balanced {s s' : Session} {l l' : ReadWriteLock} {x y : Thread} {d : Deed}
    (hl : s.loader = .native (copying linker spare)) (hb : s.host.shelf.Balanced left) (h : Step s l x d y s' l') :
    s'.host.shelf.Balanced (left + d.strands.toNat) := by
  cases h with
  | load h => exact Session.load_balanced hl hb h
  | fail h =>
    rw [Session.shelf_abandon]
    exact Session.load_balanced hl hb h
  | drop =>
    rw [Session.shelf_settle]
    exact hb.close _
  | @answer e library =>
    cases e.asks with
    | lookup name => exact hb
    | call d as => exact hb.call library d as
  | leaveRead =>
    rw [Errand.shelf_conclude]
    exact hb
  | install | decline | enterWrite | leaveWrite | enterRead | look => exact hb

theorem Closing.Step.balanced {s s' : Session} {l l' : ReadWriteLock} {c c' : Closing} {d : Deed}
    (hb : s.host.shelf.Balanced left) (h : Step s l c d c' s' l') : s'.host.shelf.Balanced left := by
  cases h with
  | close => exact hb.close _
  | silence hs =>
    obtain ⟨lingering, rfl⟩ := Session.silence_ok hs
    exact hb
  | mark | again | fail | enter | leave => exact hb

namespace Shared.Upkeep

variable {w v : Shared} {e : Event} {es : List Event}

/-- Whether an event leaves a directory that no library has. -/
def Event.strands : Event → Bool
  | .shared (.act _ d) => d.strands
  | _ => false

/-- A step on a handle that loads native libraries from copies, as its loader does for its whole life. -/
def CopyStep (linker : Linker) (spare : Nat) (w : Shared) (e : Event) (v : Shared) : Prop :=
  w.session.loader = .native (copying linker spare) ∧ Step w e v

theorem CopyStep.balanced (h : CopyStep linker spare w e v) (hb : w.shelf.Balanced left) :
    v.shelf.Balanced (left + e.strands.toNat) := by
  obtain ⟨hl, h⟩ := h
  cases h with
  | shared h helsewhere =>
    cases h with
    | demand => exact hb
    | act hx hs => exact hs.balanced hl hb
    | owner hs => exact hs.balanced hb
    | elsewhere => exact absurd rfl helsewhere
  | notify => exact hb
  | expire id => exact hb
  | watch hs =>
    have hshelf := (alike_watch hs).1.shelf
    rw [Shared.shelf, setSession, hshelf]
    exact hb
  | fail => exact hb
  | poll =>
    have hshelf := (alike_poll w.session).1.shelf
    rw [Shared.shelf, setSession, hshelf]
    exact hb
  | machine hh hs =>
    rw [Shared.shelf, setSession, hs]
    exact hb

theorem balanced_run (h : Runs (CopyStep linker spare) w es v) (hb : w.shelf.Balanced left) :
    v.shelf.Balanced (left + es.countP Event.strands) := by
  induction h with
  | none => exact hb
  | @more _ e _ _ _ hs ih =>
    have hlast : [e].countP Event.strands = e.strands.toNat := by
      rw [List.countP_singleton]
      cases e.strands <;> rfl
    rw [List.countP_append, hlast, ← Nat.add_assoc]
    exact hs.balanced ih

/-- A handle that was spawned has a library with a directory of its own. -/
theorem balanced_spawn {path : Files.Path} {delay : Int} {interval : Binary64} {watch : Bool} {h h' : Host}
    {handle : Handle} (hs : Handle.spawn (.native (copying linker spare)) path delay interval watch h = (.ok handle, h'))
    (hb : h.shelf.Balanced left) :
    h'.shelf.Balanced left := by
  obtain ⟨⟨h₁, hl, hshelf⟩, -⟩ := Handle.spawn_load hs
  obtain ⟨hr, hload⟩ := Loader.loadFile_ok hl
  have hbalanced := NativeLoader.balanced_load linker spare h.disk path hb
  dsimp only at hbalanced
  rw [hshelf, hload]
  rw [show ((copying linker spare).load h.disk path h.shelf).outcome = _ from hr] at hbalanced
  exact hbalanced

end Shared.Upkeep

namespace Loader

/-- A library without functions and its type table. -/
def stocked : Files.Disk :=
  ⟨⟨[(["mod.so"], .file "\x7b\"symbols\": \x7b\x7d\x7d".toUTF8 0),
    (["mod.so.types.json"], .file "\x7b\"functions\": []\x7d".toUTF8 0)]⟩, [], 950⟩

/-- The type table without the library. -/
def unstocked : Files.Disk :=
  ⟨⟨[(["mod.so.types.json"], .file "\x7b\"functions\": []\x7d".toUTF8 0)]⟩, [], 950⟩

def moduleFile : Files.Path := ⟨.relative, ["mod.so"]⟩

theorem readFile_of_get? {d : Files.Disk} {name : String} {content : ByteArray}
    (hn : Files.Path.hasNul ⟨.relative, [name]⟩ = false)
    (hb : Files.Path.byteSize ⟨.relative, [name]⟩ < Files.pathLimit) (he : Files.Tree.Enters ⟨true, false⟩ name [])
    (hw : d.workingDirectory = []) (hg : d.tree.get? [name] = some (.file content 0)) :
    d.readFile ⟨.relative, [name]⟩ = .ok content := by
  have hstart : d.start ⟨.relative, [name]⟩ = [] := hw
  have hlook : d.look ⟨true, false⟩ ⟨.relative, [name]⟩ = .ok (.found [name] (.file content 0)) :=
    Files.Disk.look_eq_ok.2 ⟨hn, hb, by rw [hstart]; exact .file he hg⟩
  rw [Files.Disk.readFile, hlook]

set_option maxRecDepth 20000 in
theorem parse_functions : Json.parse (TypeTable.levels + 0) (Text.unifyLineEnds "\x7b\"functions\": []\x7d".toList) =
    .ok (.object [(.plain "functions", .list [])]) := by
  cbv

set_option maxRecDepth 20000 in
theorem parse_symbols : Json.parse StandIn.depth (Text.unifyLineEnds "\x7b\"symbols\": \x7b\x7d\x7d".toList) =
    .ok (.object [(.plain "symbols", .object [])]) := by
  cbv

theorem pathFor_moduleFile : TypeTable.pathFor moduleFile = .ok ⟨.relative, ["mod.so.types.json"]⟩ := by
  rw [TypeTable.pathFor, if_neg (by decide)]
  exact congrArg Except.ok (by decide)

theorem read_functions {d : Files.Disk} (hw : d.workingDirectory = [])
    (hg : d.tree.get? ["mod.so.types.json"] = some (.file "\x7b\"functions\": []\x7d".toUTF8 0)) :
    TypeTable.pathFor moduleFile >>= TypeTable.read 0 d = .ok [] := by
  have hread : d.readFile ⟨.relative, ["mod.so.types.json"]⟩ >>= TypeTable.parse 0 =
      .ok (.object [(.plain "functions", .list [])]) := by
    rw [readFile_of_get? (by decide) (by decide) ⟨by decide, by decide, by decide, by decide⟩ hw hg]
    exact TypeTable.parse_toUTF8 parse_functions
  rw [pathFor_moduleFile]
  change TypeTable.read 0 d _ = _
  rw [TypeTable.read, hread]
  rfl

theorem load_unstocked (s : Shelf) :
    (copying StandIn.linker 0).load unstocked moduleFile s = ⟨.error (Files.Disk.missing moduleFile), s.makeCopy.2, []⟩ := by
  have hlook : unstocked.look ⟨true, false⟩ moduleFile = .ok (.absent [] "mod.so") :=
    Files.Disk.look_eq_ok.2 ⟨by decide, by decide, .absent ⟨by decide, by decide, by decide, by decide⟩ rfl⟩
  have hr : unstocked.readFile moduleFile = .error (Files.Disk.missing moduleFile) := by
    rw [Files.Disk.readFile, hlook]
  rw [NativeLoader.load_of_table (read_functions rfl rfl), hr]

theorem load_stocked (s : Shelf) : ((copying StandIn.linker 0).load stocked moduleFile s).outcome = .ok s.size := by
  have hr : stocked.readFile moduleFile = .ok "\x7b\"symbols\": \x7b\x7d\x7d".toUTF8 :=
    readFile_of_get? (by decide) (by decide) ⟨by decide, by decide, by decide, by decide⟩ rfl rfl
  have hsymbols : StandIn.symbols? "\x7b\"symbols\": \x7b\x7d\x7d".toUTF8 = some [] := by
    rw [StandIn.symbols?, TypeTable.fromUTF8?_toUTF8, Option.bind_eq_bind, Option.bind_some, parse_symbols]
    rfl
  have himage : StandIn.linker.image? stocked moduleFile (some "\x7b\"symbols\": \x7b\x7d\x7d".toUTF8) =
      some (StandIn.image []) := congrArg (Option.map StandIn.image) hsymbols
  rw [NativeLoader.load_of_table (read_functions rfl rfl), hr]
  dsimp only
  rw [NativeLoader.openFile, Option.map_some, show (copying StandIn.linker 0).linker = StandIn.linker from rfl, himage]
  rfl

/-- On a file, a load that succeeds is one of the machine. -/
theorem loadFile_of_load {l : Loader} {path : Files.Path} {h : Host} {id : LibraryId} (hf : h.disk.isFile path = .ok true)
    (hl : (l.load h.disk path h.shelf).outcome = .ok id) : ∃ h', l.loadFile path h = (.ok id, h') := by
  have hload := (loadOn_eq l path h).1
  rw [hl] at hload
  rcases hx : l.loadOn path h with ⟨r, h'⟩
  rw [hx] at hload
  cases hload
  refine ⟨h', ?_⟩
  rw [loadFile, Action.bind_of_ok (Action.ask_of_ok hf), if_pos rfl, Action.bind_of_ok (Action.attempt_eq _ h), hx]
  rfl

theorem spawn_stocked :
    ∃ h, Handle.spawn (.native (copying StandIn.linker 0)) moduleFile Delay.standard Watcher.standardInterval false
      { Host.bare with disk := stocked } = (.ok (.new moduleFile Delay.standard 0), h) := by
  have hfile : stocked.isFile moduleFile = .ok true := by
    have hlook : stocked.look ⟨true, false⟩ moduleFile = .ok (.found ["mod.so"] _) :=
      Files.Disk.look_eq_ok.2 ⟨by decide, by decide, .file ⟨by decide, by decide, by decide, by decide⟩ rfl⟩
    rw [Files.Disk.isFile, Files.Disk.node?, hlook]
    rfl
  obtain ⟨h, hload⟩ := loadFile_of_load (l := .native (copying StandIn.linker 0))
    (h := { Host.bare with disk := stocked }) hfile (load_stocked _)
  rw [Handle.spawn, Action.bind_of_ok hload]
  exact ⟨_, rfl⟩

end Loader

namespace Shared.Upkeep

/-- The file goes away, and then it is reloaded. -/
theorem exists_stranded {s : Session} (hl : s.loader = .native (copying StandIn.linker 0))
    (hp : s.handle.path = Loader.moduleFile) :
    ∃ es v, Runs (CopyStep StandIn.linker 0) (start s) es v ∧ es.countP Event.strands = 1 := by
  let s₁ : Session := { s with host := { s.host with disk := Loader.unstocked } }
  have hload : s₁.load = (.error (Files.Disk.missing Loader.moduleFile), s₁.load.2) := by
    obtain ⟨-, hr, -⟩ := Session.load_eq (s := s₁) rfl
    have houtcome : (s₁.loader.load s₁.host.disk s₁.handle.path s₁.host.shelf).outcome =
        .error (Files.Disk.missing Loader.moduleFile) := by
      rw [show s₁.loader = _ from hl, show s₁.handle.path = _ from hp]
      exact congrArg Loader.Loading.outcome (Loader.load_unstocked _)
    exact Prod.ext (hr.trans houtcome) rfl
  let w₁ : Shared := (start s).setSession s₁
  let w₂ : Shared := { w₁ with threads := [Demand.reload.thread] }
  have hmachine : CopyStep StandIn.linker 0 (start s) .machine w₁ := ⟨hl, .machine rfl rfl⟩
  have hdemand : CopyStep StandIn.linker 0 w₁ (.shared (.demand .reload)) w₂ := ⟨hl, .shared (.demand .reload) nofun⟩
  have hreload : Thread.Step w₂.session w₂.lock Demand.reload.thread _ _ _ _ := .fail hload
  have hfail : CopyStep StandIn.linker 0 w₂ (.shared (.act 0 (.fail (Files.Disk.missing Loader.moduleFile)))) _ :=
    ⟨hl, .shared (.act rfl hreload) nofun⟩
  exact ⟨_, _, ((Runs.one hmachine).more hdemand).more hfail, rfl⟩

/-- A load that succeeds leaves one directory, for as long as its library is open, and one that fails leaves none, unless
the file could not be copied or its names not be sorted. So there are as many directories in the life of a handle as
there are open libraries, and besides only those that its reloads left when they failed like that. -/
theorem copies_eq_open (linker : Linker) (spare : Nat) {h : Host} (hb : h.shelf.Balanced left) :
    (∀ d path, NativeLoader.Leaves linker spare d path h.shelf ((copying linker spare).load d path h.shelf)) ∧
      ∀ path delay interval watch handle h' es v,
        Handle.spawn (.native (copying linker spare)) path delay interval watch h = (.ok handle, h') →
          Runs (CopyStep linker spare) (start ⟨h', .native (copying linker spare), handle⟩) es v →
            v.shelf.copies.length = v.shelf.libraries.countP Library.isOpen + left + es.countP Event.strands := by
  refine ⟨fun d path => NativeLoader.load_leaves linker spare d path hb,
    fun path delay interval watch handle h' es v hs hr => ?_⟩
  rw [(balanced_run hr (balanced_spawn hs hb)).open_eq, Nat.add_assoc]

/-- A reload after the file was removed. -/
theorem copies_eq_open_removed :
    ∃ handle h es v, Shelf.Balanced 0 Host.bare.shelf ∧
      Handle.spawn (.native (copying StandIn.linker 0)) Loader.moduleFile Delay.standard Watcher.standardInterval false
        { Host.bare with disk := Loader.stocked } = (.ok handle, h) ∧
      Runs (CopyStep StandIn.linker 0) (start ⟨h, .native (copying StandIn.linker 0), handle⟩) es v ∧
      v.shelf.copies.length = v.shelf.libraries.countP Library.isOpen + 1 := by
  obtain ⟨h, hspawn⟩ := Loader.spawn_stocked
  obtain ⟨es, v, hrun, hsum⟩ := exists_stranded
    (s := ⟨h, .native (copying StandIn.linker 0), .new Loader.moduleFile Delay.standard 0⟩) rfl rfl
  have hcount := (copies_eq_open StandIn.linker 0 (h := { Host.bare with disk := Loader.stocked })
    Shelf.balanced_empty).2 _ _ _ _ _ _ _ _ hspawn hrun
  rw [hsum] at hcount
  exact ⟨_, h, es, v, Shelf.balanced_empty, hspawn, hrun, hcount⟩

/-- A copy that cannot be made leaves its directory behind. -/
theorem copies_eq_open_fails :
    ∃ f, ((copying StandIn.linker 0).load Loader.unstocked Loader.moduleFile .empty).outcome = .error f ∧
      ((copying StandIn.linker 0).load Loader.unstocked Loader.moduleFile .empty).shelf.copies = [0] := by
  rw [Loader.load_unstocked]
  exact ⟨_, rfl, rfl⟩

end Shared.Upkeep

end Hotload
