import Hotload.CommandLine.Compilation
import Hotload.Proofs.CommandLine.Run
import Hotload.Proofs.Settings
import Hotload.Proofs.Toolchain.Vigil

/-!
Building from the command line. A build that does not watch starts the compiler once, if it is ready, and never otherwise;
it goes well just if the compiler was content.
-/
namespace Hotload

/-- What comes of a process that is run to its end. -/
def External.ended (command : List String) : Launch → Outcome Bool
  | .exited code => .ok (code = 0)
  | .failed f => .error (startFailure .cannotRun command f)

/-- The compiler is started once. -/
theorem External.compile_spec (x : External) (path : Files.Path) (o : CompileOptions) (h : Host) :
    ∃ h', x.compile path o h = (ended (x.buildCommand path o) (CommandLine.upcoming h), h') ∧
      h'.effects = h.effects ++ [.run (x.buildCommand path o) (some path.parent.toString) []] ∧
      h'.launches = h.launches.tail := by
  obtain ⟨_, _, _, _, _, _, launches, _⟩ := h
  cases launches with
  | nil => exact ⟨_, rfl, rfl, rfl⟩
  | cons l _ => cases l <;> exact ⟨_, rfl, rfl, rfl⟩

namespace Build

variable {given : Option String} {h : Host}

theorem locate_ok {path : Files.Path} (hp : Manifest.resolve h.disk given none = .ok path) :
    ∃ h₁, locate given none h = (.ok path, h₁) ∧ h₁.effects = h.effects ∧ h₁.launches = h.launches := by
  rw [locate, Action.bind_of_ok (Action.ask_of_ok hp)]
  cases given <;> exact ⟨_, rfl, rfl, rfl⟩

theorem build_ok (x : External) (o : CompileOptions) {path : Files.Path}
    (hp : Manifest.resolve h.disk given none = .ok path) :
    ∃ h', build (.external x) o given none false h =
        (External.ended (x.buildCommand path o) (CommandLine.upcoming h), h') ∧
      h'.effects = h.effects ++ [.run (x.buildCommand path o) (some path.parent.toString) []] ∧
      h'.launches = h.launches.tail := by
  obtain ⟨h₁, hlocate, heffects, hlaunches⟩ := locate_ok hp
  have hlog (e : Log.Event) (h : Host) : Action.log e h = (.ok (), (Action.log e h).2) := rfl
  rw [build, Action.bind_of_ok hlocate, Action.within_eq, Action.bind_of_ok (hlog _ _), CommandLine.upcoming, ← heffects,
    ← hlaunches]
  generalize hlogged : (Action.log _ _).2 = h₂
  obtain ⟨h₃, hcompile, heffects', hlaunches'⟩ := x.compile_spec path o h₂
  have hsame : h₂.effects = h₁.effects ∧ h₂.launches = h₁.launches := by
    rw [← hlogged]
    exact ⟨rfl, rfl⟩
  rw [if_neg Bool.false_ne_true, ← hsame.1, ← hsame.2, Toolchain.compile, hcompile]
  exact ⟨_, rfl, heffects', hlaunches'⟩

theorem build_error (x : External) (o : CompileOptions) {f : Failure}
    (hf : Manifest.resolve h.disk given none = .error f) : build (.external x) o given none false h = (.error f, h) := by
  have hlocate : locate given none h = (.error f, h) := by
    rw [locate]
    exact Action.bind_of_error (by rw [Action.ask_eq, hf])
  exact Action.bind_of_error hlocate

end Build

namespace CommandLine

variable {words : List String} {verbose : Bool} {manifest : Option String} {flags : CompileFlags} {h : Host}
  {settings : Settings}

theorem find_iff {s triple : String} : Target.find s = .ok ⟨triple⟩ ↔ triple ∈ Target.supported ∧ s = triple := by
  unfold Target.find
  grind

theorem mem_supported_of_host {m : Machine} {triple : String} (h : Target.host m = .ok ⟨triple⟩) :
    triple ∈ Target.supported := by
  unfold Target.host at h
  dsimp only at h
  split at h
  · exact (find_iff.1 h).1
  · cases h

def targetOf (m : Machine) : Option String → Outcome Target
  | some triple => Target.find triple
  | none => Target.host m

theorem targets_iff {m : Machine} {given : Option String} {triple : String} :
    targetOf m given = .ok ⟨triple⟩ ↔ Targets m given triple := by
  cases given with
  | none => simpa [targetOf, Targets] using mem_supported_of_host
  | some s => simpa [targetOf, Targets] using find_iff

theorem levels_iff {given : Option String} {level : Nat} :
    (OptimizationLevel.parse given).map OptimizationLevel.number = .ok level ↔ Levels given level := by
  cases given with
  | none => simp [OptimizationLevel.parse, Levels, Except.map, OptimizationLevel.number, eq_comm]
  | some s =>
    constructor
    · intro h
      unfold OptimizationLevel.parse at h
      dsimp only at h
      split at h
      · next l hl =>
        cases h
        have hmem := mem_of_valueAt? hl
        simp only [OptimizationLevel.flags, List.mem_cons, Prod.mk.injEq, List.not_mem_nil, or_false] at hmem
        obtain ⟨rfl, rfl⟩ | ⟨rfl, rfl⟩ | ⟨rfl, rfl⟩ | ⟨rfl, rfl⟩ := hmem <;> exact .inr ⟨by decide, rfl⟩
      · cases h
    · rintro (⟨⟨⟩, -⟩ | ⟨hle, hs⟩)
      cases hs
      match level, hle with
      | 0, _ | 1, _ | 2, _ | 3, _ => rfl

theorem text_resolve {given configured : Option String} (hc : ∀ c, given = some c → c ∈ colorChoices) :
    (DisplayColor.resolve given configured).text = colorText given configured := by
  cases given with
  | some c =>
    have hmem := hc c rfl
    simp only [colorChoices, List.mem_cons, List.not_mem_nil, or_false] at hmem
    obtain rfl | rfl | rfl := hmem <;> rfl
  | none =>
    cases configured with
    | none => rfl
    | some s =>
      simp only [DisplayColor.resolve, colorText, Option.map_some, Option.getD_some, Option.getD_none, Option.some.injEq]
      unfold DisplayColor.ofText
      split
      · rfl
      · rfl
      · rename_i he hd
        rw [if_neg he, if_neg hd]
        rfl

theorem options_eq (m : Machine) (flags : CompileFlags) (color : Option String) (outDir : Option Files.Path) :
    CompileOptions.of m flags color outDir =
      targetOf m flags.target >>= fun target => OptimizationLevel.parse flags.level >>= fun level =>
        .ok ⟨target, level, outDir, DisplayColor.resolve flags.color color⟩ := by
  unfold CompileOptions.of
  cases flags.target <;> rfl

variable {m : Machine} {color : Option String} {outDir : Option Files.Path}

theorem options_ok {o : CompileOptions} (ho : CompileOptions.of m flags color outDir = .ok o) :
    Targets m flags.target o.target.triple ∧ Levels flags.level o.level.number ∧ o.outDir = outDir ∧
      o.color = DisplayColor.resolve flags.color color := by
  rw [options_eq] at ho
  obtain ⟨target, htarget, ho⟩ := Outcome.bind_ok ho
  obtain ⟨level, hlevel, ho⟩ := Outcome.bind_ok ho
  cases ho
  refine ⟨targets_iff.1 htarget, levels_iff.1 ?_, rfl, rfl⟩
  rw [hlevel]
  rfl

theorem targetOf_error {given : Option String} {f : Failure} (hf : targetOf m given = .error f) :
    f.isOwn = true ∧ ¬∃ triple, Targets m given triple := by
  constructor
  · have hfind {s : String} (h : Target.find s = .error f) : f.isOwn = true := by
      unfold Target.find at h
      split at h
      · cases h
      · cases h
        rfl
    cases given with
    | some s => exact hfind hf
    | none =>
      unfold targetOf Target.host at hf
      dsimp only at hf
      split at hf
      · exact hfind hf
      · cases hf
        rfl
  · rintro ⟨triple, ht⟩
    cases hf.symm.trans (targets_iff.2 ht)

theorem parse_error {given : Option String} {f : Failure} (hf : OptimizationLevel.parse given = .error f) :
    f.isOwn = true ∧ ¬∃ level, Levels given level := by
  constructor
  · unfold OptimizationLevel.parse at hf
    split at hf
    · cases hf
    · split at hf
      · cases hf
      · cases hf
        rfl
  · rintro ⟨level, hl⟩
    have hok := levels_iff.2 hl
    rw [hf] at hok
    cases hok

/-- A target or a level that is refused is a failure of the tool's own. -/
theorem options_error {f : Failure} (ho : CompileOptions.of m flags color outDir = .error f) :
    f.isOwn = true ∧ ¬((∃ triple, Targets m flags.target triple) ∧ ∃ level, Levels flags.level level) := by
  rw [options_eq] at ho
  obtain htarget | ⟨target, -, ho⟩ := Outcome.bind_error ho
  · obtain ⟨hown, hnone⟩ := targetOf_error htarget
    exact ⟨hown, fun h => hnone h.1⟩
  · obtain hlevel | ⟨level, -, ho⟩ := Outcome.bind_error ho
    · obtain ⟨hown, hnone⟩ := parse_error hlevel
      exact ⟨hown, fun h => hnone h.2⟩
    · cases ho

theorem outArguments_of_outDirOf {b : Settings.Basis} {e : Environment} {outDir : Option Files.Path} :
    Settings.outDirOf b e = .ok outDir → OutArguments b e (match outDir with
      | some p => ["--out-dir", p.toString]
      | none => []) := by
  intro ho
  unfold Settings.outDirOf at ho
  unfold OutArguments
  cases hs : e.filled? "MUN_OUT_DIR" with
  | none =>
    rw [hs] at ho
    cases ho
    rfl
  | some s =>
    rw [hs] at ho
    dsimp only at ho
    cases hp : Settings.expandHome b e (Files.Path.ofString s) with
    | error f =>
      rw [hp] at ho
      cases ho
    | ok p =>
      rw [hp] at ho
      cases ho
      exact ⟨p, hp, rfl⟩

/-- The command line of the compiler is the one that was asked for. -/
theorem compiles_buildCommand (hload : Settings.load h.platform.basis h.environment = .ok settings)
    (hcolor : ∀ c, flags.color = some c → c ∈ colorChoices) {x : External} {o : CompileOptions} {path : Files.Path}
    (hx : External.words settings.compiler = .ok x.compiler)
    (ho : CompileOptions.of h.machine flags settings.color settings.outDir = .ok o)
    (hp : Manifest.resolve h.disk manifest none = .ok path) :
    Compiles h manifest flags (x.buildCommand path o) path.parent.toString := by
  have hs := Settings.load_ok hload
  obtain ⟨htarget, hlevel, hdir, hchosen⟩ := options_ok ho
  have harguments := outArguments_of_outDirOf hs.outDir
  rw [hs.compiler] at hx
  rw [External.buildCommand, hchosen, hs.color, text_resolve hcolor, hdir]
  exact .of hx hp htarget hlevel harguments

/-- Whether a build is interrupted makes no difference to what is settled. -/
theorem settle_interruptible (a : Action Bool) (h : Host) :
    settle (interruptible false a h).1 = settle (a h).1 ∧ (interruptible false a h).2.effects = (a h).2.effects ∧
      (interruptible false a h).2.launches = (a h).2.launches := by
  rw [interruptible, Action.bind_of_ok (Action.attempt_eq a h)]
  rcases a h with ⟨f | b, h₁⟩
  · dsimp only
    cases hf : f.isOrdinary with
    | true => exact ⟨rfl, rfl, rfl⟩
    | false =>
      refine ⟨?_, rfl, rfl⟩
      rw [settle, hf, Bool.not_false, Bool.or_true]
      rfl
  · exact ⟨rfl, rfl, rfl⟩

theorem toolchain_none (hload : Settings.load h.platform.basis h.environment = .ok settings) :
    toolchain none h = ((External.ofSettings settings h.platform.loader).map .external, h) := by
  simp only [toolchain, Action.bind_eq, loadSettings_eq, hload, Action.lift_eq, Action.get_eq]
  cases External.ofSettings settings h.platform.loader <;> rfl

theorem runBuild_eq (hload : Settings.load h.platform.basis h.environment = .ok settings) :
    runBuild none manifest false flags h =
      match CompileOptions.of h.machine flags settings.color settings.outDir with
      | .error f => (.error f, h)
      | .ok o => interruptible false (toolchain none >>= fun t => Build.build t o manifest none false) h := by
  simp only [runBuild, Action.bind_eq, loadSettings_eq, hload, Action.get_eq, Action.lift_eq]
  cases CompileOptions.of h.machine flags settings.color settings.outDir <;> rfl

/-- A failure of one of the three things that a build needs beside its options. -/
def Lacks (h : Host) (manifest : Option String) (f : Failure) : Prop :=
  External.words (compilerText h.environment) = .error f ∨ External.words (serverText h.environment) = .error f ∨
    Manifest.resolve h.disk manifest none = .error f

theorem Lacks.not_ready {f : Failure} (hf : Lacks h manifest f) : ¬Ready h manifest flags := by
  intro hr
  obtain ⟨ws, hcompiler⟩ := hr.compiler
  obtain ⟨ws', hserver⟩ := hr.server
  obtain ⟨path, hpath⟩ := hr.manifest
  obtain hf | hf | hf := hf
  · cases hf.symm.trans hcompiler
  · cases hf.symm.trans hserver
  · cases hf.symm.trans hpath

/-- With its options a build compiles once, or it lacks something and nothing happens. -/
theorem compilation_cases (hload : Settings.load h.platform.basis h.environment = .ok settings) (o : CompileOptions)
    (manifest : Option String) :
    let x := (toolchain none >>= fun t => Build.build t o manifest none false) h
    (∃ t path, External.ofSettings settings h.platform.loader = .ok t ∧ Manifest.resolve h.disk manifest none = .ok path ∧
      x.1 = External.ended (t.buildCommand path o) (upcoming h) ∧
      x.2.effects = h.effects ++ [.run (t.buildCommand path o) (some path.parent.toString) []] ∧
      x.2.launches = h.launches.tail) ∨
    ∃ f, Lacks h manifest f ∧ x = (.error f, h) := by
  intro x
  have hx : x = _ := Action.bind_eq _ _ _
  rw [toolchain_none hload] at hx
  have hs := Settings.load_ok hload
  cases ht : External.ofSettings settings h.platform.loader with
  | error f =>
    have hwords := External.ofSettings_error ht
    rw [hs.compiler, hs.languageServer] at hwords
    rw [ht] at hx
    exact .inr ⟨f, hwords.imp id .inl, hx⟩
  | ok t =>
    rw [ht] at hx
    cases hp : Manifest.resolve h.disk manifest none with
    | error f => exact .inr ⟨f, .inr (.inr hp), hx.trans (Build.build_error t o hp)⟩
    | ok path =>
      obtain ⟨h', hbuild, heffects, hlaunches⟩ := Build.build_ok t o hp
      rw [hx.trans hbuild]
      exact .inl ⟨t, path, rfl, rfl, rfl, heffects, hlaunches⟩

/-- A build that is ready comes to one compilation, any other comes to nothing but a failure. -/
theorem runBuild_cases (manifest : Option String) (hload : Settings.load h.platform.basis h.environment = .ok settings)
    (hcolor : ∀ c, flags.color = some c → c ∈ colorChoices) :
    let x := runBuild none manifest false flags h
    (Ready h manifest flags ∧ ∃ argv directory, Compiles h manifest flags argv directory ∧
      settle x.1 = settle (External.ended argv (upcoming h)) ∧
      x.2.effects = h.effects ++ [.run argv (some directory) []] ∧ x.2.launches = h.launches.tail) ∨
    (¬Ready h manifest flags ∧ ∃ f, (f.isOwn = true ∨ Lacks h manifest f) ∧ settle x.1 = settle (.error f) ∧
      x.2.effects = h.effects ∧ x.2.launches = h.launches) := by
  intro x
  have hx : x = _ := runBuild_eq hload
  cases ho : CompileOptions.of h.machine flags settings.color settings.outDir with
  | error f =>
    obtain ⟨hown, hnone⟩ := options_error ho
    rw [hx, ho]
    exact .inr ⟨fun hr => hnone ⟨hr.target, hr.level⟩, f, .inl hown, rfl, rfl, rfl⟩
  | ok o =>
    obtain ⟨hsettle, heffects, hlaunches⟩ :=
      settle_interruptible (toolchain none >>= fun t => Build.build t o manifest none false) h
    rw [hx, ho, hsettle, heffects, hlaunches]
    obtain ⟨t, path, ht, hp, hended, heffects, hlaunches⟩ | ⟨f, hf, hfailed⟩ := compilation_cases hload o manifest
    · have hs := Settings.load_ok hload
      obtain ⟨hcompiler, hserver, -⟩ := External.ofSettings_ok ht
      obtain ⟨htarget, hlevel, -⟩ := options_ok ho
      have hready : Ready h manifest flags :=
        ⟨⟨_, htarget⟩, ⟨_, hlevel⟩, ⟨_, hs.compiler ▸ hcompiler⟩, ⟨_, hs.languageServer ▸ hserver⟩, path, hp⟩
      exact .inl ⟨hready, _, _, compiles_buildCommand hload hcolor hcompiler ho hp, congrArg settle hended, heffects, hlaunches⟩
    · rw [hfailed]
      exact .inr ⟨hf.not_ready, f, .inr hf, rfl, rfl, rfl⟩

theorem settle_eq_error {r : Outcome Bool} {f : Failure} (h : settle r = .error f) :
    r = .error f ∧ f.isOwn = false ∧ f.isOrdinary = true := by
  cases r with
  | ok b => cases h
  | error e =>
    rw [settle] at h
    split at h
    · cases h
    · next he =>
      cases h
      rw [Bool.or_eq_true, Bool.not_eq_true', not_or, Bool.not_eq_true, Bool.not_eq_false] at he
      exact ⟨rfl, he⟩

/-- A process goes well just if it exits with zero. -/
theorem settle_ended_iff (command : List String) (l : Launch) :
    settle (External.ended command l) = .ok true ↔ l = .exited 0 := by
  cases l with
  | exited code => simp [External.ended, settle]
  | failed f =>
    constructor
    · intro h
      obtain h | ⟨h, -⟩ := settle_eq_ok h <;> cases h
    · intro h
      cases h

/-- What the system says against a process is reported. -/
theorem settle_ended_error {command : List String} (hc : command ≠ []) {l : Launch} {f : Failure}
    (h : settle (External.ended command l) = .error f) :
    f.isOwn = false ∧ f.isOrdinary = true ∧ l = .failed f ∧ f.isSystem = false := by
  obtain ⟨hended, hown, hordinary⟩ := settle_eq_error h
  cases l with
  | exited code => cases hended
  | failed e =>
    cases command with
    | nil => exact absurd rfl hc
    | cons c rest =>
      rw [External.ended, External.startFailure] at hended
      cases he : e.isSystem with
      | true =>
        rw [if_pos he] at hended
        cases hended
        cases hown
      | false =>
        rw [if_neg (by simp [he])] at hended
        cases hended
        exact ⟨hown, hordinary, rfl, he⟩

theorem Compiles.ne_nil {argv : List String} {directory : String} (hc : Compiles h manifest flags argv directory) :
    argv ≠ [] := by
  cases hc
  simp

theorem ready_commandHost (n : CommandName) : Ready (commandHost n verbose h) manifest flags ↔ Ready h manifest flags := by
  cases verbose <;> exact ⟨fun hr => ⟨hr.target, hr.level, hr.compiler, hr.server, hr.manifest⟩,
    fun hr => ⟨hr.target, hr.level, hr.compiler, hr.server, hr.manifest⟩⟩

theorem Compiles.of_commandHost {n : CommandName} {argv : List String} {directory : String}
    (hc : Compiles (commandHost n verbose h) manifest flags argv directory) : Compiles h manifest flags argv directory := by
  cases hc with
  | of hwords hp htarget hlevel hout => cases verbose <;> exact .of hwords hp htarget hlevel hout

/-- A build from the command line comes to one compilation or to nothing but a failure. -/
theorem run_build_cases (hw : h.platform.reader.plan words = .run verbose (.build manifest false flags))
    (hload : Settings.load h.platform.basis h.environment = .ok settings) :
    let r := (run none words h).1
    let h' := (run none words h).2
    (Ready h manifest flags ∧ ∃ argv directory, Compiles h manifest flags argv directory ∧
      r = settle (External.ended argv (upcoming h)) ∧ h'.effects = h.effects ++ [.run argv (some directory) []] ∧
      h'.launches = h.launches.tail) ∨
    (¬Ready h manifest flags ∧ ∃ f, (f.isOwn = true ∨ Lacks h manifest f) ∧ r = settle (.error f) ∧ h'.effects = h.effects ∧
      h'.launches = h.launches) := by
  intro r h'
  obtain ⟨hr, -, -, heffects, hlaunches⟩ := run_command hw none
  have hsame : (commandHost .build verbose h).effects = h.effects ∧ (commandHost .build verbose h).launches = h.launches ∧
      upcoming (commandHost .build verbose h) = upcoming h ∧
      ∀ f, Lacks (commandHost .build verbose h) manifest f ↔ Lacks h manifest f := by
    cases verbose <;> exact ⟨rfl, rfl, rfl, fun f => Iff.rfl⟩
  have hload' : Settings.load (commandHost .build verbose h).platform.basis
      (commandHost .build verbose h).environment = .ok settings := by
    cases verbose <;> exact hload
  obtain ⟨heffects', hlaunches', hupcoming, hlacks⟩ := hsame
  have hcases := runBuild_cases manifest hload' (h.platform.reader.offered words verbose manifest false flags hw)
  dsimp only at hcases
  rw [heffects', hlaunches', hupcoming, ready_commandHost] at hcases
  obtain ⟨hready, argv, directory, hc, hs, he, hl⟩ | ⟨hready, f, hf, hs, he, hl⟩ := hcases
  · exact .inl ⟨hready, argv, directory, hc.of_commandHost, hr.trans hs, heffects.trans he, hlaunches.trans hl⟩
  · exact .inr ⟨hready, f, hf.imp id (hlacks f).1, hr.trans hs, heffects.trans he, hlaunches.trans hl⟩

/-- A build that does not watch. If it is ready, it tries to start the compiler once, with the command line that was asked
for, and nothing else; if it is not, it starts nothing. It goes well just if the compiler was started and exited with zero.
What is not reported but passed on are words that cannot be told apart, a manifest that cannot be looked for, and what the
start of a process fails with apart from the system. -/
theorem run_build_once (hw : h.platform.reader.plan words = .run verbose (.build manifest false flags))
    (hload : Settings.load h.platform.basis h.environment = .ok settings) :
    let r := (run none words h).1
    let h' := (run none words h).2
    (Ready h manifest flags → ∃ argv directory, Compiles h manifest flags argv directory ∧
      h'.effects = h.effects ++ [.run argv (some directory) []] ∧ h'.launches = h.launches.tail) ∧
    (¬Ready h manifest flags → h'.effects = h.effects ∧ h'.launches = h.launches) ∧
    (r = .ok true ↔ Ready h manifest flags ∧ upcoming h = .exited 0) ∧
    ∀ f, r = .error f → f.isOwn = false ∧ f.isOrdinary = true ∧
      (External.words (compilerText h.environment) = .error f ∨ External.words (serverText h.environment) = .error f ∨
        Manifest.resolve h.disk manifest none = .error f ∨ upcoming h = .failed f ∧ f.isSystem = false) := by
  intro r h'
  obtain ⟨hready, argv, directory, hc, hr, he, hl⟩ | ⟨hready, e, hlacks, hr, he, hl⟩ := run_build_cases hw hload
  · refine ⟨fun _ => ⟨argv, directory, hc, he, hl⟩, fun hn => absurd hready hn, ?_, fun f hf => ?_⟩
    · rw [show r = _ from hr, settle_ended_iff]
      exact ⟨fun h => ⟨hready, h⟩, fun h => h.2⟩
    · obtain ⟨hown, hordinary, hlaunch, hsystem⟩ := settle_ended_error hc.ne_nil (hr.symm.trans hf)
      exact ⟨hown, hordinary, .inr (.inr (.inr ⟨hlaunch, hsystem⟩))⟩
  · refine ⟨fun h => absurd h hready, fun _ => ⟨he, hl⟩, ⟨fun h => ?_, fun h => absurd h.1 hready⟩, fun f hf => ?_⟩
    · obtain h | ⟨h, -⟩ := settle_eq_ok (hr.symm.trans h) <;> cases h
    · obtain ⟨hef, hown, hordinary⟩ := settle_eq_error (hr.symm.trans hf)
      cases hef
      refine ⟨hown, hordinary, ?_⟩
      obtain h | h | h | h := hlacks
      · cases h.symm.trans hown
      · exact .inl h
      · exact .inr (.inl h)
      · exact .inr (.inr (.inl h))

theorem resolve_written : Manifest.resolve Vigil.written none none = .ok Vigil.manifestPath := by
  have hcandidates : Manifest.candidates Vigil.written Vigil.written.workingPath = [Vigil.manifestPath] := by decide
  have hexists : Vigil.written.fileExists Vigil.manifestPath = .ok true := by
    rw [Files.Disk.fileExists, Files.Disk.node?, Vigil.look_written]
    rfl
  have hfind : Manifest.find Vigil.written Vigil.written.workingPath = .ok (some Vigil.manifestPath) := by
    rw [Manifest.find, hcandidates, Manifest.firstPresent, hexists]
  show Manifest.search Vigil.written Vigil.written.workingPath = _
  rw [Manifest.search, hfind]
  rfl

/-- A build with flags and an environment of which each has its say. -/
theorem run_build_once_content :
    let h : Host := { Host.bare with
      disk := Vigil.written
      environment := [("MUN_COMPILER", "munc -q"), ("MUN_OUT_DIR", "~/out"), ("MUN_TERMINAL_COLOR", "disable")] }
    let words := ["build", "-O", "3", "--target", "aarch64-apple-darwin"]
    h.platform.reader.plan words = .run false (.build none false ⟨some "3", some "aarch64-apple-darwin", none⟩) ∧
      (∃ settings, Settings.load h.platform.basis h.environment = .ok settings) ∧ (run none words h).1 = .ok true ∧
      (run none words h).2.effects = [.run ["munc", "-q", "build", "--manifest-path", "/mun.toml", "--opt-level", "3",
        "--target", "aarch64-apple-darwin", "--color", "disable", "--out-dir", "/out"] (some "/") []] := by
  intro h words
  have hw : h.platform.reader.plan words = .run false (.build none false ⟨some "3", some "aarch64-apple-darwin", none⟩) := rfl
  have hsettings : ∃ settings, Settings.load h.platform.basis [("MUN_COMPILER", "munc -q"), ("MUN_OUT_DIR", "~/out"),
      ("MUN_TERMINAL_COLOR", "disable")] = .ok settings := ⟨_, rfl⟩
  obtain ⟨settings, hload⟩ : ∃ settings, Settings.load h.platform.basis h.environment = .ok settings := hsettings
  have hcompiler : External.words (compilerText h.environment) = .ok ["munc", "-q"] := by
    rw [show compilerText h.environment = "munc -q" from rfl]
    rfl
  have hserver : External.words (serverText h.environment) = .ok ["mun-language-server"] := by
    rw [show serverText h.environment = "mun-language-server" from rfl]
    rfl
  obtain ⟨hstarts, -, hok, -⟩ := run_build_once hw hload
  have hready : Ready h none ⟨some "3", some "aarch64-apple-darwin", none⟩ :=
    ⟨⟨_, by decide, .inl rfl⟩, ⟨3, .inr ⟨by decide, rfl⟩⟩, ⟨_, hcompiler⟩, ⟨_, hserver⟩, _, resolve_written⟩
  obtain ⟨argv, directory, hc, heffects, -⟩ := hstarts hready
  refine ⟨hw, ⟨settings, hload⟩, hok.2 ⟨hready, rfl⟩, heffects.trans ?_⟩
  cases hc with
  | @of ws out path triple level hwords hp htarget hlevel hout =>
    cases hcompiler.symm.trans hwords
    cases resolve_written.symm.trans hp
    obtain ⟨-, hgiven | ⟨⟨⟩, -⟩⟩ := htarget
    obtain ⟨⟨⟩, -⟩ | ⟨hle, hlevel⟩ := hlevel
    obtain ⟨p, hexpand, rfl⟩ := hout
    cases hgiven
    cases hexpand
    rw [← Option.some.inj hlevel]
    rfl

/-- With a command for the language server that is no list of words, nothing is compiled. -/
theorem run_build_once_fails :
    let h : Host := { Host.bare with disk := Vigil.written, environment := [("MUN_LANGUAGE_SERVER", "'")] }
    h.platform.reader.plan ["build"] = .run false (.build none false ⟨none, none, none⟩) ∧
      (∃ settings, Settings.load h.platform.basis h.environment = .ok settings) ∧
      External.words (compilerText h.environment) = .ok ["munc"] ∧ (∃ triple, Targets h.machine none triple) ∧
      (∃ level, Levels none level) ∧ Manifest.resolve h.disk none none = .ok Vigil.manifestPath ∧
      (run none ["build"] h).2.effects = [] := by
  intro h
  have hw : h.platform.reader.plan ["build"] = .run false (.build none false ⟨none, none, none⟩) := rfl
  have hsettings : ∃ settings, Settings.load h.platform.basis [("MUN_LANGUAGE_SERVER", "'")] = .ok settings := ⟨_, rfl⟩
  obtain ⟨settings, hload⟩ : ∃ settings, Settings.load h.platform.basis h.environment = .ok settings := hsettings
  have htarget : Target.host ⟨"x86_64", "linux"⟩ = .ok ⟨"x86_64-unknown-linux-gnu"⟩ := rfl
  have hcompiler : External.words (compilerText h.environment) = .ok ["munc"] := by
    rw [show compilerText h.environment = "munc" from rfl]
    rfl
  refine ⟨hw, ⟨settings, hload⟩, hcompiler, ⟨_, by decide, .inr ⟨rfl, htarget⟩⟩, ⟨2, .inl ⟨rfl, rfl⟩⟩, resolve_written, ?_⟩
  obtain ⟨hready, -⟩ | ⟨-, f, -, -, heffects, -⟩ := run_build_cases hw hload
  · have hserver : External.words (serverText h.environment) = .error (.words .openQuote) := by
      rw [show serverText h.environment = "'" from rfl]
      rfl
    obtain ⟨ws, hws⟩ := hready.server
    cases hserver.symm.trans hws
  · exact heffects

end CommandLine

end Hotload
