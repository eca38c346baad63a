import Hotload.Proofs.CommandLine.Run
import Hotload.Proofs.Console.Documented
import Hotload.Proofs.Package.Discovery
import Hotload.Proofs.Session
import Hotload.Proofs.StandIn.Console

/-!
What commands print of messages and paths, on a console that does what is documented of consoles. A failure of the tool's
own ends in a line with its message, and a package that is created in a line with its path. Both are printed as they are
exactly if they are verbatim texts, and the path only if its line is not too long. Codes of pictures and control characters
are none of this: they are left out.
-/
namespace Hotload.CommandLine

open Console (Clean Documented Plain Verbatim shown)
open Text (EndsInBody HasBody)

variable {given : Option Toolchain} {words : List String} {verbose : Bool} {c : Command} {message path directory : String}
  {f : Failure} {manifest : Files.Path} {h h₁ : Host} {console : Console} {codes : List Char → Prop}
  {cells : List Char → Nat} {columns : Nat}

/-- The line that says where a package was created. -/
def createdLine (directory : String) : String :=
  "✓ Created package at " ++ directory

theorem toList_createdLine (directory : String) :
    (createdLine directory).toList = "✓ Created package at ".toList ++ directory.toList :=
  String.toList_append

theorem hasBody_created (s : List Char) : HasBody ("✓ Created package at ".toList ++ s) :=
  ⟨'✓', List.mem_append_left _ (by decide), by decide⟩

theorem clean_created {s : List Char} (hs : Clean codes s) : Clean codes ("✓ Created package at ".toList ++ s) :=
  hs.append (by decide)

theorem clean_error : Clean codes "error:".toList :=
  have hbefore : Plain "error".toList := by decide
  Console.clean_colon.append hbefore

theorem toList_errorLine (hd : console.Documented codes cells columns) (hm : Clean codes message.toList) :
    (errorLine console message).toList = "error: ".toList ++ shown message.toList := by
  have hmarked : ("[bold red]error:[/bold red] " ++ console.escape message).toList =
      '[' :: "bold red".toList ++ ']' :: "error:".toList ++ '[' :: '/' :: "bold red".toList ++
        ']' :: (" ".toList ++ console.escaped message.toList) := by
    rw [String.toList_append, Console.escaped, String.ofList_toList]
    rfl
  have hline : (errorLine console message).toList = console.rendered _ :=
    (congrArg (fun s => (console.render s).toList) String.ofList_toList).symm
  rw [hline, hmarked, hd.render_styled (by decide) (by decide) clean_error (by decide) (by decide) hm]
  rfl

theorem errorLine_eq_iff (hd : console.Documented codes cells columns) (hm : Clean codes message.toList) :
    errorLine console message = "error: " ++ message ↔ Verbatim message.toList := by
  rw [← String.toList_inj, toList_errorLine hd hm, String.toList_append, List.append_right_inj, Console.shown_eq_iff]

theorem toList_createdLines (hd : console.Documented codes cells columns) (hp : Clean codes directory.toList) :
    (createdLines console directory).map String.toList =
      console.wrapped ("✓ Created package at ".toList ++ shown directory.toList) := by
  have hmarked : ("[green]✓[/green] Created package at " ++ console.escape directory).toList =
      '[' :: "green".toList ++ ']' :: "✓".toList ++ '[' :: '/' :: "green".toList ++
        ']' :: (" Created package at ".toList ++ console.escaped directory.toList) := by
    rw [String.toList_append, Console.escaped, String.ofList_toList]
    rfl
  have hrendered : (console.render ("[green]✓[/green] Created package at " ++ console.escape directory)).toList =
      "✓ Created package at ".toList ++ shown directory.toList := by
    have hline : (console.render ("[green]✓[/green] Created package at " ++ console.escape directory)).toList =
        console.rendered _ := (congrArg (fun s => (console.render s).toList) String.ofList_toList).symm
    rw [hline, hmarked, hd.render_styled (by decide) (by decide) (Plain.clean (by decide)) (by decide) (by decide) hp]
    rfl
  rw [createdLines, Console.lines, Console.wrapped, ← hrendered, String.ofList_toList]

/-- What is shown of a text has no control characters of its own. -/
theorem uncontrolled_created {s : List Char} (hs : Clean codes s) :
    Console.Uncontrolled ("✓ Created package at ".toList ++ shown s) := by
  have hbefore : Plain "✓ Created package at ".toList := by decide
  intro c hc
  obtain hc | hc := List.mem_append.1 hc
  · exact (hbefore c hc).1
  · by_cases hslash : c = '\\'
    · rw [hslash]
      rfl
    · have hkept : c ∈ (shown s).filter (· ≠ '\\') := List.mem_filter.2 ⟨hc, decide_eq_true hslash⟩
      rw [Console.filter_shown] at hkept
      exact hs.control c (List.mem_filter.1 hkept).1

/-- A path that is printed as it is on one line is shown as it is: a backslash too many would end the line, and lines
that end so are printed whole. -/
theorem shown_of_wrapped (hd : console.Documented codes cells columns) (hp : Clean codes directory.toList)
    (hw : console.wrapped ("✓ Created package at ".toList ++ shown directory.toList) = [(createdLine directory).toList]) :
    shown directory.toList = directory.toList := by
  obtain ⟨hlength, hsame⟩ := hd.wrap_single (uncontrolled_created hp) (hasBody_created _) hw
  rw [toList_createdLine] at hlength hsame
  by_cases hlone : Console.endsInLoneBackslash directory.toList = true
  · have hend : EndsInBody ("✓ Created package at ".toList ++ shown directory.toList) := by
      intro c hc
      rw [Console.shown_of_lone hlone, ← List.append_assoc, List.getLast?_concat] at hc
      cases hc
      decide
    exact (List.append_cancel_left (hsame hend)).symm
  · rw [Console.shown_of_not_lone hlone, List.length_append, List.length_append] at hlength
    rw [Console.shown_of_not_lone hlone]
    exact Console.thin_eq_of_length (Nat.le_of_add_le_add_left hlength)

theorem createdLines_eq_iff (hd : console.Documented codes cells columns) (hp : Clean codes directory.toList) :
    createdLines console directory = [createdLine directory] ↔
      Verbatim directory.toList ∧ console.wrapped (createdLine directory).toList = [(createdLine directory).toList] := by
  have hlines : createdLines console directory = [createdLine directory] ↔
      console.wrapped ("✓ Created package at ".toList ++ shown directory.toList) = [(createdLine directory).toList] := by
    rw [← toList_createdLines hd hp, ← List.map_singleton]
    exact (List.map_injective_iff.2 fun _ _ h => String.toList_inj.1 h).eq_iff.symm
  rw [hlines, ← Console.shown_eq_iff]
  constructor
  · intro hw
    have hshown := shown_of_wrapped hd hp hw
    rw [hshown, ← toList_createdLine] at hw
    exact ⟨hshown, hw⟩
  · rintro ⟨hshown, hw⟩
    rw [hshown, ← toList_createdLine]
    exact hw

/-- A line that ends in no blank is printed as it is if it has no more cells than there are columns, and only then. -/
theorem wrapped_createdLine_iff (hd : console.Documented codes cells columns) (hp : Clean codes directory.toList)
    (hend : EndsInBody (createdLine directory).toList) :
    console.wrapped (createdLine directory).toList = [(createdLine directory).toList] ↔
      cells (createdLine directory).toList ≤ columns := by
  rw [toList_createdLine] at hend ⊢
  have hcontrol := (clean_created hp).control
  exact ⟨hd.wrap_self hcontrol (hasBody_created _), hd.wrap_fitting hcontrol (hasBody_created _) hend⟩

/-- An output with some more lines. -/
def withLines (lines : List String) (out : String) : String :=
  lines.foldl (fun out line => out ++ line ++ "\n") out

theorem forM_print_eq (lines : List String) (h : Host) :
    lines.forM Action.print h = (.ok (), { h with stdout := withLines lines h.stdout }) := by
  induction lines generalizing h with
  | nil => rfl
  | cons line lines ih =>
    have hprint : Action.print line h = (.ok (), { h with stdout := h.stdout ++ line ++ "\n" }) := rfl
    exact (Action.bind_of_ok hprint).trans (ih _)

theorem new_eq (root : Files.Path) (h : Host) :
    Package.new root h = match Package.create h.disk root with
      | (.ok manifest, d) => (.ok manifest, (Action.log (Package.createdEvent manifest) { h with disk := d }).2)
      | (.error f, d) => (.error f, { h with disk := d }) := by
  simp only [Package.new, Action.bind_eq, Action.get_eq]
  rcases Package.create h.disk root with ⟨f | manifest, d⟩ <;> rfl

theorem output_new (root : Files.Path) (h : Host) :
    (Package.new root h).2.stdout = h.stdout ∧ (Package.new root h).2.platform = h.platform := by
  rw [new_eq]
  rcases Package.create h.disk root with ⟨f | manifest, d⟩ <;> exact ⟨rfl, rfl⟩

theorem runNew_ok (hn : Package.new (.ofString path) h = (.ok manifest, h₁)) :
    (runNew path false h).1 = .ok true ∧
      (runNew path false h).2.stdout =
        withLines (createdLines h.platform.console manifest.parent.toString) h.stdout := by
  obtain ⟨hstdout, hplatform⟩ := output_new (.ofString path) h
  rw [hn] at hstdout hplatform
  have hprint := forM_print_eq (createdLines h₁.platform.console manifest.parent.toString) h₁
  have hrun : runNew path false h = (.ok true, { h₁ with
      stdout := withLines (createdLines h₁.platform.console manifest.parent.toString) h₁.stdout }) := by
    rw [runNew, Action.bind_of_ok hn]
    exact Action.bind_of_ok hprint
  rw [hrun, ← hstdout, ← hplatform]
  dsimp only
  exact ⟨rfl, rfl⟩

/-- A failure of the tool's own is logged, and then the line with its message is written. -/
theorem run_own (hw : h.platform.reader.plan words = .run verbose c) (hf : f.isOwn = true)
    (hx : work given c (commandHost c.name verbose h) = (.error f, h₁)) :
    (run given words h).1 = .ok false ∧ (run given words h).2.stderr =
      (Action.log (failedEvent f) h₁).2.stderr ++ errorLine h.platform.console f.message ++ "\n" := by
  rw [run_eq, hw, execute_command, hx]
  dsimp only
  rw [if_pos hf]
  exact ⟨rfl, rfl⟩

theorem run_new (hw : h.platform.reader.plan words = .run verbose (.new path false))
    (hn : Package.new (.ofString path) (commandHost .new verbose h) = (.ok manifest, h₁)) :
    (run given words h).1 = .ok true ∧ (run given words h).2.stdout =
      withLines (createdLines h.platform.console manifest.parent.toString) h.stdout := by
  obtain ⟨houtcome, -, hstdout, -, -⟩ := run_command hw given
  obtain ⟨hok, hlines⟩ := runNew_ok hn
  have hbefore : (commandHost .new verbose h).stdout = h.stdout ∧
      (commandHost .new verbose h).platform = h.platform := by cases verbose <;> exact ⟨rfl, rfl⟩
  rw [hbefore.1, hbefore.2] at hlines
  exact ⟨houtcome.trans (congrArg settle hok), hstdout.trans hlines⟩

/-- Settings that are refused are reported before there is any command. -/
theorem runProgram_own (hl : Settings.load h.platform.basis h.environment = .error f) (hf : f.isOwn = true) :
    runProgram words h =
      (.ok false, { h with stderr := h.stderr ++ errorLine h.platform.console f.message ++ "\n" }) := by
  have hattempt : Action.attempt loadSettings h = (.ok (.error f), h) := by
    rw [Action.attempt_eq, loadSettings_eq, hl]
  rw [runProgram, Action.bind_of_ok hattempt]
  dsimp only
  rw [if_pos hf]
  rfl

theorem toList_withLines (lines : List String) (out : String) :
    (withLines lines out).toList = out.toList ++ lines.flatMap fun line => line.toList ++ ['\n'] := by
  induction lines generalizing out with
  | nil => exact (List.append_nil _).symm
  | cons line lines ih =>
    change (withLines lines (out ++ line ++ "\n")).toList = _
    rw [ih, String.toList_append, String.toList_append, List.flatMap_cons, List.append_assoc, List.append_assoc,
      List.append_assoc]
    rfl

theorem length_le_count (lines : List String) :
    lines.length ≤ (lines.flatMap fun line => line.toList ++ ['\n']).count '\n' := by
  induction lines with
  | nil => exact Nat.le_refl 0
  | cons line lines ih =>
    rw [List.flatMap_cons, List.count_append, List.count_append, List.count_singleton_self, List.length_cons]
    omega

/-- An output that has one more line was given one line. -/
theorem withLines_eq_iff {lines : List String} {line : String} (hne : lines ≠ []) (hline : '\n' ∉ line.toList)
    (out : String) : withLines lines out = out ++ line ++ "\n" ↔ lines = [line] := by
  constructor
  · intro h
    have htext := congrArg String.toList h
    rw [toList_withLines, String.toList_append, String.toList_append, List.append_assoc] at htext
    have hlines : (lines.flatMap fun line => line.toList ++ ['\n']) = line.toList ++ ['\n'] := List.append_cancel_left htext
    have hcount := length_le_count lines
    rw [hlines, List.count_append, List.count_eq_zero_of_not_mem hline, List.count_singleton_self] at hcount
    obtain ⟨first, rest, rfl⟩ := List.exists_cons_of_ne_nil hne
    cases rest with
    | nil =>
      rw [List.flatMap_singleton] at hlines
      rw [String.toList_inj.1 (List.append_cancel_right hlines)]
    | cons second rest =>
      rw [List.length_cons, List.length_cons] at hcount
      omega
  · rintro rfl
    rfl

/-- What an output has become that a message without codes was reported on: it is as it was with a line that differs from
the message in backslashes at most, and in none exactly if the message is a verbatim text. -/
structure Reports (codes : List Char → Prop) (before after message : String) : Prop where
  verbatim : Clean codes message.toList → (after = before ++ ("error: " ++ message) ++ "\n" ↔ Verbatim message.toList)
  alike : Clean codes message.toList → ∃ line, after = before ++ line ++ "\n" ∧
    line.toList.filter (· ≠ '\\') = ("error: " ++ message).toList.filter (· ≠ '\\')

/-- What an output has become that the place of a package was announced on, if its path has no codes. -/
structure Announces (console : Console) (codes : List Char → Prop) (cells : List Char → Nat) (columns : Nat)
    (before after directory : String) : Prop where
  verbatim : Clean codes directory.toList → (after = before ++ createdLine directory ++ "\n" ↔
    Verbatim directory.toList ∧ console.wrapped (createdLine directory).toList = [(createdLine directory).toList])
  short : Clean codes directory.toList → EndsInBody (createdLine directory).toList →
    (after = before ++ createdLine directory ++ "\n" ↔
      Verbatim directory.toList ∧ cells (createdLine directory).toList ≤ columns)
  alike : Clean codes directory.toList → ∃ shown lines, after = withLines lines before ∧
    lines.map String.toList = console.wrapped (createdLine shown).toList ∧
    shown.toList.filter (· ≠ '\\') = directory.toList.filter (· ≠ '\\')

theorem reports_errorLine (hd : console.Documented codes cells columns) (before message : String) :
    Reports codes before (before ++ errorLine console message ++ "\n") message := by
  constructor
  case verbatim =>
    intro hm
    rw [← errorLine_eq_iff hd hm, String.append_left_inj, String.append_right_inj]
  case alike =>
    intro hm
    refine ⟨errorLine console message, rfl, ?_⟩
    rw [toList_errorLine hd hm, String.toList_append, List.filter_append, List.filter_append, Console.filter_shown]

theorem announces_createdLines (hd : console.Documented codes cells columns) (before directory : String) :
    Announces console codes cells columns before (withLines (createdLines console directory) before) directory := by
  have hverbatim (hp : Clean codes directory.toList) :
      withLines (createdLines console directory) before = before ++ createdLine directory ++ "\n" ↔
        Verbatim directory.toList ∧ console.wrapped (createdLine directory).toList = [(createdLine directory).toList] := by
    have hne : createdLines console directory ≠ [] := by
      intro hnil
      have hlines := toList_createdLines hd hp
      rw [hnil, List.map_nil] at hlines
      exact hd.wrap_ne_nil hlines.symm
    have hline : '\n' ∉ (createdLine directory).toList := by
      rw [toList_createdLine]
      exact fun hmem => absurd ((clean_created hp).control _ hmem) (by decide)
    rw [← createdLines_eq_iff hd hp]
    exact withLines_eq_iff hne hline before
  constructor
  case verbatim => exact hverbatim
  case short =>
    intro hp hend
    rw [hverbatim hp, wrapped_createdLine_iff hd hp hend]
  case alike =>
    intro hp
    have hshown : (String.ofList (shown directory.toList)).toList = shown directory.toList := String.toList_ofList
    refine ⟨.ofList (shown directory.toList), createdLines console directory, rfl, ?_, ?_⟩
    · rw [toList_createdLines hd hp, toList_createdLine, hshown]
    · rw [hshown, Console.filter_shown]

/-- Whatever fails and whatever is created, on the error output and on the output stands what the text makes of them: a
message as it is exactly if it is a verbatim text, and the path of a package in full on one line exactly if it is one and
the line is not too long. -/
theorem printed_iff (hd : h.platform.console.Documented codes cells columns) (given : Option Toolchain)
    (words : List String) (verbose : Bool) :
    (∀ c f h₁, h.platform.reader.plan words = .run verbose c → f.isOwn = true →
      work given c (commandHost c.name verbose h) = (.error f, h₁) →
        (run given words h).1 = .ok false ∧
          Reports codes (Action.log (failedEvent f) h₁).2.stderr (run given words h).2.stderr f.message) ∧
    (∀ f, Settings.load h.platform.basis h.environment = .error f → f.isOwn = true →
        (runProgram words h).1 = .ok false ∧ Reports codes h.stderr (runProgram words h).2.stderr f.message) ∧
    ∀ path manifest h₁, h.platform.reader.plan words = .run verbose (.new path false) →
      Package.new (.ofString path) (commandHost .new verbose h) = (.ok manifest, h₁) →
        (run given words h).1 = .ok true ∧ Announces h.platform.console codes cells columns h.stdout
          (run given words h).2.stdout manifest.parent.toString := by
  refine ⟨?_, ?_, ?_⟩
  · intro c f h₁ hw hf hx
    obtain ⟨houtcome, hstderr⟩ := run_own hw hf hx
    rw [hstderr]
    exact ⟨houtcome, reports_errorLine hd _ _⟩
  · intro f hl hf
    rw [runProgram_own hl hf]
    exact ⟨rfl, reports_errorLine hd _ _⟩
  · intro path manifest h₁ hw hn
    obtain ⟨houtcome, hstdout⟩ := run_new hw hn
    rw [hstdout]
    exact ⟨houtcome, announces_createdLines hd _ _⟩

/-- A message, a refused setting and a path without a backslash are printed as they are. -/
theorem printed_iff_plain :
    let f : Failure := .raised ⟨.own .languageServer, [.text "no [server]"], [], none⟩
    let given : Option Toolchain := some (.substitute ⟨.ok true, .ok true, .error f, .given ⟨[], none, false⟩⟩)
    let misset : Host := { Host.bare with environment := [("MUN_WATCH_POLL_INTERVAL", "[x]")] }
    let sourced : Host := { Host.bare with disk := Package.sourced }
    StandIn.console.Documented (fun _ => True) StandIn.cells StandIn.lineWidth ∧
      (run given ["language-server"] .bare).2.stderr = "error: no [server]\n" ∧
      (runProgram ["language-server"] misset).2.stderr = "error: MUN_WATCH_POLL_INTERVAL must be a number, got '[x]'\n" ∧
      (run none ["new", "src/mod.mun/../.."] sourced).2.stdout = "✓ Created package at src/mod.mun/../..\n" := by
  intro f given misset sourced
  have hd : StandIn.console.Documented (fun _ => True) StandIn.cells StandIn.lineWidth := StandIn.documented_console _
  refine ⟨hd, ?_, ?_, ?_⟩
  · obtain ⟨hfails, -, -⟩ := printed_iff (h := .bare) hd given ["language-server"] false
    obtain ⟨-, hreports⟩ := hfails .languageServer f _ rfl rfl rfl
    have hmessage : Reports (fun _ => True) "" (run given ["language-server"] .bare).2.stderr "no [server]" := hreports
    rw [(hmessage.verbatim (Plain.clean (by decide))).2 (Console.verbatim_of_notMem (by decide))]
    rfl
  · have hl : Settings.load misset.platform.basis [("MUN_WATCH_POLL_INTERVAL", "[x]")] =
        .error (.notNumber "MUN_WATCH_POLL_INTERVAL" "[x]") := rfl
    obtain ⟨-, hrefused, -⟩ := printed_iff (h := misset) hd none ["language-server"] false
    obtain ⟨-, hreports⟩ := hrefused _ hl rfl
    have hmessage : (Failure.notNumber "MUN_WATCH_POLL_INTERVAL" "[x]").message =
        "MUN_WATCH_POLL_INTERVAL must be a number, got '[x]'" := rfl
    rw [hmessage] at hreports
    rw [(hreports.verbatim (Plain.clean (by decide))).2 (Console.verbatim_of_notMem (by decide))]
    rfl
  · have hc : Package.create (commandHost .new false sourced).disk (.ofString "src/mod.mun/../..") =
        (.ok (Package.throughEntry.child Package.manifestName), Package.createdThrough) := by
      have hroot : Files.Path.ofString "src/mod.mun/../.." = Package.throughEntry := by decide
      rw [hroot]
      exact Package.create_through
    obtain ⟨h₁, hn⟩ : ∃ h₁, Package.new (.ofString "src/mod.mun/../..") (commandHost .new false sourced) =
        (.ok (Package.throughEntry.child Package.manifestName), h₁) := by
      rw [new_eq, hc]
      exact ⟨_, rfl⟩
    obtain ⟨-, -, hnew⟩ := printed_iff (h := sourced) hd none ["new", "src/mod.mun/../.."] false
    obtain ⟨-, hannounces⟩ := hnew "src/mod.mun/../.." _ h₁ rfl hn
    have hdirectory : (Package.throughEntry.child Package.manifestName).parent.toString = "src/mod.mun/../.." := rfl
    have hend : EndsInBody (createdLine "src/mod.mun/../..").toList := by
      intro c hc
      rw [toList_createdLine] at hc
      cases hc
      decide
    have hcells : StandIn.cells (createdLine "src/mod.mun/../..").toList ≤ StandIn.lineWidth := by
      rw [toList_createdLine]
      decide +kernel
    rw [hdirectory] at hannounces
    rw [(hannounces.short (Plain.clean (by decide)) hend).2 ⟨Console.verbatim_of_notMem (by decide), hcells⟩]
    rfl

/-- A backslash before a bracket that opens no tag is lost, a single one at the end of a path comes twice, and a path of
eighty letters is not printed on one line. -/
theorem printed_fails :
    let f : Failure := .raised ⟨.own .base, [.text "a\\[1]"], [], none⟩
    let given : Option Toolchain := some (.substitute ⟨.ok true, .ok true, .error f, .given ⟨[], none, false⟩⟩)
    let long := String.ofList (List.replicate 80 'n')
    StandIn.console.Documented (fun _ => True) StandIn.cells StandIn.lineWidth ∧
      f.isOwn = true ∧ f.message = "a\\[1]" ∧ (run given ["language-server"] .bare).2.stderr = "error: a[1]\n" ∧
      createdLines StandIn.console "a\\" = [createdLine "a\\\\"] ∧
      createdLines StandIn.console long ≠ [createdLine long] := by
  intro f given long
  have hd : StandIn.console.Documented (fun _ => True) StandIn.cells StandIn.lineWidth := StandIn.documented_console _
  have hx : work given .languageServer (commandHost .languageServer false .bare) = (.error f, _) := rfl
  have hstderr : (run given ["language-server"] .bare).2.stderr = _ := (run_own (h := .bare) rfl rfl hx).2
  refine ⟨hd, rfl, rfl, ?_, ?_, ?_⟩
  · have hline : errorLine StandIn.console f.message = "error: a[1]" := by
      rw [← String.toList_inj]
      exact (toList_errorLine hd (Plain.clean (by decide))).trans (by decide)
    rw [hstderr]
    exact congrArg (fun line => "" ++ line ++ "\n") hline
  · have hwhole : StandIn.console.wrapped (createdLine "a\\\\").toList = [(createdLine "a\\\\").toList] := by
      apply hd.wrap_fitting
      all_goals rw [toList_createdLine]
      · have hclean : Clean (fun _ => True) "a\\\\".toList := Plain.clean (by decide)
        exact (clean_created hclean).control
      · exact hasBody_created _
      · intro c hc
        cases hc
        decide
      · decide +kernel
    have hclean : Clean (fun _ => True) "a\\".toList := Plain.clean (by decide)
    have hlines := toList_createdLines hd hclean
    have hshown : "✓ Created package at ".toList ++ shown "a\\".toList = (createdLine "a\\\\").toList := by
      rw [toList_createdLine]
      decide
    rw [hshown, hwhole] at hlines
    obtain ⟨line, hcreated, hline⟩ := List.map_eq_singleton_iff.1 hlines
    rw [hcreated, String.toList_inj.1 hline]
  · intro hlines
    have hlong : Clean (fun _ => True) long.toList := by
      rw [String.toList_ofList]
      exact Plain.clean (by decide)
    have hwrapped := ((createdLines_eq_iff hd hlong).1 hlines).2
    have hcells := hd.wrap_self (by rw [toList_createdLine]; exact (clean_created hlong).control)
      (by rw [toList_createdLine]; exact hasBody_created _) hwrapped
    rw [toList_createdLine, String.toList_ofList] at hcells
    revert hcells
    decide +kernel

end Hotload.CommandLine
