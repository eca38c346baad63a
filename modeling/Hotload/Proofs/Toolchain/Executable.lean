import Hotload.Proofs.Settings
import Hotload.Proofs.Text.Words
import Hotload.StandIn.Platform
import Hotload.Toolchain.LanguageServer

/-!
Which executables are run. The words of a configured command are those of a command line, so the executable is the first of
them if there is one. Where there is none, the compiler's place is taken by its first argument, and a language server that
cannot be started has no name to be reported with. A command that is no command line is not reported as one of the tool's
own failures.
-/
namespace Hotload.External

open Text

variable {b : Settings.Basis} {e : Environment} {settings : Settings} {command word : String} {ws : List String}
  {loader : NativeLoader} {x : External} {f : Failure}

/-- A word is the first of a command line. -/
def StartsWith (command word : String) : Prop :=
  ∃ rest, Words.Line command.toList (word :: rest)

def compilerCommand (e : Environment) : String :=
  (e.get? "MUN_COMPILER").getD "munc"

def serverCommand (e : Environment) : String :=
  (e.get? "MUN_LANGUAGE_SERVER").getD "mun-language-server"

theorem words_ok_iff : words command = .ok ws ↔ Words.Line command.toList ws := by
  rw [← Words.split_ok_iff, words]
  cases Words.split command with
  | ok vs => exact ⟨fun h => congrArg _ (Except.ok.inj h), fun h => congrArg _ (Except.ok.inj h)⟩
  | error fault => exact ⟨nofun, nofun⟩

/-- A text that cannot be split is no command line, and that is no failure of the tool's own. -/
theorem words_error (h : words command = .error f) : f.kind = .value ∧ ∀ ws, ¬Words.Line command.toList ws := by
  constructor
  · rw [words] at h
    cases hs : Words.split command with
    | ok ws =>
      rw [hs] at h
      cases h
    | error fault =>
      rw [hs] at h
      cases h
      rfl
  · intro ws hline
    rw [words_ok_iff.2 hline] at h
    cases h

theorem startsWith_iff (h : words command = .ok ws) : StartsWith command word ↔ ws.head? = some word := by
  constructor
  · rintro ⟨rest, hline⟩
    have heq : words command = .ok (word :: rest) := words_ok_iff.2 hline
    rw [h] at heq
    cases heq
    rfl
  · intro hhead
    obtain ⟨rest, rfl⟩ := List.head?_eq_some_iff.1 hhead
    exact ⟨rest, words_ok_iff.1 h⟩

theorem ne_nil_iff_startsWith (h : words command = .ok ws) : ws ≠ [] ↔ ∃ word, StartsWith command word := by
  simp only [startsWith_iff h]
  rw [← Option.isSome_iff_exists, List.isSome_head?]

theorem words_of_startsWith (h : StartsWith command word) : ∃ rest, words command = .ok (word :: rest) := by
  obtain ⟨rest, hline⟩ := h
  exact ⟨rest, words_ok_iff.2 hline⟩

theorem commands_of_load (hl : Settings.load b e = .ok settings) :
    settings.compiler = compilerCommand e ∧ settings.languageServer = serverCommand e :=
  ⟨(Settings.load_ok hl).compiler, (Settings.load_ok hl).languageServer⟩

/-- The words of a toolchain are those of the commands of the environment. -/
theorem words_of_load (hl : Settings.load b e = .ok settings) (hx : ofSettings settings loader = .ok x) :
    words (compilerCommand e) = .ok x.compiler ∧ words (serverCommand e) = .ok x.server := by
  obtain ⟨hcompiler, hserver⟩ := commands_of_load hl
  obtain ⟨hwords, hwords', -⟩ := ofSettings_ok hx
  exact ⟨hcompiler ▸ hwords, hserver ▸ hwords'⟩

theorem ofSettings_of_load {compiler server : List String} (hl : Settings.load b e = .ok settings)
    (hcompiler : words (compilerCommand e) = .ok compiler) (hserver : words (serverCommand e) = .ok server) :
    ofSettings settings loader = .ok ⟨compiler, server, settings.pollInterval, settings.reloadDelay, loader⟩ := by
  obtain ⟨hcompiler', hserver'⟩ := commands_of_load hl
  simp only [ofSettings, of, hcompiler', hserver', hcompiler, hserver, bind, Except.bind, pure, Except.pure]

/-- Commands of the environment are refused only if one of them is no command line. -/
theorem ofSettings_refused (hl : Settings.load b e = .ok settings) (hf : ofSettings settings loader = .error f) :
    f.kind = .value ∧
      ((∀ ws, ¬Words.Line (compilerCommand e).toList ws) ∨ ∀ ws, ¬Words.Line (serverCommand e).toList ws) := by
  obtain ⟨hcompiler, hserver⟩ := commands_of_load hl
  obtain hw | hw := ofSettings_error hf
  · rw [hcompiler] at hw
    exact ⟨(words_error hw).1, .inl (words_error hw).2⟩
  · rw [hserver] at hw
    exact ⟨(words_error hw).1, .inr (words_error hw).2⟩

theorem head_buildCommand (x : External) (manifest : Files.Path) (o : CompileOptions) :
    (x.buildCommand manifest o).head? = some (x.compiler.head?.getD "build") := by
  rw [buildCommand]
  cases x.compiler <;> rfl

theorem serve_of_failed {h : Host} (hf : h.server.failure = some f) :
    (x.serve h).1 = .error (startFailure .cannotServe x.server f) := by
  have hnote : Action.note (.spawn x.server) h = (.ok (), (Action.note (.spawn x.server) h).2) := rfl
  rw [serve, Action.bind_eq, Action.get_eq]
  dsimp only
  rw [Action.bind_of_ok hnote, hf]
  rfl

/-- A server that the system fails to start is reported by its first word, if it has one. -/
theorem startFailure_server (hsystem : f.isSystem = true) (hserver : words command = .ok x.server) :
    (∀ word, StartsWith command word → startFailure .cannotServe x.server f = .cannotServe word f) ∧
      ((¬∃ word, StartsWith command word) → startFailure .cannotServe x.server f = .emptyCommand) := by
  rw [← ne_nil_iff_startsWith hserver]
  constructor
  · intro word hword
    obtain ⟨rest, hrest⟩ := List.head?_eq_some_iff.1 ((startsWith_iff hserver).1 hword)
    rw [hrest]
    exact if_pos hsystem
  · intro hnil
    rw [Classical.not_not.1 hnil]
    exact if_pos hsystem

/-- Let settings be loaded. What they lead to is a refusal of the tool's own kinds or a toolchain with words for both of its
commands just if both commands are command lines that have a word. No refusal is one of the tool's own failures. The
compiler's command line starts with the first word of the compiler's command; if there is none, it starts with the name of
its work. A server that the system fails to start is reported by the first word of its command; if there is none, the report
fails. -/
theorem executable_first_word (loader : NativeLoader) (hl : Settings.load b e = .ok settings) :
    (((∃ f, ofSettings settings loader = .error f ∧ f.isOwn = true) ∨
        ∃ x, ofSettings settings loader = .ok x ∧ x.compiler ≠ [] ∧ x.server ≠ []) ↔
      (∃ word, StartsWith (compilerCommand e) word) ∧ ∃ word, StartsWith (serverCommand e) word) ∧
    (∀ f, ofSettings settings loader = .error f → f.kind = .value ∧
      ((∀ ws, ¬Words.Line (compilerCommand e).toList ws) ∨ ∀ ws, ¬Words.Line (serverCommand e).toList ws)) ∧
    ∀ x, ofSettings settings loader = .ok x →
      (∀ manifest o, (∀ word, StartsWith (compilerCommand e) word → (x.buildCommand manifest o).head? = some word) ∧
        ((¬∃ word, StartsWith (compilerCommand e) word) → (x.buildCommand manifest o).head? = some "build")) ∧
      ∀ h f, h.server.failure = some f → f.isSystem = true →
        (∀ word, StartsWith (serverCommand e) word → (x.serve h).1 = .error (.cannotServe word f)) ∧
          ((¬∃ word, StartsWith (serverCommand e) word) → (x.serve h).1 = .error .emptyCommand) := by
  refine ⟨⟨?_, ?_⟩, fun f hf => ofSettings_refused hl hf, ?_⟩
  · rintro (⟨f, hf, hown⟩ | ⟨x, hx, hne, hne'⟩)
    · rw [Failure.isOwn, (ofSettings_refused hl hf).1] at hown
      cases hown
    · obtain ⟨hwords, hwords'⟩ := words_of_load hl hx
      exact ⟨(ne_nil_iff_startsWith hwords).1 hne, (ne_nil_iff_startsWith hwords').1 hne'⟩
  · rintro ⟨⟨word, hword⟩, word', hword'⟩
    obtain ⟨rest, hwords⟩ := words_of_startsWith hword
    obtain ⟨rest', hwords'⟩ := words_of_startsWith hword'
    exact .inr ⟨_, ofSettings_of_load hl hwords hwords', List.cons_ne_nil _ _, List.cons_ne_nil _ _⟩
  · intro x hx
    obtain ⟨hwords, hwords'⟩ := words_of_load hl hx
    refine ⟨fun manifest o => ⟨fun word hword => ?_, fun hnone => ?_⟩, fun h f hf hsystem => ?_⟩
    · rw [head_buildCommand, (startsWith_iff hwords).1 hword]
      rfl
    · rw [← ne_nil_iff_startsWith hwords, Classical.not_not] at hnone
      rw [head_buildCommand, hnone]
      rfl
    · obtain ⟨hnamed, hnameless⟩ := startFailure_server hsystem hwords'
      rw [serve_of_failed hf]
      exact ⟨fun word hword => congrArg _ (hnamed word hword), fun hnone => congrArg _ (hnameless hnone)⟩

/-- An executable whose name has a blank in it. -/
theorem executable_first_word_quoted :
    let p := StandIn.platform "/" fun _ => .ok true
    ∃ settings x, Settings.load p.basis [("MUN_COMPILER", "'my munc' -q")] = .ok settings ∧
      ofSettings settings p.loader = .ok x ∧ ∀ manifest o, (x.buildCommand manifest o).head? = some "my munc" := by
  intro p
  obtain ⟨settings, x, hl, hx, hwords⟩ : ∃ settings x,
      Settings.load p.basis [("MUN_COMPILER", "'my munc' -q")] = .ok settings ∧ ofSettings settings p.loader = .ok x ∧
        words "'my munc' -q" = .ok ["my munc", "-q"] := ⟨_, _, rfl, rfl, rfl⟩
  have hword : StartsWith "'my munc' -q" "my munc" := ⟨["-q"], words_ok_iff.1 hwords⟩
  exact ⟨settings, x, hl, hx, fun manifest o => (((executable_first_word p.loader hl).2.2 x hx).1 manifest o).1 _ hword⟩

/-- An empty command is no word of a command line, so what follows it is run in its place. A quotation mark alone is refused,
but not as one of the tool's own failures. -/
theorem executable_first_word_fails :
    let p := StandIn.platform "/" fun _ => .ok true
    (∃ settings x, Settings.load p.basis [("MUN_COMPILER", "")] = .ok settings ∧ ofSettings settings p.loader = .ok x ∧
      ∀ manifest o, (x.buildCommand manifest o).head? = some "build") ∧
    (∃ settings x, Settings.load p.basis [("MUN_LANGUAGE_SERVER", "")] = .ok settings ∧
      ofSettings settings p.loader = .ok x ∧ x.server = []) ∧
    ∃ settings f, Settings.load p.basis [("MUN_COMPILER", "'")] = .ok settings ∧
      ofSettings settings p.loader = .error f ∧ f.isOwn = false :=
  ⟨⟨_, _, rfl, rfl, fun _ _ => rfl⟩, ⟨_, _, rfl, rfl, rfl⟩, _, _, rfl, rfl, rfl⟩

end Hotload.External
