import ZoneConsole.Command.Invoke
import ZoneConsole.Proofs.Command.Run
import ZoneConsole.Proofs.Except

/-!
# What commands on the settings leave in the file

A command that changes the settings reads all of them, makes its change, and writes all of
them again.  What is read is what the file and the environment make, or the usual settings
if they make none; so a file that cannot be read is replaced by the usual settings with one
change, and all that was in it is lost.  Only the choice of a default profile leaves such a
file alone: the usual settings have no profile to choose.

* **`file_assign`**, **`file_choose`** — the file after each of the two commands.
* **`unreadable_kept_iff`** — when a file that cannot be read is still there afterwards.
-/

namespace ZoneConsole

/-- The file after an ending.  A command line that is refused leaves it as it was. -/
def Ending.fileAfter (before : SettingsFile) : Ending → SettingsFile
  | refused _ => before
  | ran _ t => t.file

namespace Settings

/-- The text of settings on a machine, if they have one. -/
def text? (m : Machine) (s : Settings) : Option String :=
  match Toml.write (codec.encode { s with profiles := m.arrange s.profiles }) with
  | .ok text => some text
  | .error _ => none

/-- The text of the settings with a value under a key of the profile in use, if the value is
    accepted. -/
def assigned? (m : Machine) (s : Settings) (o : GlobalOptions) (key value : String) :
    Option String :=
  match s.assign (s.activeName o) key value with
  | .ok new => new.text? m
  | .error _ => none

/-- The text of the settings with another default profile, if there is such a profile. -/
def chosen? (m : Machine) (s : Settings) (name : String) : Option String :=
  match s.profile? name with
  | some _ => { s with defaultProfile := some name }.text? m
  | none => none

/-- Over a file, settings are written if they have a text. -/
theorem save_present (m : Machine) (s : Settings) (text : String) :
    (∃ new, s.text? m = some new ∧
      s.save (.present text) (m.arrange s.profiles) = .ok (.present new)) ∨
      s.text? m = none ∧ ∃ e, s.save (.present text) (m.arrange s.profiles) = .error e := by
  unfold text? save
  cases Toml.write (codec.encode { s with profiles := m.arrange s.profiles }) with
  | ok new => exact .inl ⟨new, rfl, rfl⟩
  | error fault => exact .inr ⟨rfl, _, rfl⟩

end Settings

namespace Run

variable {t : Transcript} {text : String} (m : Machine)

/-- Written settings are in the file, unless they have no text. -/
theorem file_save (s : Settings) (hfile : t.file = .present text) :
    ((save m s).run.run t).2.file = .present ((s.text? m).getD text) := by
  rw [run_save, hfile]
  rcases s.save_present m text with ⟨new, htext, hsave⟩ | ⟨htext, e, hsave⟩
  · rw [hsave, htext]
    rfl
  · rw [hsave, htext]
    exact hfile

/-- A notice after writing settings leaves the file as it is written. -/
theorem file_save_notify (s : Settings) (o : GlobalOptions) (line : String)
    (hfile : t.file = .present text) :
    ((do save m s; notify o line : Run Unit).run.run t).2.file =
      .present ((s.text? m).getD text) := by
  rw [← file_save m s hfile]
  rcases hsave : (save m s).run.run t with ⟨result, next⟩
  cases result with
  | ok _ => rw [run_bind_ok hsave, run_notify, noticed_file]
  | error _ => rw [run_bind_error hsave]

/-- **The file after a value has been set**: the settings with the value, if they have a text
    and the value is accepted. -/
theorem file_assign (o : GlobalOptions) (env : Environment) (directory key value : String)
    (hfile : t.file = .present text) :
    ((settingsCommand m o env directory (.assign key value)).run.run t).2.file =
      .present (((Settings.loadOrUsual (some text) env).assigned? m o key value).getD text) := by
  rw [settingsCommand, run_bind_ok (run_settings env t), hfile, SettingsFile.text?]
  generalize Settings.loadOrUsual (some text) env = s
  unfold Settings.assigned?
  show ((do save m (← orFail id (s.assign (s.activeName o) key value)); notify o _ :
    Run Unit).run.run t).2.file = _
  cases s.assign (s.activeName o) key value with
  | ok new =>
      rw [run_bind_ok (run_orFail_ok id new t)]
      exact file_save_notify m new o _ hfile
  | error f =>
      rw [run_bind_error (run_orFail_error id f t)]
      exact hfile

/-- **The file after a default profile has been chosen**: the settings with the choice, if
    they have a text and there is such a profile. -/
theorem file_choose (o : GlobalOptions) (env : Environment) (directory name : String)
    (hfile : t.file = .present text) :
    ((settingsCommand m o env directory (.use name)).run.run t).2.file =
      .present (((Settings.loadOrUsual (some text) env).chosen? m name).getD text) := by
  rw [settingsCommand, run_bind_ok (run_settings env t), hfile, SettingsFile.text?]
  generalize Settings.loadOrUsual (some text) env = s
  unfold Settings.chosen?
  cases s.profile? name with
  | some _ => exact file_save_notify m _ o _ hfile
  | none =>
      show ((throw (Failure.unknownProfile name s.knownProfiles) : Run Unit).run.run t).2.file = _
      rw [run_throw]
      exact hfile

end Run

/-! ### Files that cannot be read -/

/-- The usual settings stand for a file that cannot be read, and they have no profiles. -/
theorem Settings.loadOrUsual_error {text : String} {env : Environment} {e : SettingsError}
    (h : load (some text) env = .error e) : loadOrUsual (some text) env = usual := by
  rw [loadOrUsual, h]

theorem Settings.usual_chosen? (m : Machine) (name : String) : usual.chosen? m name = none := rfl

/-- An invocation leaves the file that its command leaves. -/
theorem fileAfter_invoke {around : Surroundings} {words : List String} {i : Invocation}
    (hread : Invocation.read around.env words = .ok i) (m : Machine) (before : SettingsFile) :
    (invoke around words m).fileAfter before =
      ((Run.command m around (i.options.on m around.env) i.command).run.run
        ⟨"", "", around.file, .ofNetwork around.network⟩).2.file := by
  rw [invoke, hread]
  show (i.run around m).fileAfter before = _
  rw [Invocation.run]
  rcases (Run.command m around (i.options.on m around.env) i.command).run.run
    ⟨"", "", around.file, .ofNetwork around.network⟩ with ⟨result, t⟩
  cases result <;> rfl

/-- **When a file that cannot be read is kept.**  To choose a default profile keeps it.  To set
    a value puts the usual settings with that value in its place, whatever was in it, unless
    the value is refused or the settings have no text. -/
theorem unreadable_kept_iff {around : Surroundings} {text : String} {e : SettingsError}
    (hfile : around.file = .present text)
    (hload : Settings.load (some text) around.env = .error e) {words : List String}
    {i : Invocation} (hread : Invocation.read around.env words = .ok i) (m : Machine) :
    (∀ name, i.command = .settings (.use name) →
      (invoke around words m).fileAfter around.file = .present text) ∧
    ∀ key value, i.command = .settings (.assign key value) →
      (invoke around words m).fileAfter around.file =
          .present ((Settings.usual.assigned? m i.options key value).getD text) ∧
        ((invoke around words m).fileAfter around.file = .present text ↔
          ∀ new, Settings.usual.assigned? m i.options key value = some new → new = text) := by
  have husual := Settings.loadOrUsual_error hload
  rw [fileAfter_invoke hread]
  constructor
  · intro name hcommand
    rw [hcommand]
    show ((Run.settingsCommand m _ around.env around.directory (.use name)).run.run
      ⟨"", "", around.file, .ofNetwork around.network⟩).2.file = _
    rw [Run.file_choose m _ around.env around.directory name hfile, husual,
      Settings.usual_chosen?]
    rfl
  · intro key value hcommand
    have hafter : ((Run.command m around (i.options.on m around.env) i.command).run.run
        ⟨"", "", around.file, .ofNetwork around.network⟩).2.file =
          .present ((Settings.usual.assigned? m i.options key value).getD text) := by
      rw [hcommand, ← husual]
      exact Run.file_assign m _ around.env around.directory key value hfile
    refine ⟨hafter, ?_⟩
    -- kept means that nothing was written, or just what was there
    rw [hafter]
    cases Settings.usual.assigned? m i.options key value with
    | none =>
        constructor
        · rintro - new ⟨⟩
        · intro _
          rfl
    | some new =>
        constructor
        · intro hsame other hother
          obtain rfl := Option.some.inj hother
          exact SettingsFile.present.inj hsame
        · intro hsame
          exact congrArg SettingsFile.present (hsame new rfl)

/-- A file in which a quote is missing. -/
def unclosed : Surroundings where
  env := []
  directory := "/home/op/.config/qubes-air"
  file := .present "[profiles.lab]\nserver = \"http://lab.lan:8080\n"
  network := .down

theorem load_unclosed : Settings.load unclosed.file.text? unclosed.env = .error .noDocument := by
  have hread : Toml.read "[profiles.lab]\nserver = \"http://lab.lan:8080\n" = none :=
    Option.isNone_iff_eq_none.1 (by decide +kernel)
  show Settings.load (some "[profiles.lab]\nserver = \"http://lab.lan:8080\n") [] = _
  rw [Settings.load, Settings.fileLayer, hread]

/-- The choice of a default profile keeps such a file. -/
theorem unclosed_kept : ∃ i text,
    unclosed.file = .present text ∧
    Settings.load (some text) unclosed.env = .error .noDocument ∧
    Invocation.read unclosed.env ["config", "use", "lab"] = .ok i ∧
    i.command = .settings (.use "lab") ∧
    (invoke unclosed ["config", "use", "lab"]).fileAfter unclosed.file = .present text := by
  have hwords : ((Invocation.read unclosed.env ["config", "use", "lab"]).toOption.map
      (·.command)) = some (.settings (.use "lab")) := by decide +kernel
  obtain ⟨i, hi, hcommand⟩ := Option.map_eq_some_iff.1 hwords
  have hread := eq_ok_of_toOption hi
  exact ⟨i, _, rfl, load_unclosed, hread, hcommand,
    (unreadable_kept_iff rfl load_unclosed hread .usual).1 "lab" hcommand⟩

/-- A value that is set replaces such a file, and with it the profile that was in it. -/
theorem unclosed_replaced : ∃ i text,
    unclosed.file = .present text ∧
    Settings.load (some text) unclosed.env = .error .noDocument ∧
    Invocation.read unclosed.env ["config", "set", "timeout", "5"] = .ok i ∧
    i.command = .settings (.assign "timeout" "5") ∧
    (invoke unclosed ["config", "set", "timeout", "5"]).fileAfter unclosed.file ≠
      .present text := by
  have hwords : ((Invocation.read unclosed.env ["config", "set", "timeout", "5"]).toOption.map
      (·.command)) = some (.settings (.assign "timeout" "5")) := by decide +kernel
  obtain ⟨i, hi, hcommand⟩ := Option.map_eq_some_iff.1 hwords
  exact ⟨i, _, rfl, load_unclosed, eq_ok_of_toOption hi, hcommand, by decide +kernel⟩

end ZoneConsole
