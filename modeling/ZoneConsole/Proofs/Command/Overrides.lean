import ZoneConsole.Command.Invoke
import ZoneConsole.Proofs.Command.Run
import ZoneConsole.Proofs.Settings.Edit

/-!
# What the environment leaves in the file of settings

A command that edits settings reads the file and the environment together, and writes all that it
has read.  So a variable that was to hold for one invocation is in the file afterwards, unless it
changes nothing or just what the command edits.

* **`Settings.load_save`** — settings that were saved are loaded again where no variable counts.
* **`Run.save_of_edit`** — a command that ends well has saved its edit of what was loaded.
* **`overrides_kept_out_iff`** — when the environment leaves nothing in the file.
-/

namespace ZoneConsole

/-- The edit that an invocation makes of settings, if it makes one. -/
def Invocation.edit? (i : Invocation) (s : Settings) : Option Settings.Edit :=
  match i.command with
  | .settings (.assign key value) => some (.assign (s.activeName i.options) key value)
  | .settings (.use name) => some (.choose name)
  | _ => none

/-- Settings that were saved are loaded again: what has a text is storable. -/
theorem Settings.load_save {s : Settings} {before file : SettingsFile} {env : Environment}
    {profiles : List (String × Profile)} (hs : s.Whole) (hperm : profiles.Perm s.profiles)
    (hsilent : env.Silent) (h : s.save before profiles = .ok file) :
    load file.text? env = .ok s := by
  obtain ⟨text, hwrite, rfl⟩ : ∃ text,
      Toml.write (codec.encode { s with profiles }) = .ok text ∧ file = .present text := by
    cases hwrite : Toml.write (codec.encode { s with profiles }) with
    | error fault => cases before <;> simp [save, hwrite] at h
    | ok text =>
        refine ⟨text, rfl, ?_⟩
        cases before <;> simp_all [save]
  -- What does not fit would not have been written.
  have hstorable : s.Storable := by
    by_contra hlarge
    cases hwrite.symm.trans (write_of_not_storable hs.sorted hperm hlarge)
  obtain ⟨text', hwrite', hload⟩ := load_write hs.sorted hperm hs.hasDefault hsilent hstorable
  obtain rfl := Except.ok.inj (hwrite.symm.trans hwrite')
  exact hload

namespace Run

variable {t t' : Transcript} {m : Machine}

/-- If writing settings and a notice after it ended well, the settings were saved. -/
theorem save_of_ok {s : Settings} {o : GlobalOptions} {line : String}
    (h : (do save m s; notify o line : Run Unit).run.run t = (.ok (), t')) :
    s.save t.file (m.arrange s.profiles) = .ok t'.file := by
  have hsave := run_save m s t
  cases hfile : s.save t.file (m.arrange s.profiles) with
  | error e =>
      rw [hfile] at hsave
      cases (run_bind_error hsave fun _ => notify o line).symm.trans h
  | ok file =>
      rw [hfile] at hsave
      rw [run_bind_ok hsave, run_notify] at h
      rw [← (Prod.mk.inj h).2, noticed_file]

variable {o : GlobalOptions} {env : Environment}

theorem save_of_assign (directory : String) {key value : String}
    (h : (settingsCommand m o env directory (.assign key value)).run.run t = (.ok (), t')) :
    ∃ edited, (Settings.loadOrUsual t.file.text? env).assign
        ((Settings.loadOrUsual t.file.text? env).activeName o) key value = .ok edited ∧
      edited.save t.file (m.arrange edited.profiles) = .ok t'.file := by
  rw [settingsCommand, run_bind_ok (run_settings env t)] at h
  generalize Settings.loadOrUsual t.file.text? env = s at h ⊢
  cases hassign : s.assign (s.activeName o) key value with
  | error f =>
      simp only [hassign] at h
      cases (run_bind_error (run_orFail_error id f t) _).symm.trans h
  | ok edited =>
      simp only [hassign] at h
      rw [run_bind_ok (run_orFail_ok id edited t)] at h
      exact ⟨edited, rfl, save_of_ok h⟩

theorem save_of_use (directory : String) {name : String}
    (h : (settingsCommand m o env directory (.use name)).run.run t = (.ok (), t')) :
    { Settings.loadOrUsual t.file.text? env with defaultProfile := some name }.save t.file
      (m.arrange (Settings.loadOrUsual t.file.text? env).profiles) = .ok t'.file := by
  rw [settingsCommand, run_bind_ok (run_settings env t)] at h
  generalize Settings.loadOrUsual t.file.text? env = s at h ⊢
  cases hprofile : s.profile? name with
  | none =>
      simp only [hprofile] at h
      cases (run_throw (.unknownProfile name s.knownProfiles) t).symm.trans h
  | some profile =>
      simp only [hprofile] at h
      exact save_of_ok h

/-- **A command that edits settings** and ends well has saved its edit of what it loaded. -/
theorem save_of_edit {around : Surroundings} {i : Invocation} {edit : Settings.Edit}
    (hedit : i.edit? (Settings.loadOrUsual t.file.text? around.env) = some edit)
    (h : (command m around (i.options.on m around.env) i.command).run.run t = (.ok (), t')) :
    ∃ edited, edit.apply (Settings.loadOrUsual t.file.text? around.env) = .ok edited ∧
      edited.save t.file (m.arrange edited.profiles) = .ok t'.file := by
  obtain ⟨c, o⟩ := i
  cases c with
  | completions | zones | qubes | health | status => cases hedit
  | settings c =>
      cases c with
      | init | view | path | profiles => cases hedit
      | assign key value =>
          obtain rfl := Option.some.inj hedit
          exact save_of_assign around.directory h
      | use name =>
          obtain rfl := Option.some.inj hedit
          exact ⟨_, rfl, save_of_use around.directory h⟩

end Run

/-! ### Two ways to load one file -/

/-- An invocation that ends well has run its command to the end. -/
theorem run_of_invoke {around : Surroundings} {words : List String} {i : Invocation}
    {m : Machine} {t : Transcript} (hread : Invocation.read around.env words = .ok i)
    (hran : invoke around words m = .ran none t) :
    (Run.command m around (i.options.on m around.env) i.command).run.run
      ⟨"", "", around.file, .ofNetwork around.network⟩ = (.ok (), t) := by
  rw [invoke, hread] at hran
  simp only [Invocation.run] at hran
  split at hran
  · rename_i hrun
    cases hran
    exact hrun
  · cases hran

/-- After a command that edits settings, the file loads to the edit of what the file and the
    environment made before. -/
theorem load_after_edit {around : Surroundings} {silent : Environment} {overridden : Settings}
    {words : List String} {i : Invocation} {edit : Settings.Edit} {m : Machine} {t : Transcript}
    (hsilent : silent.Silent)
    (hoverridden : Settings.load around.file.text? around.env = .ok overridden)
    (hread : Invocation.read around.env words = .ok i)
    (hedit : i.edit? overridden = some edit) (hran : invoke around words m = .ran none t) :
    ∃ edited, edit.apply overridden = .ok edited ∧
      Settings.load t.file.text? silent = .ok edited := by
  have hload : Settings.loadOrUsual around.file.text? around.env = overridden := by
    rw [Settings.loadOrUsual, hoverridden]
  obtain ⟨edited, happly, hsave⟩ :=
    Run.save_of_edit (hload.symm ▸ hedit) (run_of_invoke hread hran)
  rw [hload] at happly
  -- Settings that were loaded are sorted and have a default profile, and the edit keeps both, so
  -- they come back from the file.
  have hwhole := Settings.Edit.apply_whole (Settings.load_whole hoverridden) happly
  exact ⟨edited, happly, Settings.load_save hwhole (m.arrange_perm _) hsilent hsave⟩

/-- **What the environment leaves in the file.**  The same file, loaded without variables and
    with them, makes two settings.  After a command that edits a profile or the default profile,
    the file loads without variables to the edit of the settings with them.  It is the edit of
    the settings without them, and nothing of the environment is left, just if the two agree on
    all that the command does not name. -/
theorem overrides_kept_out_iff {around : Surroundings} {silent : Environment}
    {plain overridden : Settings} {words : List String} {i : Invocation} {edit : Settings.Edit}
    {m : Machine} {t : Transcript} (hsilent : silent.Silent)
    (hplain : Settings.load around.file.text? silent = .ok plain)
    (hoverridden : Settings.load around.file.text? around.env = .ok overridden)
    (hread : Invocation.read around.env words = .ok i)
    (hedit : i.edit? overridden = some edit)
    (hran : invoke around words m = .ran none t) :
    ∃ edited expected, edit.apply overridden = .ok edited ∧ edit.apply plain = .ok expected ∧
      Settings.load t.file.text? silent = .ok edited ∧
      (Settings.load t.file.text? silent = .ok expected ↔ edit.AgreeBut overridden plain) := by
  obtain ⟨edited, happly, hafter⟩ := load_after_edit hsilent hoverridden hread hedit hran
  obtain ⟨expected, hexpected, hsame⟩ := Settings.Edit.apply_ok
    (Settings.load_whole hoverridden) (Settings.load_whole hplain) happly
  refine ⟨edited, expected, happly, hexpected, hafter, ?_⟩
  rw [hafter, ← hsame]
  exact ⟨Except.ok.inj, congrArg Except.ok⟩

/-! ### One file under two environments -/

/-- A file with one profile, under an environment. -/
def oneProfile (env : Environment) : Surroundings where
  env := env
  directory := "/home/op/.config/qubes-air"
  file := .present "[profiles.lab]\nserver = \"http://lab.lan:8080\"\n"
  network := .down

/-- Settings with the profile of such a file. -/
def oneProfileSettings (default : String) (apiBase : Option String) (timeout : Option UInt64) :
    Settings where
  defaultProfile := some default
  apiBase := apiBase
  defaults := .usual
  profiles := [("lab", ⟨"http://lab.lan:8080", none, none, timeout, none⟩)]

theorem load_oneProfile (env : Environment) : Settings.load (oneProfile env).file.text? []
    = .ok (oneProfileSettings "default" none none) := by
  have hload : (Settings.load (oneProfile []).file.text? []).toOption
      = some (oneProfileSettings "default" none none) := by decide +kernel
  exact eq_ok_of_toOption hload

/-- A variable for the time of one profile. -/
def timeoutOverride : Environment := [("QUBES_AIR_PROFILES__LAB__TIMEOUT", "9")]

/-- A variable for the very time that the command sets is not in the file. -/
theorem timeout_kept_out : ∃ i t,
    Settings.load (oneProfile timeoutOverride).file.text? []
      = .ok (oneProfileSettings "default" none none) ∧
    Settings.load (oneProfile timeoutOverride).file.text? timeoutOverride
      = .ok (oneProfileSettings "default" none (some 9)) ∧
    Invocation.read timeoutOverride ["-p", "lab", "config", "set", "timeout", "5"] = .ok i ∧
    i.edit? (oneProfileSettings "default" none (some 9)) = some (.assign "lab" "timeout" "5") ∧
    invoke (oneProfile timeoutOverride) ["-p", "lab", "config", "set", "timeout", "5"]
      = .ran none t ∧
    Settings.load t.file.text? [] = .ok (oneProfileSettings "default" none (some 5)) := by
  have hoverridden : Settings.load (oneProfile timeoutOverride).file.text? timeoutOverride
      = .ok (oneProfileSettings "default" none (some 9)) :=
    eq_ok_of_toOption (by decide +kernel)
  have hwords : (Invocation.read timeoutOverride ["-p", "lab", "config", "set", "timeout", "5"]
      ).toOption.map (·.edit? (oneProfileSettings "default" none (some 9)))
        = some (some (.assign "lab" "timeout" "5")) := by
    decide +kernel
  obtain ⟨i, hi, hedit⟩ := Option.map_eq_some_iff.1 hwords
  have hread := eq_ok_of_toOption hi
  obtain ⟨t, hran⟩ : ∃ t, invoke (oneProfile timeoutOverride)
      ["-p", "lab", "config", "set", "timeout", "5"] = .ran none t :=
    Ending.exists_of_done (by decide +kernel)
  have hsilent : Environment.Silent [] := nofun
  obtain ⟨-, expected, -, happly, -, hiff⟩ :=
    overrides_kept_out_iff hsilent (load_oneProfile _) hoverridden hread hedit hran
  obtain rfl := Except.ok.inj happly
  refine ⟨i, t, load_oneProfile _, hoverridden, hread, hedit, hran, hiff.2 ?_⟩
  refine ⟨rfl, rfl, rfl, ?_, fun other hother => ?_⟩
  · exact ⟨fun _ => rfl, fun _ _ => rfl, fun _ => rfl, fun h => absurd rfl h, fun _ _ => rfl⟩
  · simp [oneProfileSettings, Settings.profile?, lookup?, hother.symm]

/-- A variable for the base of the service. -/
def apiBaseOverride : Environment := [("QUBES_AIR_API_BASE_URL", "/x")]

/-- **A base of the service that was to hold for one invocation stays in the file**, where it
    overrides the base of every profile from then on. -/
theorem apiBase_left_behind : ∃ t,
    Settings.load (oneProfile apiBaseOverride).file.text? []
      = .ok (oneProfileSettings "default" none none) ∧
    Settings.load (oneProfile apiBaseOverride).file.text? apiBaseOverride
      = .ok (oneProfileSettings "default" (some "/x") none) ∧
    invoke (oneProfile apiBaseOverride) ["config", "use", "lab"] = .ran none t ∧
    Settings.load t.file.text? [] = .ok (oneProfileSettings "lab" (some "/x") none) ∧
    Settings.load t.file.text? [] ≠ .ok (oneProfileSettings "lab" none none) := by
  have hoverridden : Settings.load (oneProfile apiBaseOverride).file.text? apiBaseOverride
      = .ok (oneProfileSettings "default" (some "/x") none) :=
    eq_ok_of_toOption (by decide +kernel)
  have hwords : (Invocation.read apiBaseOverride ["config", "use", "lab"]).toOption.map
      (·.edit? (oneProfileSettings "default" (some "/x") none)) = some (some (.choose "lab")) := by
    decide +kernel
  obtain ⟨i, hi, hedit⟩ := Option.map_eq_some_iff.1 hwords
  obtain ⟨t, hran⟩ : ∃ t, invoke (oneProfile apiBaseOverride) ["config", "use", "lab"]
      = .ran none t :=
    Ending.exists_of_done (by decide +kernel)
  have hsilent : Environment.Silent [] := nofun
  obtain ⟨edited, happly, hafter⟩ :=
    load_after_edit hsilent hoverridden (eq_ok_of_toOption hi) hedit hran
  obtain rfl := Except.ok.inj happly
  refine ⟨t, load_oneProfile _, hoverridden, hran, hafter, ?_⟩
  rw [hafter]
  intro hsame
  cases congrArg Settings.apiBase (Except.ok.inj hsame)

end ZoneConsole
