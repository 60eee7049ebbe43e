import ZoneConsole.Proofs.Settings.Loaded
import ZoneConsole.Proofs.Settings.Variable

/-!
# Two readers of one variable

A variable of the environment overrides the base of the service.  It is read in two ways: as a
layer of settings, over those of the file, and as the text that it is, over a configuration that
was made without it.  The two agree for texts that stand for themselves, but a blank text hides
the base of a profile from the first reader only, and a text that the first one takes for another
value is refused or changed by it.

* **`Record.decode_ofSettings_iff`** — what a record is read from a layer as.
* **`Settings.decode_insertMember_iff`** — settings with a base stated on top of them.
* **`Settings.load_baseVariable_iff`**, **`Settings.configured_baseVariable_iff`** — what the
  first reader makes of the variable.
* **`baseReaders_agree_iff`** — when both readers come to the same base.
-/

namespace ZoneConsole

open Codec

/-! ### Records read from a layer -/

namespace Reading

mutual

/-- Nothing is wrong with a layer that is passed over. -/
theorem passOver_ofSettings : ∀ d : Data, (ofSettings d).passOver = none
  | .null | .bool _ | .num _ | .str _ => rfl
  | .seq items => by
      rw [ofSettings, passOver, passOverItems_ofSettingItems items]
      rfl
  | .map ms => by
      rw [ofSettings, passOver, passOverMembers_ofSettingMembers ms]
      rfl

theorem passOverItems_ofSettingItems : ∀ items, passOverItems (ofSettingItems items) = none
  | [] => rfl
  | item :: rest => by
      rw [ofSettingItems, passOverItems, passOver_ofSettings item,
        passOverItems_ofSettingItems rest]
      rfl

theorem passOverMembers_ofSettingMembers : ∀ ms, passOverMembers (ofSettingMembers ms) = none
  | [] => rfl
  | (_, value) :: rest => by
      rw [ofSettingMembers, passOverMembers, passOver_ofSettings value,
        passOverMembers_ofSettingMembers rest]
      rfl

end

end Reading

namespace Field

variable {β : Type} {f : Field β} {ms : List (String × Data)} {b : β}

/-- A field gets nothing from the member of another name. -/
theorem gets_insertMember_of_ne {name : String} (haliases : f.aliases = []) (hname : f.name ≠ name)
    (d : Data) : f.Gets (Reading.ofSettingMembers (insertMember name d ms)) b ↔
      f.Gets (Reading.ofSettingMembers ms) b := by
  unfold Gets
  rw [Record.memberOf_ofSettingMembers haliases, Record.memberOf_ofSettingMembers haliases,
    lookup?_insertMember, if_neg hname]

/-- A field gets what it reads from its own member. -/
theorem gets_insertMember (haliases : f.aliases = []) (d : Data) :
    f.Gets (Reading.ofSettingMembers (insertMember f.name d ms)) b ↔
      f.codec.decode (.ofSettings d) = .ok b := by
  unfold Gets
  rw [Record.memberOf_ofSettingMembers haliases, lookup?_insertMember, if_pos rfl]
  simp

end Field

namespace Record

variable {γ α : Type} {ms : List (String × Data)}

/-- No field is read under a second name. -/
def Plain (fields : Record γ α) : Prop := fields.Each fun f _ => f.aliases = []

/-- A record is built if every field gets its value. -/
theorem build_of_gets {fields : Record γ α} {readings : List (Reading × Reading)} {c : γ}
    (h : fields.Each fun f get => f.Gets readings (get c)) :
    fields.build readings = .ok (fields.value c) := by
  induction fields with
  | done a => rfl
  | field rest f get ih =>
      rw [build, ih h.1]
      rcases h.2 with ⟨r, hfound, hdecode⟩ | ⟨hnone, habsent⟩
      · simp only [hfound, hdecode]
        rfl
      · simp only [hnone, habsent]
        rfl

/-- A record that is built has read the member that each field knows. -/
theorem check_of_build {fields : Record γ α} (hplain : fields.Plain) (hdistinct : Data.Distinct ms)
    {a : α} (h : fields.build (Reading.ofSettingMembers ms) = .ok a) :
    ∀ m ∈ ms, ∀ own check, fields.known? m.1 = some (own, check) →
      own = m.1 ∧ check (.ofSettings m.2) = .ok () := by
  induction fields with
  | done a =>
      intro m hm own check hknown
      cases hknown
  | field rest f get ih =>
      intro m hm own check hknown
      obtain ⟨g, b, hrest, hgets, -⟩ := build_field h
      rw [known?] at hknown
      split at hknown
      · rename_i hanswers
        have hname : f.name = m.1 := by
          rw [Field.answersTo, hplain.2, List.contains_nil, Bool.or_false] at hanswers
          exact eq_of_beq hanswers
        obtain ⟨rfl, rfl⟩ := Prod.mk.inj (Option.some.inj hknown)
        have hfound : memberOf f (Reading.ofSettingMembers ms) = some (.ofSettings m.2) := by
          rw [memberOf_ofSettingMembers hplain.2, hname, lookup?_of_mem hdistinct hm]
          rfl
        rcases hgets with ⟨r, hr, hdecode⟩ | ⟨hnone, -⟩
        · obtain rfl := Option.some.inj (hfound.symm.trans hr)
          refine ⟨hname, ?_⟩
          show (f.codec.decode _).map _ = _
          rw [hdecode]
          rfl
        · cases hfound.symm.trans hnone
      · exact ih hplain.1 hrest m hm own check hknown

/-- Members of a layer are passed if each is read by the field that knows it. -/
theorem checkMembers_ofSettingMembers {fields : Record γ α} (hdistinct : Data.Distinct ms)
    (hcheck : ∀ m ∈ ms, ∀ own check, fields.known? m.1 = some (own, check) →
      own = m.1 ∧ check (.ofSettings m.2) = .ok ()) :
    fields.checkMembers .loose [] (Reading.ofSettingMembers ms) = .ok () := by
  rw [Reading.ofSettingMembers_eq_named]
  refine (checkMembers_named_iff rfl _ []).2 ⟨fun m hm => ?_, ?_, fun _ _ => List.not_mem_nil⟩
  · obtain ⟨⟨name, d⟩, hd, rfl⟩ := List.mem_map.1 hm
    rw [Passes]
    cases hknown : fields.known? name with
    | none => exact Reading.passOver_ofSettings d
    | some found => exact (hcheck _ hd found.1 found.2 hknown).2
  · have hnames : ((ms.map fun m => (m.1, Reading.ofSettings m.2)).map (·.1)).Nodup := by
      rw [List.map_map]
      exact hdistinct
    refine (owners_sublist fun m hm own check hknown => ?_).nodup hnames
    obtain ⟨e, he, rfl⟩ := List.mem_map.1 hm
    exact (hcheck e he own check hknown).1

/-- **A record is read from a layer exactly if it can be built from it**: what checks a member is
    what builds from it. -/
theorem decode_ofSettings_iff {fields : Record γ γ} (type : String) (hplain : fields.Plain)
    (hdistinct : Data.Distinct ms) {c : γ} :
    fields.decode type (.ofSettings (.map ms)) = .ok c ↔
      fields.build (Reading.ofSettingMembers ms) = .ok c := by
  refine ⟨build_of_decode type, fun h => ?_⟩
  have hchecked := checkMembers_ofSettingMembers hdistinct (check_of_build hplain hdistinct h)
  rw [Reading.ofSettings, decode, hchecked]
  exact h

end Record

/-! ### The override in a layer -/

/-- A text is read of what is stated exactly if a text is stated. -/
theorem Codec.optional_text_decode {d : Data} (hd : d ≠ .null) {o : Option String} :
    text.optional.decode (.ofSettings d) = .ok o ↔ ∃ t, d = .str t ∧ o = some t := by
  cases d with
  | null => exact absurd rfl hd
  | str t =>
      have hdecode : text.optional.decode (.ofSettings (.str t)) = .ok (some t) := rfl
      rw [hdecode]
      constructor
      · intro h
        exact ⟨t, rfl, (Except.ok.inj h).symm⟩
      · rintro ⟨_, h, rfl⟩
        cases h
        rfl
  | bool _ | num _ | seq _ | map _ => exact iff_of_false nofun nofun

namespace Settings

theorem plain : fields.Plain := ⟨⟨⟨⟨trivial, rfl⟩, rfl⟩, rfl⟩, rfl⟩

/-- **A layer in which a base is stated** makes the settings that it makes without, with that
    base, if a text is stated, and none otherwise. -/
theorem decode_insertMember_iff {ms : List (String × Data)} (hsorted : SortedByName ms)
    {s : Settings} (hs : codec.decode (.ofSettings (.map ms)) = .ok s) {d : Data}
    (hd : d ≠ .null) {s' : Settings} :
    codec.decode (.ofSettings (.map (insertMember "api_base_url" d ms))) = .ok s' ↔
      ∃ t, d = .str t ∧ s' = { s with apiBase := some t } := by
  have hinserted : SortedByName (insertMember "api_base_url" d ms) := hsorted.insertMember
  rw [codec, Record.codec, Record.decode_ofSettings_iff _ plain hsorted.nodup] at hs
  rw [codec, Record.codec, Record.decode_ofSettings_iff _ plain hinserted.nodup]
  obtain ⟨⟨⟨⟨-, hdefault⟩, -⟩, hdefaults⟩, hprofiles⟩ := each_gets hs
  -- with a text in its place the base is the only value that differs
  have htext (t : String) (ht : d = .str t) :
      fields.build (Reading.ofSettingMembers (insertMember "api_base_url" d ms)) =
        .ok { s with apiBase := some t } := by
    have hbase : (Field.omittable "api_base_url" text).Gets
        (Reading.ofSettingMembers (insertMember "api_base_url" d ms)) (some t) :=
      (Field.gets_insertMember rfl d).2 ((optional_text_decode hd).2 ⟨t, ht, rfl⟩)
    have hgets : fields.Each fun f get => f.Gets
        (Reading.ofSettingMembers (insertMember "api_base_url" d ms))
        (get { s with apiBase := some t }) :=
      ⟨⟨⟨⟨trivial, (Field.gets_insertMember_of_ne rfl (by decide) d).2 hdefault⟩, hbase⟩,
        (Field.gets_insertMember_of_ne rfl (by decide) d).2 hdefaults⟩,
        (Field.gets_insertMember_of_ne rfl (by decide) d).2 hprofiles⟩
    exact Record.build_of_gets hgets
  constructor
  · intro h
    obtain ⟨⟨⟨-, hbase⟩, -⟩, -⟩ := each_gets h
    obtain ⟨t, ht, -⟩ := (optional_text_decode hd).1
      ((Field.gets_insertMember (f := .omittable "api_base_url" text) rfl d).1 hbase)
    exact ⟨t, ht, Except.ok.inj (h.symm.trans (htext t ht))⟩
  · rintro ⟨t, ht, rfl⟩
    exact htext t ht

end Settings

/-! ### The variable -/

/-- The variable that overrides the base of the service. -/
def baseVariable : String := "QUBES_AIR_API_BASE_URL"

namespace Data

/-- A layer on top leaves a text a text, and makes none of anything else. -/
theorem overlay_eq_str_iff {low d : Data} {t : String} : overlay low d = .str t ↔ d = .str t := by
  cases d with
  | str s => exact Iff.rfl
  | null | bool _ | num _ | seq _ | map _ => exact iff_of_false nofun nofun

end Data

/-- Among variables that do not count, this one makes a layer of one member. -/
theorem environmentLayer_baseVariable {env : Environment} (hsilent : env.Silent) (v : String) :
    environmentLayer ((baseVariable, v) :: env) =
      .map [("api_base_url", Data.overlay .null (Variable.value v))] := by
  have hpath : Variable.path? baseVariable = some ["api_base_url"] := by decide +kernel
  rw [environmentLayer, List.filterMap_cons, List.filterMap_eq_nil_iff.2]
  · simp only [hpath, Option.map_some]
    rfl
  · intro entry hentry
    simp only [hsilent entry hentry, Option.map_none]

namespace Settings

/-- The table of a file over what is usual, sorted by name. -/
theorem exists_sorted {layer : Data} (hlayer : layer.Stated) :
    ∃ ms, Data.layers [codec.encode usual, layer] = .map ms ∧ SortedByName ms := by
  cases layer with
  | null | bool _ | num _ | str _ | seq _ => exact hlayer.elim
  | map members =>
      have hlayers : Data.layers [codec.encode usual, .map members] =
          (Data.layers [codec.encode usual]).overlay (.map members) := rfl
      rw [hlayers, layers_usual]
      exact ⟨_, rfl, Data.sorted_membersOver (by decide) members⟩

theorem ofLayers_eq_ok_iff {layers : List Data} {s : Settings} :
    ofLayers layers = .ok s ↔ codec.decode (.ofSettings (Data.layers layers)) = .ok s := by
  unfold ofLayers
  cases codec.decode (.ofSettings (Data.layers layers)) with
  | ok _ => exact ⟨fun h => congrArg Except.ok (Except.ok.inj h),
      fun h => congrArg Except.ok (Except.ok.inj h)⟩
  | error _ => exact iff_of_false nofun nofun

/-- **With the variable a file loads** exactly if the variable is read as a text, and then to what
    it loads to without, with that text for the base. -/
theorem load_baseVariable_iff {text : Option String} {env : Environment} (hsilent : env.Silent)
    {s : Settings} (hload : load text env = .ok s) (v : String) {s' : Settings} :
    load text ((baseVariable, v) :: env) = .ok s' ↔
      ∃ t, Variable.value v = .str t ∧ s' = { s with apiBase := some t } := by
  unfold load at hload ⊢
  cases hfile : fileLayer text with
  | error e =>
      rw [hfile] at hload
      cases hload
  | ok layer =>
      rw [hfile] at hload
      obtain ⟨ms, hms, hsorted⟩ := exists_sorted (fileLayer_stated hfile)
      have hunder : Data.layers [codec.encode usual, layer, environmentLayer env] = .map ms := by
        rw [environmentLayer_of_silent hsilent]
        show (Data.layers [codec.encode usual, layer]).overlay (.map []) = _
        rw [hms]
        rfl
      -- the variable lies over all other layers, and changes one member of what they make
      have hover : Data.layers [codec.encode usual, layer,
          environmentLayer ((baseVariable, v) :: env)] =
          .map (insertMember "api_base_url" (((lookup? "api_base_url" ms).getD .null).overlay
            (Data.overlay .null (Variable.value v))) ms) := by
        rw [environmentLayer_baseVariable hsilent]
        show (Data.layers [codec.encode usual, layer]).overlay (.map [(_, _)]) = _
        rw [hms]
        rfl
      have hs := ofLayers_eq_ok_iff.1 hload
      rw [hunder] at hs
      have hstated := Data.overlay_ne_null (Variable.value_ne_null v) .null
      refine ofLayers_eq_ok_iff.trans ?_
      rw [hover, decode_insertMember_iff hsorted hs (Data.overlay_ne_null hstated _)]
      simp only [Data.overlay_eq_str_iff]

end Settings

/-! ### Configurations -/

namespace Settings

/-- The configuration of a console that a file and an environment make, for the profile of a name
    or, if there is none of that name, for no profile. -/
def configured (text : Option String) (env : Environment) (name : Option String) :
    Except SettingsError ConsoleConfig :=
  load text env >>= fun s => s.consoleConfig (name.bind s.profile?)

/-- Settings with another base make the same configuration, with that base unless it is blank. -/
theorem consoleConfig_withBase {s : Settings} {profile : Option Profile} {config : ConsoleConfig}
    (h : s.consoleConfig profile = .ok config) (t : String) :
    { s with apiBase := some t }.consoleConfig profile =
      .ok { config with apiBase := if isBlankText t then defaultApiBase else t } := by
  obtain ⟨_, hvalid, rfl⟩ := exists_of_map_ok h
  show (validateOrigin _).map _ = _
  have hbase : { s with apiBase := some t }.baseFor profile =
      if isBlankText t then defaultApiBase else t := by
    cases hblank : isBlankText t <;> simp [baseFor, Option.filter, hblank]
  rw [hvalid, hbase]
  rfl

/-- The variable makes the configuration that there is without it, with the text that it is read
    as for the base, unless that is blank, and none if it is not read as a text. -/
theorem configured_baseVariable_iff {text : Option String} {env : Environment}
    (hsilent : env.Silent) {name : Option String} {config : ConsoleConfig}
    (hconfig : configured text env name = .ok config) (v : String) {config' : ConsoleConfig} :
    configured text ((baseVariable, v) :: env) name = .ok config' ↔ ∃ t, Variable.value v = .str t ∧
      config' = { config with apiBase := if isBlankText t then defaultApiBase else t } := by
  obtain ⟨s, hload, hs⟩ := exists_of_bind_ok hconfig
  have hwith (t : String) := consoleConfig_withBase hs t
  constructor
  · intro h
    obtain ⟨s', hload', hs'⟩ := exists_of_bind_ok h
    obtain ⟨t, ht, rfl⟩ := (load_baseVariable_iff hsilent hload v).1 hload'
    exact ⟨t, ht, Except.ok.inj (hs'.symm.trans (hwith t))⟩
  · rintro ⟨t, ht, rfl⟩
    rw [configured, (load_baseVariable_iff hsilent hload v).2 ⟨t, ht, rfl⟩]
    exact hwith t

/-- The base that the first reader of the variable comes to, if it comes to any. -/
theorem configured_apiBase_iff {text : Option String} {env : Environment} (hsilent : env.Silent)
    {name : Option String} {config : ConsoleConfig}
    (hconfig : configured text env name = .ok config) (v base : String) :
    (configured text ((baseVariable, v) :: env) name).map (·.apiBase) = .ok base ↔
      ∃ t, Variable.value v = .str t ∧ base = if isBlankText t then defaultApiBase else t := by
  constructor
  · intro h
    obtain ⟨config', hconfig', rfl⟩ := exists_of_map_ok h
    obtain ⟨t, ht, hsame⟩ := (configured_baseVariable_iff hsilent hconfig v).1 hconfig'
    exact ⟨t, ht, by rw [hsame]⟩
  · rintro ⟨t, ht, hsame⟩
    rw [(configured_baseVariable_iff hsilent hconfig v).2 ⟨t, ht, rfl⟩, hsame, Except.map]

end Settings

/-- The base that the second reader comes to. -/
theorem ConsoleConfig.apiBase_withBaseOverride (c : ConsoleConfig) (v : String) :
    (c.withBaseOverride (some v)).apiBase = if isBlankText v then c.apiBase else v := by
  show (if isBlankText v then c else { c with apiBase := v }).apiBase = _
  split <;> rfl

/-- **The two readers of the variable agree** on the base exactly if its text is blank and the
    base without it is the usual one, or the text is not blank and stands for itself.  This is
    for every file that loads without variables, every profile of it with a valid server, or
    none, and every text; what the first reader makes of it is the same configuration with what
    the text is read as for the base, and the usual base if that is blank. -/
theorem baseReaders_agree_iff {text : Option String} {env : Environment} (hsilent : env.Silent)
    {name : Option String} {config : ConsoleConfig}
    (hconfig : Settings.configured text env name = .ok config) (v : String) :
    (∀ config', Settings.configured text ((baseVariable, v) :: env) name = .ok config' ↔
      ∃ t, Variable.value v = .str t ∧
        config' = { config with apiBase := if isBlankText t then defaultApiBase else t }) ∧
    ((Settings.configured text ((baseVariable, v) :: env) name).map (·.apiBase) =
        .ok (config.withBaseOverride (some v)).apiBase ↔
      if isBlankText v then config.apiBase = defaultApiBase else Variable.value v = .str v) := by
  refine ⟨fun _ => Settings.configured_baseVariable_iff hsilent hconfig v, ?_⟩
  rw [Settings.configured_apiBase_iff hsilent hconfig, config.apiBase_withBaseOverride]
  split
  · rename_i hblank
    have hempty : isBlankText "" = true := by decide
    simp [Variable.value_of_blank hblank, hempty]
  · rename_i hshown
    constructor
    · rintro ⟨t, ht, hv⟩
      split at hv
      · -- the usual base is read as itself, which is not blank
        rename_i hblank
        have hdefault : Variable.value defaultApiBase = .str defaultApiBase :=
          Variable.value_of_beginsText rfl (by decide) rfl
        rw [hv, hdefault] at ht
        cases ht
        exact absurd hblank (by decide)
      · rw [ht, hv]
    · intro ht
      exact ⟨v, ht, by rw [if_neg hshown]⟩

/-- A file with a profile that has a base of its own. -/
def cloudFile : String :=
  "[profiles.cloud]\nserver = \"http://cloud.lan:8080\"\napi_base = \"/api/v2\"\n"

/-- The configuration for that profile. -/
def cloudConfig : ConsoleConfig :=
  { ConsoleConfig.ofOrigin "http://cloud.lan:8080" with apiBase := "/api/v2" }

theorem configured_cloudFile :
    Settings.configured (some cloudFile) [] (some "cloud") = .ok cloudConfig :=
  eq_ok_of_toOption (by decide +kernel)

/-- On a path the two readers agree. -/
theorem baseReaders_agree_path : Environment.Silent [] ∧
    Settings.configured (some cloudFile) [] (some "cloud") = .ok cloudConfig ∧
    (Settings.configured (some cloudFile) [(baseVariable, "/api/v3")] (some "cloud")).map
      (·.apiBase) = .ok (cloudConfig.withBaseOverride (some "/api/v3")).apiBase := by
  have hsilent : Environment.Silent [] := nofun
  have hagree := (baseReaders_agree_iff hsilent configured_cloudFile "/api/v3").2
  have hself : Variable.value "/api/v3" = .str "/api/v3" :=
    Variable.value_of_beginsText rfl (by decide) rfl
  exact ⟨hsilent, configured_cloudFile, hagree.2 ((if_neg (by decide)).mpr hself)⟩

/-- **A blank text hides the base of the profile** from one reader and not from the other, and a
    text of digits, which is the base for the one, is refused by the other. -/
theorem blank_hides_base :
    Settings.configured (some cloudFile) [] (some "cloud") = .ok cloudConfig ∧
    (Settings.configured (some cloudFile) [(baseVariable, " ")] (some "cloud")).map (·.apiBase) =
      .ok "/api/v1" ∧
    (cloudConfig.withBaseOverride (some " ")).apiBase = "/api/v2" ∧
    (Settings.configured (some cloudFile) [(baseVariable, "123")] (some "cloud")).toOption = none ∧
    (cloudConfig.withBaseOverride (some "123")).apiBase = "123" :=
  ⟨configured_cloudFile, eq_ok_of_toOption (by decide +kernel), by decide, by decide +kernel,
    by decide⟩

end ZoneConsole
