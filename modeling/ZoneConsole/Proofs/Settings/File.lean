import ZoneConsole.Proofs.Codec.Record
import ZoneConsole.Proofs.Command.Run
import ZoneConsole.Proofs.Settings.Layer

/-!
# Settings come back from their file

Settings are written as one tree, read from the text as a tidied one, and laid over what is usual.
The profiles may be written in any order, and are sorted when they are read.  What is usual states
a default profile, the defaults and no profiles, and all of it is stated by settings that have a
default profile themselves; so nothing usual takes the place of what was left out.

* **`Settings.Storable`** — every time for a request has its place in 64 bits with a sign.
* **`save_load`** — settings that are storable come back, and others leave the file alone.
-/

namespace ZoneConsole

open Codec ZoneConsole.Field Toml

/-! ### Values of settings -/

theorem LoadOrdering.recovers (o : LoadOrdering) : LoadOrdering.codec.Recovers o :=
  recovers_variant (by cases o <;> decide) (by cases o <;> decide)

theorem Defaults.unambiguous : Defaults.fields.Unambiguous := by
  simp [fields]

theorem Defaults.recovers (d : Defaults) : Defaults.codec.Recovers d := by
  refine Record.recovers _ unambiguous rfl ?_
  exact Record.Restores.done mk d
    |>.field (restores_defaulted _ _ (recovers_text _))
    |>.field (restores_defaulted _ _ (recovers_text _))
    |>.field (restores_defaulted _ _ (recovers_flag _))
    |>.field (restores_defaulted _ _ (recovers_word64 _))
    |>.field (restores_defaulted _ _ (LoadOrdering.recovers _))

theorem Profile.unambiguous : Profile.fields.Unambiguous := by
  simp [fields]

theorem Profile.recovers (p : Profile) : Profile.codec.Recovers p := by
  refine Record.recovers _ unambiguous rfl ?_
  exact Record.Restores.done mk p
    |>.field (restores_required _ (recovers_text _))
    |>.field (restores_nullable _ fun _ _ => recovers_text _)
    |>.field (restores_nullable _ fun _ _ => recovers_flag _)
    |>.field (restores_nullable _ fun _ _ => recovers_word64 _)
    |>.field (restores_nullable _ fun _ _ => LoadOrdering.recovers _)

theorem Data.ne_null_of_isNull {d : Data} (h : isNull d = false) : d ≠ .null := by
  rintro rfl
  cases h

namespace Settings

theorem unambiguous : fields.Unambiguous := by
  simp [fields]

theorem recovers {s : Settings} (hsorted : SortedByName s.profiles) : codec.Recovers s := by
  refine Record.recovers _ unambiguous rfl ?_
  exact Record.Restores.done mk s
    |>.field (restores_nullable _ fun _ _ => recovers_text _)
    |>.field (restores_omittable _ fun _ _ => recovers_text _)
    |>.field (restores_defaulted _ _ (Defaults.recovers _))
    |>.field (restores_defaulted _ _ (recovers_dictionary hsorted fun p _ => p.2.recovers))

end Settings

/-! ### What is written -/

theorem Record.tabular {γ : Type} {fields : Record γ γ} (type : String) (c : γ)
    (hfields : fields.Unambiguous)
    (h : fields.Each fun f get => (f.codec.encode (get c)).Tabular) :
    ((fields.codec type).encode c).Tabular :=
  ⟨distinct_members c hfields,
    Data.tabularMembers_iff.2 (forall_members (P := fun m => m.2.Tabular) h)⟩

/-- A record fits if every field does that is not left out. -/
theorem Record.fits_iff {γ : Type} {fields : Record γ γ} (type : String) (c : γ) :
    ((fields.codec type).encode c).Fits ↔
      fields.Each fun f get => f.omitted (get c) = false → (f.codec.encode (get c)).Fits := by
  have hmembers {α : Type} (rest : Record γ α) : Data.FitsMembers (rest.members c) ↔
      rest.Each fun f get => f.omitted (get c) = false → (f.codec.encode (get c)).Fits := by
    induction rest with
    | done _ => exact Iff.rfl
    | field rest f get ih =>
        rw [Data.fitsMembers_iff] at ih ⊢
        rw [members, Each, ← ih, List.forall_mem_append]
        refine and_congr_right fun _ => ?_
        cases f.omitted (get c) <;> simp
  exact hmembers fields

namespace Codec

variable {α : Type} (c : Codec α)

theorem optional_tabular (h : ∀ a, (c.encode a).Tabular) (o : Option α) :
    (c.optional.encode o).Tabular := by
  cases o with
  | none => trivial
  | some a => exact h a

theorem optional_fits_iff (o : Option α) :
    (c.optional.encode o).Fits ↔ ∀ a ∈ o, (c.encode a).Fits := by
  cases o with
  | none => exact ⟨fun _ => nofun, fun _ => trivial⟩
  | some a => simp [optional]

theorem dictionary_fits_iff (members : List (String × α)) :
    (c.dictionary.encode members).Fits ↔ ∀ m ∈ members, (c.encode m.2).Fits := by
  rw [dictionary, Data.Fits, Data.fitsMembers_iff, List.forall_mem_map]

end Codec

namespace Defaults

theorem tabular (d : Defaults) : (codec.encode d).Tabular :=
  Record.tabular _ d unambiguous ⟨⟨⟨⟨⟨trivial, trivial⟩, trivial⟩, trivial⟩, trivial⟩, trivial⟩

theorem fits_iff (d : Defaults) : (codec.encode d).Fits ↔ d.timeout.toNat < 0x8000000000000000 := by
  rw [codec, Record.fits_iff]
  simp [fields, Record.Each, defaulted, text, flag, word64, LoadOrdering.codec, variant, Data.nat,
    Data.Fits]

end Defaults

namespace Profile

theorem tabular (p : Profile) : (codec.encode p).Tabular :=
  Record.tabular _ p unambiguous
    ⟨⟨⟨⟨⟨trivial, trivial⟩, optional_tabular text (fun _ => trivial) _⟩,
      optional_tabular flag (fun _ => trivial) _⟩, optional_tabular word64 (fun _ => trivial) _⟩,
      optional_tabular LoadOrdering.codec (fun _ => trivial) _⟩

theorem fits_iff (p : Profile) :
    (codec.encode p).Fits ↔ ∀ timeout ∈ p.timeout, timeout.toNat < 0x8000000000000000 := by
  rw [codec, Record.fits_iff]
  simp [fields, Record.Each, required, nullable, optional_fits_iff, text, flag, word64,
    LoadOrdering.codec, variant, Data.nat, Data.Fits]

end Profile

namespace Settings

variable {s : Settings}

theorem tabular (hdistinct : Data.Distinct s.profiles) : (codec.encode s).Tabular := by
  refine Record.tabular _ s unambiguous
    ⟨⟨⟨⟨trivial, optional_tabular text (fun _ => trivial) _⟩,
      optional_tabular text (fun _ => trivial) _⟩, s.defaults.tabular⟩, ?_, ?_⟩
  · rw [Data.Distinct, List.map_map]
    exact hdistinct
  · refine Data.tabularMembers_iff.2 fun m hm => ?_
    obtain ⟨p, -, rfl⟩ := List.mem_map.1 hm
    exact p.2.tabular

/-- Every time for a request has its place in 64 bits with a sign. -/
def Storable (s : Settings) : Prop :=
  s.defaults.timeout.toNat < 0x8000000000000000 ∧
    ∀ p ∈ s.profiles, ∀ timeout ∈ p.2.timeout, timeout.toNat < 0x8000000000000000

theorem fits_iff (s : Settings) : (codec.encode s).Fits ↔ s.Storable := by
  rw [codec, Record.fits_iff]
  simp [fields, Record.Each, nullable, omittable, defaulted, optional_fits_iff,
    dictionary_fits_iff, Defaults.fits_iff, Profile.fits_iff, text, Data.Fits, Storable]

/-! ### The order of profiles -/

/-- The members beside the profiles. -/
def besideProfiles (s : Settings) : List (String × Data) :=
  [("default_profile", text.optional.encode s.defaultProfile)] ++
    (if s.apiBase.isNone then [] else [("api_base_url", text.optional.encode s.apiBase)]) ++
    [("defaults", Defaults.codec.encode s.defaults)]

theorem encode_eq (s : Settings) : codec.encode s =
    .map (s.besideProfiles ++ [("profiles", Profile.codec.dictionary.encode s.profiles)]) := rfl

section Arranged

variable {profiles : List (String × Profile)} (hperm : profiles.Perm s.profiles)
include hperm

/-- Sorted profiles have different names in any order. -/
theorem distinct_arranged (hsorted : SortedByName s.profiles) : Data.Distinct profiles :=
  (hperm.map Prod.fst).nodup_iff.2 hsorted.nodup

theorem storable_arranged_iff : Storable { s with profiles } ↔ s.Storable :=
  and_congr_right fun _ => forall_congr' fun _ => imp_congr_left hperm.mem_iff

/-- **What shows settings with their profiles in some order** shows the settings. -/
theorem shows_arranged {r : Reading} (h : r.Shows (codec.encode { s with profiles })) :
    r.Shows (codec.encode s) := by
  have hname : "profiles" ∉ s.besideProfiles.map (·.1) := by
    unfold besideProfiles
    cases s.apiBase.isNone <;> simp
  rw [encode_eq] at h ⊢
  refine h.exchange hname (Data.ne_null_of_isNull rfl) fun r hprofiles => ?_
  exact Reading.Shows.perm (hperm.map _) hprofiles

end Arranged

/-! ### What is usual -/

/-- What is usual, as the lowest layer. -/
theorem layers_usual : Data.layers [codec.encode usual] = .map
    [("default_profile", .str "default"),
      ("defaults", .map [("color", .str "auto"), ("insecure", .bool false),
        ("load_ordering", .str "last-completion"), ("output", .str "table"),
        ("timeout", .nat 30)]),
      ("profiles", .map [])] := by
  rfl

end Settings

/-- Settings of defaults state all that is usual for them. -/
theorem Defaults.covered (d : Defaults) : Data.Covered (codec.encode d)
    (.map [("color", .str "auto"), ("insecure", .bool false),
      ("load_ordering", .str "last-completion"), ("output", .str "table"),
      ("timeout", .nat 30)]) := by
  -- Every usual name is one that the settings state with a value.
  refine ⟨by decide, ?_, trivial, trivial, trivial, trivial, trivial, trivial⟩
  intro name value h
  have hmem := mem_of_lookup? h
  simp only [Data.members, List.mem_cons, List.not_mem_nil, Prod.mk.injEq, or_false] at hmem
  rcases hmem with ⟨rfl, -⟩ | ⟨rfl, -⟩ | ⟨rfl, -⟩ | ⟨rfl, -⟩ | ⟨rfl, -⟩
  all_goals exact ⟨_, rfl, Data.ne_null_of_isNull rfl⟩

/-- Settings with a default profile state all that is usual. -/
theorem Settings.covered {s : Settings} (hdefault : s.defaultProfile.isSome) :
    Data.Covered (codec.encode s) (Data.layers [codec.encode usual]) := by
  obtain ⟨default, base, defaults, profiles⟩ := s
  obtain ⟨name, rfl⟩ := Option.isSome_iff_exists.1 hdefault
  rw [layers_usual]
  refine ⟨by decide, ?_, ?_⟩
  · intro name value h
    have hmem := mem_of_lookup? h
    simp only [Data.members, List.mem_cons, List.not_mem_nil, Prod.mk.injEq, or_false] at hmem
    rcases hmem with ⟨rfl, -⟩ | ⟨rfl, -⟩ | ⟨rfl, -⟩ <;> cases base
    all_goals exact ⟨_, rfl, Data.ne_null_of_isNull rfl⟩
  · have hprofiles (d : Data) : Data.Covered d (.map []) := Data.covered_of_noMembers rfl d
    cases base with
    | none => exact ⟨trivial, defaults.covered, hprofiles _, trivial⟩
    | some _ => exact ⟨trivial, trivial, defaults.covered, hprofiles _, trivial⟩

/-! ### Nothing from the environment -/

/-- No variable of the environment counts. -/
def Environment.Silent (env : Environment) : Prop := ∀ v ∈ env, Variable.path? v.1 = none

theorem environmentLayer_of_silent {env : Environment} (hsilent : env.Silent) :
    environmentLayer env = .map [] := by
  rw [environmentLayer, List.filterMap_eq_nil_iff.2]
  · rfl
  · intro v hv
    simp only [hsilent v hv, Option.map_none]

namespace Settings

/-- The settings that a tree over what is usual makes. -/
theorem ofLayers_of_decode {tree : Data} {s : Settings}
    (h : codec.decode (.ofSettings ((Data.layers [codec.encode usual]).overlay tree)) = .ok s) :
    ofLayers [codec.encode usual, tree] = .ok s := by
  have hlayers : Data.layers [codec.encode usual, tree]
      = (Data.layers [codec.encode usual]).overlay tree := rfl
  rw [ofLayers, hlayers, h]

/-- The settings that a file and an environment make in which no variable counts. -/
theorem load_of_silent {text : String} {ms : List (String × Data)} {env : Environment}
    (hread : Toml.read text = some (.map ms)) (hsilent : env.Silent) :
    load (some text) env = ofLayers [codec.encode usual, .map ms] := by
  simp only [load, fileLayer, hread, environmentLayer_of_silent hsilent]
  rfl

/-! ### Saving and loading -/

section

variable {profiles : List (String × Profile)} {file : SettingsFile}

/-- Settings come back from their text, in whatever order the profiles stand in it. -/
theorem load_write {s : Settings} {env : Environment} (hsorted : SortedByName s.profiles)
    (hperm : profiles.Perm s.profiles) (hdefault : s.defaultProfile.isSome)
    (hsilent : env.Silent) (hstorable : s.Storable) :
    ∃ text, Toml.write (codec.encode { s with profiles }) = .ok text ∧
      load (some text) env = .ok s := by
  have htabular := tabular (s := { s with profiles }) (distinct_arranged hperm hsorted)
  have hfits := (fits_iff { s with profiles }).2 ((storable_arranged_iff hperm).2 hstorable)
  obtain ⟨text, hwrite, hread⟩ := read_write htabular hfits
  refine ⟨text, hwrite, ?_⟩
  have hshows := Data.shows_overlay htabular (covered (s := { s with profiles }) hdefault)
  have hdecode := (recovers hsorted).reads _ (shows_arranged hperm hshows)
  rw [load_of_silent hread hsilent]
  exact ofLayers_of_decode hdecode

variable {s : Settings}

/-- A text is put in the place of the file. -/
theorem save_of_write {text : String} (hplace : file ≠ .blocked)
    (h : Toml.write (codec.encode { s with profiles }) = .ok text) :
    s.save file profiles = .ok (.present text) := by
  cases file with
  | blocked => exact absurd rfl hplace
  | absent | present _ => simp only [save, h]

theorem save_of_fault {fault : Toml.WriteFault} (hplace : file ≠ .blocked)
    (h : Toml.write (codec.encode { s with profiles }) = .error fault) :
    s.save file profiles = .error (.unwritable fault) := by
  cases file with
  | blocked => exact absurd rfl hplace
  | absent | present _ => simp only [save, h]

/-- Settings that are not storable have no text. -/
theorem write_of_not_storable {s : Settings} (hsorted : SortedByName s.profiles)
    (hperm : profiles.Perm s.profiles) (hlarge : ¬ s.Storable) :
    Toml.write (codec.encode { s with profiles }) = .error .outOfRange := by
  refine write_outOfRange (tabular (distinct_arranged hperm hsorted)) fun h => hlarge ?_
  exact (storable_arranged_iff hperm).1 ((fits_iff { s with profiles }).1 h)

end

end Settings

/-- **Settings come back from the file they were saved to**, with every name and text as it was
    and nothing where nothing was stated, if each of their times fits; the machine may write the
    profiles in any order.  If one does not, they are not saved and the file, or its absence,
    stays as it was. -/
theorem save_load {s : Settings} {env : Environment} (m : Machine) (t : Transcript)
    (hsorted : SortedByName s.profiles) (hdefault : s.defaultProfile.isSome)
    (hsilent : env.Silent) (hplace : t.file ≠ .blocked) :
    (s.Storable → ∃ file, (Run.save m s).run.run t = (.ok (), { t with file }) ∧
      Settings.load file.text? env = .ok s) ∧
    (¬ s.Storable →
      (Run.save m s).run.run t = (.error (.ofSettings (.unwritable .outOfRange)), t)) := by
  have hperm := m.arrange_perm s.profiles
  constructor
  · intro hstorable
    obtain ⟨text, hwrite, hload⟩ :=
      Settings.load_write hsorted hperm hdefault hsilent hstorable
    rw [Run.run_save, Settings.save_of_write hplace hwrite]
    exact ⟨.present text, rfl, hload⟩
  · intro hlarge
    have hfault := Settings.write_of_not_storable hsorted hperm hlarge
    rw [Run.run_save, Settings.save_of_fault hplace hfault]

/-- Settings with a profile whose name and server a document has to quote. -/
def quotedSettings (timeout : UInt64) : Settings where
  defaultProfile := some "lab \"2\".\n"
  apiBase := none
  defaults := .usual
  profiles := [("", .ofServer ""),
    ("lab \"2\".\n", ⟨"http://lab.lan:8080\t'", some "", none, some timeout, some .latestRequest⟩)]

/-- A machine that writes profiles in the wrong order. -/
def backwards : Machine where
  user := none
  display := false
  completion _ := ""
  arrange := List.reverse
  arrange_perm := List.reverse_perm

/-- A time of half a minute is stored, one of 2⁶³ seconds is not. -/
theorem quotedSettings_save_load :
    (∃ file, (Run.save backwards (quotedSettings 30)).run.run ⟨"", "", .absent, .ofNetwork .down⟩
        = (.ok (), ⟨"", "", file, .ofNetwork .down⟩) ∧
      Settings.load file.text? [("HOME", "/home/op")] = .ok (quotedSettings 30)) ∧
    (Run.save backwards (quotedSettings (0x8000000000000000))).run.run
        ⟨"", "", .absent, .ofNetwork .down⟩
      = (.error (.ofSettings (.unwritable .outOfRange)), ⟨"", "", .absent, .ofNetwork .down⟩) := by
  have hsilent : Environment.Silent [("HOME", "/home/op")] := by
    rintro v hv
    rw [List.mem_singleton.1 hv]
    decide +kernel
  have hsorted (timeout : UInt64) : SortedByName (quotedSettings timeout).profiles :=
    List.pairwise_pair.2 (show "" < "lab \"2\".\n" by decide)
  have hplace : SettingsFile.absent ≠ .blocked := nofun
  constructor
  · refine (save_load backwards ⟨"", "", .absent, .ofNetwork .down⟩ (hsorted 30) rfl hsilent
      hplace).1 ?_
    refine ⟨by decide, fun p hp timeout htimeout => ?_⟩
    rcases List.mem_cons.1 hp with rfl | hp
    · cases htimeout
    · obtain rfl := List.mem_singleton.1 hp
      cases htimeout
      decide
  · refine (save_load backwards ⟨"", "", .absent, .ofNetwork .down⟩ (hsorted _) rfl hsilent
      hplace).2 ?_
    intro hfits
    have hlarge := hfits.2 _ (List.mem_cons_of_mem _ List.mem_cons_self) _ rfl
    exact absurd hlarge (by decide)

end ZoneConsole
