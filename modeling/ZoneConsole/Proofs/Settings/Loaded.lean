import ZoneConsole.Proofs.Codec.Members
import ZoneConsole.Proofs.Settings.File
import ZoneConsole.Proofs.Toml.Stated

/-!
# What loaded settings look like

Every layer of settings states something under each of its names: a file has no word for null, and
neither has a variable of the environment.  So the default profile, which is usual, is never taken
away, and profiles that were read are sorted by name.

* **`environmentLayer_stated`** — an environment makes a layer that states what it holds.
* **`Record.build_field`** — what a record that was read got each of its values from.
* **`load_whole`** — loaded settings have a default profile, and their profiles are sorted.
-/

namespace ZoneConsole

open Toml (Speaks speaks_none speaks_some speaks_map)

/-! ### Layers -/

namespace Data

theorem overlay_ne_null {d : Data} (hd : d ≠ .null) (low : Data) : overlay low d ≠ .null := by
  cases d with
  | null => exact absurd rfl hd
  | bool | num | str | seq | map => exact nofun

theorem membersOver_ne_null {members : List (String × Data)}
    (hmembers : ∀ m ∈ members, m.2 ≠ .null) {low : List (String × Data)}
    (hlow : ∀ m ∈ low, m.2 ≠ .null) : ∀ m ∈ membersOver low members, m.2 ≠ .null := by
  induction members generalizing low with
  | nil => exact hlow
  | cons member rest ih =>
      obtain ⟨name, value⟩ := member
      refine ih (fun m hm => hmembers m (List.mem_cons_of_mem _ hm)) fun m hm => ?_
      rcases eq_or_mem_of_mem_insertMember hm with rfl | hm
      · exact overlay_ne_null (hmembers _ List.mem_cons_self) _
      · exact hlow m hm

theorem Stated.overlay {low high : Data} (hlow : low.Stated) (hhigh : high.Stated) :
    (low.overlay high).Stated := by
  cases high with
  | map members =>
      cases low with
      | map low => exact membersOver_ne_null hhigh hlow
      | null | bool | num | str | seq => exact hlow.elim
  | null | bool | num | str | seq => exact hhigh.elim

theorem stated_nest {value : Data} (hvalue : value ≠ .null) {path : List String}
    (hpath : path ≠ []) : (value.nest path).Stated := by
  cases path with
  | nil => exact absurd rfl hpath
  | cons name rest =>
      intro m hm
      rw [List.mem_singleton.1 hm]
      cases rest with
      | nil => exact hvalue
      | cons => exact nofun

theorem layers_stated {ds : List Data} (hds : ∀ d ∈ ds, d.Stated) : (layers ds).Stated := by
  have hfold (start : Data) (hstart : start.Stated) : (ds.foldl overlay start).Stated := by
    induction ds generalizing start with
    | nil => exact hstart
    | cons d rest ih =>
        exact ih (fun d hd => hds d (List.mem_cons_of_mem _ hd)) _
          (hstart.overlay (hds d List.mem_cons_self))
  exact hfold (.map []) nofun

/-- What a layer has a member for, it still has one for under another layer. -/
theorem lookup?_membersOver_isSome {name : String} {low : List (String × Data)}
    (hlow : (lookup? name low).isSome) (members : List (String × Data)) :
    (lookup? name (membersOver low members)).isSome := by
  induction members generalizing low with
  | nil => exact hlow
  | cons member rest ih =>
      refine ih ?_
      rw [lookup?_insertMember]
      split
      · rfl
      · exact hlow

theorem Stated.lookup?_overlay_isSome {name : String} {low high : Data} (hhigh : high.Stated)
    (hlow : (lookup? name low.members).isSome) :
    (lookup? name (low.overlay high).members).isSome := by
  cases high with
  | map members => exact lookup?_membersOver_isSome hlow members
  | null | bool | num | str | seq => exact hhigh.elim

end Data

/-! ### The environment -/

theorem Toml.Speaks.skip {p : Toml.Parsed Data} (hp : Speaks p) (f : List Char → List Char) :
    Speaks (p.map fun (d, r) => (d, f r)) := by
  intro found hfound
  obtain ⟨value, hvalue, rfl⟩ := Option.map_eq_some_iff.1 hfound
  exact hp value hvalue

namespace Variable

theorem bare_ne_null (cs : List Char) : bare cs ≠ .null := by
  unfold bare
  split <;> exact nofun

theorem speaks_readValue (fuel : Nat) (cs : List Char) : Speaks (readValue fuel cs) := by
  cases fuel with
  | zero =>
      rw [readValue]
      exact speaks_none
  | succ fuel =>
      rw [readValue]
      refine (?_ : Speaks _).skip skipGaps
      split
      · exact speaks_some (by simp)
      · exact speaks_some (by simp)
      · exact speaks_map (by simp)
      · exact speaks_map (by simp)
      · exact speaks_map (by simp)
      · exact speaks_some (by simp)
      · exact speaks_none
      · exact speaks_some (bare_ne_null _)

theorem value_ne_null (text : String) : value text ≠ .null := by
  unfold value
  split
  · rename_i d hd
    exact speaks_readValue _ _ _ hd
  · exact nofun

theorem splitPoints_ne_nil (cs : List Char) : splitPoints cs ≠ [] := by
  cases cs with
  | nil => exact nofun
  | cons c rest =>
      rw [splitPoints]
      split
      · exact nofun
      · split <;> exact nofun

theorem path?_ne_nil {name : String} {path : List String} (h : path? name = some path) :
    path ≠ [] := by
  unfold path? at h
  simp only at h
  split at h
  · split at h
    · cases h
    · obtain rfl := Option.some.inj h
      exact fun heq => splitPoints_ne_nil _ (List.map_eq_nil_iff.1 heq)
  · cases h

end Variable

/-- **An environment states what it holds.** -/
theorem environmentLayer_stated (env : Environment) : (environmentLayer env).Stated := by
  refine Data.layers_stated fun d hd => ?_
  obtain ⟨⟨name, text⟩, -, hlayer⟩ := List.mem_filterMap.1 hd
  obtain ⟨path, hpath, rfl⟩ := Option.map_eq_some_iff.1 hlayer
  exact Data.stated_nest (Variable.value_ne_null text) (Variable.path?_ne_nil hpath)

/-! ### Records that were read -/

/-- A field gets a value: from the member it finds, or what stands for an absent one. -/
def Field.Gets {β : Type} (f : Field β) (readings : List (Reading × Reading)) (b : β) : Prop :=
  (∃ r, Record.memberOf f readings = some r ∧ f.codec.decode r = .ok b) ∨
    (Record.memberOf f readings = none ∧ f.absentMember = some b)

/-- The members of a layer have names that can be read. -/
theorem Reading.ofSettingMembers_eq_named (ms : List (String × Data)) :
    ofSettingMembers ms = named (ms.map fun m => (m.1, ofSettings m.2)) := by
  rw [Data.ofSettingMembers_eq, named, List.map_map]
  rfl

namespace Record

/-- A record that was read from members was built from them. -/
theorem build_of_decode {γ : Type} {fields : Record γ γ} (type : String) {stop : MapStop}
    {readings : List (Reading × Reading)} {c : γ}
    (h : fields.decode type (.map readings stop) = .ok c) : fields.build readings = .ok c := by
  rw [decode] at h
  split at h
  · cases h
  · exact h

/-- What a record that was read got its last value from. -/
theorem build_field {γ α β : Type} {rest : Record γ (β → α)} {f : Field β} {get : γ → β}
    {readings : List (Reading × Reading)} {a : α}
    (h : (field rest f get).build readings = .ok a) :
    ∃ g b, rest.build readings = .ok g ∧ f.Gets readings b ∧ a = g b := by
  rw [build] at h
  split at h
  · cases h
  · rename_i g hg
    split at h
    · rename_i r hr
      obtain ⟨b, hb, rfl⟩ := exists_of_map_ok h
      exact ⟨g, b, hg, .inl ⟨r, hr, hb⟩, rfl⟩
    · rename_i hnone
      split at h
      · rename_i b hb
        exact ⟨g, b, hg, .inr ⟨hnone, hb⟩, (Except.ok.inj h).symm⟩
      · cases h

/-- A field without other names finds what a layer holds under its name. -/
theorem memberOf_ofSettingMembers {β : Type} {f : Field β} (haliases : f.aliases = [])
    (ms : List (String × Data)) :
    memberOf f (Reading.ofSettingMembers ms) = (lookup? f.name ms).map Reading.ofSettings := by
  rw [Reading.ofSettingMembers_eq_named, memberOf_named haliases, lookup?_map]

end Record

namespace Codec

variable {α : Type} {c : Codec α}

theorem decodeMembers_sorted {stop : MapStop} {readings : List (Reading × Reading)} :
    ∀ {acc table : List (String × α)}, SortedByName acc →
      decodeMembers c stop acc readings = .ok table → SortedByName table := by
  induction readings with
  | nil =>
      intro acc table hacc h
      rw [decodeMembers] at h
      split at h <;> cases h
      exact hacc
  | cons member rest ih =>
      intro acc table hacc h
      obtain ⟨name, value⟩ := member
      rw [decodeMembers] at h
      split at h
      · cases h
      · split at h
        · cases h
        · exact ih hacc.insertMember h

/-- A collection that was read is sorted by name. -/
theorem dictionary_sorted {r : Reading} {table : List (String × α)}
    (h : c.dictionary.decode r = .ok table) : SortedByName table := by
  cases r with
  | map members stop => exact decodeMembers_sorted sortedByName_nil h
  | null | bool | num | str | seq | flawed => cases h

/-- Of what is not null a value is read, if any is. -/
theorem optional_isSome {d : Data} (hd : d ≠ .null) {o : Option α}
    (h : c.optional.decode (.ofSettings d) = .ok o) : o.isSome := by
  have hdecode : c.optional.decode (.ofSettings d) = (c.decode (.ofSettings d)).map some := by
    cases d with
    | null => exact absurd rfl hd
    | bool | num | str | seq | map => rfl
  obtain ⟨a, -, rfl⟩ := exists_of_map_ok (hdecode.symm.trans h)
  rfl

end Codec

/-! ### Loaded settings -/

namespace Settings

/-- Settings with a default profile, and with profiles sorted by name. -/
structure Whole (s : Settings) : Prop where
  sorted : SortedByName s.profiles
  hasDefault : s.defaultProfile.isSome

theorem fileLayer_stated {text : Option String} {layer : Data}
    (h : fileLayer text = .ok layer) : layer.Stated := by
  unfold fileLayer at h
  split at h
  · obtain rfl := Except.ok.inj h
    exact nofun
  · split at h
    · rename_i hread
      obtain rfl := Except.ok.inj h
      exact Toml.read_stated hread
    · cases h

theorem usual_stated : (codec.encode usual).Stated := by
  intro m hm
  have hmem : m ∈ [("default_profile", Data.str "default"),
      ("defaults", Defaults.codec.encode .usual), ("profiles", .map [])] := hm
  simp only [List.mem_cons, List.not_mem_nil, or_false] at hmem
  rcases hmem with rfl | rfl | rfl <;> exact nofun

/-- What settings that were built got each of their values from. -/
theorem each_gets {readings : List (Reading × Reading)} {s : Settings}
    (h : fields.build readings = .ok s) : fields.Each fun f get => f.Gets readings (get s) := by
  obtain ⟨_, profiles, h₃, hprofiles, rfl⟩ := Record.build_field h
  obtain ⟨_, defaults, h₂, hdefaults, rfl⟩ := Record.build_field h₃
  obtain ⟨_, base, h₁, hbase, rfl⟩ := Record.build_field h₂
  obtain ⟨_, default, h₀, hdefault, rfl⟩ := Record.build_field h₁
  obtain rfl := Except.ok.inj h₀
  exact ⟨⟨⟨⟨trivial, hdefault⟩, hbase⟩, hdefaults⟩, hprofiles⟩

theorem decode_whole {layer : Data} (hstated : layer.Stated)
    (hdefault : (lookup? "default_profile" layer.members).isSome) {s : Settings}
    (h : codec.decode (.ofSettings layer) = .ok s) : s.Whole := by
  cases layer with
  | null | bool | num | str | seq => exact hstated.elim
  | map ms =>
      have hbuild := Record.build_of_decode "Config" h
      obtain ⟨⟨⟨⟨-, hgets⟩, -⟩, -⟩, hprofiles⟩ := each_gets hbuild
      constructor
      · -- Profiles are read in any order and kept sorted, or there are none.
        rcases hprofiles with ⟨r, -, hr⟩ | ⟨-, habsent⟩
        · exact Codec.dictionary_sorted hr
        · have hnone : s.profiles = [] := (Option.some.inj habsent).symm
          rw [hnone]
          exact sortedByName_nil
      · -- A default profile is stated by the usual settings, and no layer takes it away.
        obtain ⟨d, hd⟩ := Option.isSome_iff_exists.1 hdefault
        have hfound : Record.memberOf (Field.nullable "default_profile" .text)
            (Reading.ofSettingMembers ms) = some (.ofSettings d) := by
          rw [Record.memberOf_ofSettingMembers rfl]
          exact congrArg _ hd
        rcases hgets with ⟨r, hr, hdecode⟩ | ⟨hnone, -⟩
        · obtain rfl := Option.some.inj (hfound.symm.trans hr)
          exact Codec.optional_isSome (hstated _ (mem_of_lookup? hd)) hdecode
        · exact absurd (hfound.symm.trans hnone) nofun

/-- **Loaded settings are whole.** -/
theorem load_whole {text : Option String} {env : Environment} {s : Settings}
    (h : load text env = .ok s) : s.Whole := by
  unfold load at h
  split at h
  · cases h
  · rename_i layer hlayer
    unfold ofLayers at h
    split at h
    · rename_i s' hs
      obtain rfl := Except.ok.inj h
      have hfile := fileLayer_stated hlayer
      have henv := environmentLayer_stated env
      have hstated : (Data.layers [codec.encode usual, layer, environmentLayer env]).Stated :=
        Data.layers_stated (by simp [usual_stated, hfile, henv])
      have hlow :
          (lookup? "default_profile" (Data.layers [codec.encode usual]).members).isSome := by
        rw [layers_usual]
        rfl
      exact decode_whole hstated
        (henv.lookup?_overlay_isSome (hfile.lookup?_overlay_isSome hlow)) hs
    · cases h

end Settings

end ZoneConsole
