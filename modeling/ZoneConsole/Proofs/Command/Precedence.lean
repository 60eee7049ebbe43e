import ZoneConsole.Command.Settings
import ZoneConsole.Proofs.Except

/-!
# Which value wins

A setting can be given by an option, by the profile in use, for all profiles, or not at all.  The
highest of these levels is to win.  It does, except that the server of the profile has to be valid
even if an option gives another one.

* **`Settings.effective`** — the configuration in which each value is the highest one given.
* **`Settings.SameUnder`** — two settings that differ only in values that others override.
* **`Settings.resolve_eq_ok_iff`** — what the settings and the options are resolved to.
* **`Settings.exitCode_of_resolve_error`** — what is not resolved is a mistake of use.
* **`Settings.outcome`** — what the highest values alone give, be it a configuration or an error.
* **`Settings.precedence_exact_iff`** — when the levels, and they alone, decide, and when they
  decide the text of an error too.
* **`Settings.overridden_server_decides`** — a server that nobody asks for refuses a command.
-/

namespace ZoneConsole

/-! ### Servers -/

/-- A text that is an absolute URL of a scheme of the web. -/
def WebUrl (server : String) : Prop :=
  ∃ url, Url.parse server = .ok url ∧ (url.scheme = "http" ∨ url.scheme = "https")

theorem validateOrigin_eq_ok_iff {server : String} :
    validateOrigin server = .ok () ↔ WebUrl server := by
  unfold validateOrigin WebUrl
  cases hparse : Url.parse server with
  | error e => exact iff_of_false nofun (by rintro ⟨url, hurl, -⟩; cases hurl)
  | ok url =>
      simp only [Except.ok.injEq, exists_eq_left']
      split
      · exact iff_of_true rfl ‹_›
      · exact iff_of_false nofun ‹_›

instance (server : String) : Decidable (WebUrl server) :=
  decidable_of_iff ((validateOrigin server).toOption = some ())
    ⟨fun h => validateOrigin_eq_ok_iff.1 (eq_ok_of_toOption h),
      fun h => by rw [validateOrigin_eq_ok_iff.2 h]; rfl⟩

/-- What is not valid is refused as the value of the server. -/
theorem exists_of_not_webUrl {server : String} (h : ¬ WebUrl server) :
    ∃ reason, validateOrigin server = .error (.invalid "server" reason) := by
  rw [← validateOrigin_eq_ok_iff] at h
  unfold validateOrigin at h ⊢
  cases hparse : Url.parse server with
  | error e => exact ⟨_, rfl⟩
  | ok url =>
      simp only [hparse] at h ⊢
      split
      · rename_i hscheme
        exact absurd (if_pos hscheme) h
      · exact ⟨_, rfl⟩

theorem webUrl_defaultOrigin : WebUrl defaultOrigin := by decide +kernel

/-! ### Levels -/

section Levels

variable {α : Type} {upper v v' : Option α} {d d' : α}

/-- A value does not matter below another one. -/
theorem or_congr_right (hv : upper = none → v = v') : upper.or v = upper.or v' := by
  cases upper with
  | none => rw [hv rfl]
  | some _ => rfl

/-- Nor does what is taken if there is no value at all. -/
theorem getD_or_congr (hv : upper = none → v = v') (hd : upper = none → v = none → d = d') :
    (upper.or v).getD d = (upper.or v').getD d' := by
  rw [← or_congr_right hv]
  cases upper with
  | some _ => rfl
  | none =>
      cases v with
      | none => exact hd rfl rfl
      | some _ => rfl

end Levels

/-- The base that an option gives: a blank one gives none. -/
def GlobalOptions.base? (o : GlobalOptions) : Option String := o.apiBase.filter (!isBlankText ·)

namespace Settings

variable {s s' : Settings} {o : GlobalOptions} {c : ConsoleConfig}

/-- The options ask for a profile that does not exist. -/
def Lacks (s : Settings) (o : GlobalOptions) : Prop :=
  ∃ name, o.profile = some name ∧ s.profile? name = none

/-- The profile in use, if there is one. -/
def selected (s : Settings) (o : GlobalOptions) : Option Profile :=
  (o.profile.or s.defaultProfile).bind s.profile?

/-- The server that is meant unless an option gives one. -/
def ownServer (s : Settings) (o : GlobalOptions) : String :=
  ((s.selected o).map (·.server)).getD defaultOrigin

/-- The configuration in which each value is that of the highest level that gives one: the options
    come before the profile, the profile before what holds for all, and last comes what is
    usual. -/
def effective (s : Settings) (o : GlobalOptions) : ConsoleConfig where
  origin := (o.server.or ((s.selected o).map (·.server))).getD defaultOrigin
  apiBase := (o.base?.or ((s.apiBase.or ((s.selected o).bind (·.apiBase))).filter
    (!isBlankText ·))).getD defaultApiBase
  timeout := (o.timeout.or ((s.selected o).bind (·.timeout))).getD s.defaults.timeout
  insecure := o.insecure || ((s.selected o).bind (·.insecure)).getD s.defaults.insecure
  ordering := ((s.selected o).bind (·.ordering)).getD s.defaults.ordering

/-- Two settings differ under the options only in values that a higher level overrides: what an
    option gives, may differ in the profile, and what the profile gives, may differ in the
    defaults. -/
structure SameUnder (o : GlobalOptions) (s s' : Settings) : Prop where
  lacks : s.Lacks o ↔ s'.Lacks o
  server : o.server = none → (s.selected o).map (·.server) = (s'.selected o).map (·.server)
  base : o.base? = none → s.apiBase = s'.apiBase
  profileBase : o.base? = none → s.apiBase = none →
    (s.selected o).bind (·.apiBase) = (s'.selected o).bind (·.apiBase)
  timeout : o.timeout = none →
    (s.selected o).bind (·.timeout) = (s'.selected o).bind (·.timeout)
  defaultTimeout : o.timeout = none → (s.selected o).bind (·.timeout) = none →
    s.defaults.timeout = s'.defaults.timeout
  insecure : o.insecure = false →
    (s.selected o).bind (·.insecure) = (s'.selected o).bind (·.insecure)
  defaultInsecure : o.insecure = false → (s.selected o).bind (·.insecure) = none →
    s.defaults.insecure = s'.defaults.insecure
  ordering : (s.selected o).bind (·.ordering) = (s'.selected o).bind (·.ordering)
  defaultOrdering : (s.selected o).bind (·.ordering) = none →
    s.defaults.ordering = s'.defaults.ordering

/-- Values that are overridden have no part in the configuration. -/
theorem SameUnder.effective_eq (h : SameUnder o s s') : s.effective o = s'.effective o := by
  unfold effective
  rw [ConsoleConfig.mk.injEq]
  refine ⟨getD_or_congr h.server fun _ _ => rfl, getD_or_congr ?_ fun _ _ => rfl,
    getD_or_congr h.timeout h.defaultTimeout, ?_, ?_⟩
  · intro hgiven
    rw [h.base hgiven]
    exact congrArg _ (or_congr_right fun hall => h.profileBase hgiven ((h.base hgiven).trans hall))
  · cases hgiven : o.insecure with
    | true => rfl
    | false =>
        exact congrArg _ (getD_or_congr (fun _ : (none : Option Bool) = none => h.insecure hgiven)
          fun _ => h.defaultInsecure hgiven)
  · exact getD_or_congr (fun _ : (none : Option LoadOrdering) = none => h.ordering)
      fun _ => h.defaultOrdering

/-! ### What is resolved -/

/-- A profile that does not exist is asked for by its name. -/
theorem resolve_of_lacks (h : s.Lacks o) : ∃ name, o.profile = some name ∧
    s.resolve o = .error (.unknownProfile name s.knownProfiles) := by
  obtain ⟨name, hname, hnone⟩ := h
  refine ⟨name, hname, ?_⟩
  rw [resolve, hname, choose, hnone]

/-- The profile that is chosen is the one in use. -/
theorem exists_choose (h : ¬ s.Lacks o) :
    ∃ chosen, s.choose o.profile = .ok chosen ∧ chosen.map (·.2) = s.selected o := by
  unfold choose selected
  cases hname : o.profile with
  | some name =>
      cases hprofile : s.profile? name with
      | none => exact absurd ⟨name, hname, hprofile⟩ h
      | some p =>
          refine ⟨some (name, p), by simp only [hprofile], ?_⟩
          exact hprofile.symm
  | none =>
      refine ⟨_, rfl, ?_⟩
      cases s.defaultProfile with
      | none => rfl
      | some name => cases hprofile : s.profile? name <;> simp [hprofile]

/-- The server in effect, in the two steps in which it is found. -/
theorem origin_effective (s : Settings) (o : GlobalOptions) :
    (s.effective o).origin = o.server.getD (s.ownServer o) :=
  Option.getD_or

/-- **What is resolved when no profile is lacked and the server of the profile is valid**: the
    configuration in effect, unless the server of the options is invalid. -/
theorem resolve_of_webUrl (hlacks : ¬ s.Lacks o) (hown : WebUrl (s.ownServer o)) :
    s.resolve o = match (o.server.map validateOrigin).getD (.ok ()) with
      | .error e => .error (.ofSettings e)
      | .ok () => .ok (s.effective o) := by
  obtain ⟨chosen, hchosen, hselected⟩ := exists_choose hlacks
  have hvalid : validateOrigin (((s.selected o).map (·.server)).getD defaultOrigin) = .ok () :=
    validateOrigin_eq_ok_iff.2 hown
  simp only [resolve, hchosen, hselected, consoleConfig, hvalid, Except.map, effective,
    Option.getD_or]
  rfl

/-- An invalid server of the profile is the error, whatever the options say. -/
theorem resolve_of_not_webUrl (hlacks : ¬ s.Lacks o) (hown : ¬ WebUrl (s.ownServer o)) :
    ∃ reason, validateOrigin (s.ownServer o) = .error (.invalid "server" reason) ∧
      s.resolve o = .error (.invalid "server" reason) := by
  obtain ⟨chosen, hchosen, hselected⟩ := exists_choose hlacks
  obtain ⟨reason, herror⟩ := exists_of_not_webUrl hown
  refine ⟨reason, herror, ?_⟩
  have herror' : validateOrigin (((s.selected o).map (·.server)).getD defaultOrigin) = _ := herror
  simp only [resolve, hchosen, hselected, consoleConfig, herror', Except.map]
  rfl

/-- **Settings and options are resolved** exactly if they lack no profile, and both the server
    that is meant without the options and the one in effect are valid, and to the configuration
    in effect. -/
theorem resolve_eq_ok_iff : s.resolve o = .ok c ↔
    ¬ s.Lacks o ∧ WebUrl (s.ownServer o) ∧ WebUrl (s.effective o).origin ∧ s.effective o = c := by
  by_cases hlacks : s.Lacks o
  · obtain ⟨name, -, herror⟩ := resolve_of_lacks hlacks
    rw [herror]
    exact iff_of_false nofun fun h => h.1 hlacks
  by_cases hown : WebUrl (s.ownServer o)
  · rw [resolve_of_webUrl hlacks hown, origin_effective]
    cases hserver : o.server with
    | none => simp [hlacks, hown]
    | some server =>
        by_cases hgiven : WebUrl server
        · simp [validateOrigin_eq_ok_iff.2 hgiven, hlacks, hown, hgiven]
        · obtain ⟨reason, herror⟩ := exists_of_not_webUrl hgiven
          simp [herror, hgiven]
  · obtain ⟨reason, -, herror⟩ := resolve_of_not_webUrl hlacks hown
    rw [herror]
    exact iff_of_false nofun fun h => hown h.2.1

/-- Whatever is refused is refused as a mistake of use. -/
theorem exitCode_of_resolve_error {e : Failure} (h : s.resolve o = .error e) : e.exitCode = 2 := by
  by_cases hlacks : s.Lacks o
  · obtain ⟨name, -, herror⟩ := resolve_of_lacks hlacks
    cases h.symm.trans herror
    rfl
  by_cases hown : WebUrl (s.ownServer o)
  · rw [resolve_of_webUrl hlacks hown] at h
    cases hserver : o.server with
    | none =>
        rw [hserver] at h
        cases h
    | some server =>
        by_cases hgiven : WebUrl server
        · simp [hserver, validateOrigin_eq_ok_iff.2 hgiven] at h
        · obtain ⟨reason, herror⟩ := exists_of_not_webUrl hgiven
          simp only [hserver, Option.map_some, Option.getD_some, herror] at h
          cases h
          rfl
  · obtain ⟨reason, -, herror⟩ := resolve_of_not_webUrl hlacks hown
    cases h.symm.trans herror
    rfl

/-- The levels decide, and nothing else: settings and options are resolved exactly if no profile is
    lacked and the server in effect is valid, and to the configuration in effect. -/
def Exact (s : Settings) (o : GlobalOptions) : Prop :=
  ∀ c, s.resolve o = .ok c ↔ ¬ s.Lacks o ∧ WebUrl (s.effective o).origin ∧ s.effective o = c

/-- A valid server of the options overrides an invalid one of the profile. -/
def Shadowed (s : Settings) (o : GlobalOptions) : Prop :=
  WebUrl (s.effective o).origin ∧ ¬ WebUrl (s.ownServer o)

instance (s : Settings) (o : GlobalOptions) : Decidable (s.Shadowed o) :=
  inferInstanceAs (Decidable (_ ∧ ¬ _))

/-- Without the profile asked for, the server on this machine is meant. -/
theorem webUrl_ownServer_of_lacks (h : s.Lacks o) : WebUrl (s.ownServer o) := by
  obtain ⟨name, hname, hnone⟩ := h
  have hselected : s.selected o = none := by
    rw [selected, hname, Option.some_or]
    exact hnone
  rw [ownServer, hselected]
  exact webUrl_defaultOrigin

theorem exact_iff : s.Exact o ↔ ¬ s.Shadowed o := by
  constructor
  · rintro h ⟨hserver, hown⟩
    by_cases hlacks : s.Lacks o
    · exact hown (webUrl_ownServer_of_lacks hlacks)
    · exact hown (resolve_eq_ok_iff.1 ((h _).2 ⟨hlacks, hserver, rfl⟩)).2.1
  · intro hshadowed c
    have hown (hserver : WebUrl (s.effective o).origin) : WebUrl (s.ownServer o) :=
      Decidable.byContradiction fun hown => hshadowed ⟨hserver, hown⟩
    rw [resolve_eq_ok_iff]
    exact ⟨fun ⟨hlacks, _, hserver, hc⟩ => ⟨hlacks, hserver, hc⟩,
      fun ⟨hlacks, hserver, hc⟩ => ⟨hlacks, hown hserver, hserver, hc⟩⟩

/-! ### Errors -/

/-- What the values of the highest levels give: that the profile asked for is not known, or that
    the server in effect is not valid, or the configuration in effect. -/
def outcome (s : Settings) (o : GlobalOptions) : Except Failure ConsoleConfig :=
  match o.profile.filter fun name => (s.profile? name).isNone with
  | some name => .error (.unknownProfile name s.knownProfiles)
  | none =>
    match validateOrigin (s.effective o).origin with
    | .error e => .error (.ofSettings e)
    | .ok () => .ok (s.effective o)

/-- The server of the profile is invalid, and the one in effect is valid or invalid for another
    reason. -/
def Preempted (s : Settings) (o : GlobalOptions) : Prop :=
  ¬ WebUrl (s.ownServer o) ∧ validateOrigin (s.ownServer o) ≠ validateOrigin (s.effective o).origin

theorem outcome_of_lacks {name : String} (hname : o.profile = some name)
    (hnone : s.profile? name = none) :
    s.outcome o = .error (.unknownProfile name s.knownProfiles) := by
  have hasked : o.profile.filter (fun name => (s.profile? name).isNone) = some name := by
    rw [hname, Option.filter_some, hnone, Option.isNone_none, if_pos rfl]
  simp only [outcome, hasked]

theorem outcome_of_not_lacks (h : ¬ s.Lacks o) :
    s.outcome o = match validateOrigin (s.effective o).origin with
      | .error e => .error (.ofSettings e)
      | .ok () => .ok (s.effective o) := by
  have hasked : o.profile.filter (fun name => (s.profile? name).isNone) = none :=
    Option.filter_eq_none_iff.2 fun name hname hnone =>
      h ⟨name, hname, Option.isNone_iff_eq_none.1 hnone⟩
  simp only [outcome, hasked]

/-- Values that are overridden have no part in what the highest levels give. -/
theorem SameUnder.outcome_eq (h : SameUnder o s s')
    (hknown : s.Lacks o → s.knownProfiles = s'.knownProfiles) : s.outcome o = s'.outcome o := by
  by_cases hlacks : s.Lacks o
  · obtain ⟨name, hname, hnone⟩ := hlacks
    obtain ⟨name', hname', hnone'⟩ := h.lacks.1 ⟨name, hname, hnone⟩
    obtain rfl := Option.some.inj (hname.symm.trans hname')
    rw [outcome_of_lacks hname hnone, outcome_of_lacks hname hnone',
      hknown ⟨name, hname, hnone⟩]
  · rw [outcome_of_not_lacks hlacks, outcome_of_not_lacks (mt h.lacks.2 hlacks), h.effective_eq]

/-- **The highest levels decide the error as well**, unless the server of the profile comes before
    them. -/
theorem resolve_eq_outcome_iff : s.resolve o = s.outcome o ↔ ¬ s.Preempted o := by
  by_cases hlacks : s.Lacks o
  · have hown := webUrl_ownServer_of_lacks hlacks
    obtain ⟨name, hname, hnone⟩ := hlacks
    obtain ⟨name', hname', herror⟩ := resolve_of_lacks ⟨name, hname, hnone⟩
    obtain rfl := Option.some.inj (hname.symm.trans hname')
    rw [herror, outcome_of_lacks hname hnone]
    exact iff_of_true rfl fun h => h.1 hown
  rw [outcome_of_not_lacks hlacks]
  by_cases hown : WebUrl (s.ownServer o)
  · -- the server of the profile is valid, so only that of the options can be at fault
    rw [resolve_of_webUrl hlacks hown]
    have hsame : (o.server.map validateOrigin).getD (.ok ()) =
        validateOrigin (s.effective o).origin := by
      rw [origin_effective]
      cases o.server with
      | none => exact (validateOrigin_eq_ok_iff.2 hown).symm
      | some server => rfl
    rw [hsame]
    exact iff_of_true rfl fun h => h.1 hown
  · -- its error is the result, which is right only if the server in effect has the same one
    obtain ⟨reason, hinvalid, herror⟩ := resolve_of_not_webUrl hlacks hown
    rw [herror, Preempted, hinvalid, not_and, Classical.not_not]
    by_cases hserver : WebUrl (s.effective o).origin
    · rw [validateOrigin_eq_ok_iff.2 hserver]
      exact iff_of_false nofun fun h => nomatch h hown
    · obtain ⟨reason', hinvalid'⟩ := exists_of_not_webUrl hserver
      rw [hinvalid']
      constructor
      · intro h _
        cases h
        rfl
      · intro h
        cases h hown
        rfl

/-- **When the levels decide, and nothing else.**  Exactly if no valid server of the options
    overrides an invalid one of the profile; the configuration is the one in effect in any case.
    The whole result, with the text of an error, is that of the highest levels exactly if the
    profile's own server is valid, or invalid just as the one in effect is.  Under these
    conditions two settings that differ only in what is overridden are resolved to the same
    configuration or both to none, and to the same result. -/
theorem precedence_exact_iff (s : Settings) (o : GlobalOptions) :
    (s.Exact o ↔ ¬ s.Shadowed o) ∧
    (s.resolve o = s.outcome o ↔ ¬ s.Preempted o) ∧
    (∀ c, s.resolve o = .ok c → s.effective o = c) ∧
    (∀ s', SameUnder o s s' → ¬ s.Shadowed o → ¬ s'.Shadowed o →
      ∀ c, s.resolve o = .ok c ↔ s'.resolve o = .ok c) ∧
    ∀ s', SameUnder o s s' → (s.Lacks o → s.knownProfiles = s'.knownProfiles) →
      ¬ s.Preempted o → ¬ s'.Preempted o → s.resolve o = s'.resolve o := by
  refine ⟨exact_iff, resolve_eq_outcome_iff, fun c hc => (resolve_eq_ok_iff.1 hc).2.2.2, ?_, ?_⟩
  · intro s' hsame hs hs' c
    rw [exact_iff.2 hs c, exact_iff.2 hs' c, hsame.lacks, hsame.effective_eq]
  · intro s' hsame hknown hs hs'
    rw [resolve_eq_outcome_iff.2 hs, resolve_eq_outcome_iff.2 hs', hsame.outcome_eq hknown]

/-- Settings with one profile, which is the default one. -/
def ofProfile (profile : Profile) : Settings := { usual with profiles := [("default", profile)] }

/-- Options that give a server, a time and no more checks of certificates. -/
def urgentOptions : GlobalOptions :=
  { profile := none, server := some "http://10.1.1.1:8080", apiBase := none, output := .table,
    color := .auto, quiet := false, yes := false, insecure := true, timeout := some 3 }

/-- What the options give wins, and the base is that of the profile. -/
theorem precedence_urgentOptions :
    let s := ofProfile { Profile.ofServer "https://lab.lan" with
      apiBase := some "/api/v2", timeout := some 10 }
    ¬ s.Shadowed urgentOptions ∧ s.resolve urgentOptions =
      .ok ⟨"http://10.1.1.1:8080", "/api/v2", 3, true, .lastCompletion⟩ := by
  intro s
  have hshadowed : ¬ s.Shadowed urgentOptions := by decide +kernel
  have hexact := (precedence_exact_iff s urgentOptions).1.2 hshadowed
  have hlacks : ¬ s.Lacks urgentOptions := nofun
  exact ⟨hshadowed, (hexact _).2 ⟨hlacks, by decide +kernel, by decide +kernel⟩⟩

/-- **A server that is overridden decides**: with an address of another scheme in the profile
    nothing is resolved, although the options give a server and all else is the same. -/
theorem overridden_server_decides :
    let s := ofProfile (.ofServer "ftp://x")
    let s' := ofProfile (.ofServer "http://x")
    SameUnder urgentOptions s s' ∧ ¬ s.Lacks urgentOptions ∧
    WebUrl (s.effective urgentOptions).origin ∧
    s.resolve urgentOptions =
      .error (.invalid "server" "unsupported scheme 'ftp' (expected http or https)") ∧
    s'.resolve urgentOptions =
      .ok ⟨"http://10.1.1.1:8080", "/api/v1", 3, true, .lastCompletion⟩ := by
  intro s s'
  have hlacks (profile : Profile) : ¬ (ofProfile profile).Lacks urgentOptions := by
    rintro ⟨name, hname, -⟩
    cases hname
  refine ⟨?_, hlacks _, by decide +kernel, eq_error_of_errorOf? (by decide +kernel),
    eq_ok_of_toOption (by decide +kernel)⟩
  exact
    { lacks := iff_of_false (hlacks _) (hlacks _)
      server := fun h => by cases h
      base := fun _ => rfl
      profileBase := fun _ _ => rfl
      timeout := fun h => by cases h
      defaultTimeout := fun h => by cases h
      insecure := fun h => by cases h
      defaultInsecure := fun h => by cases h
      ordering := rfl
      defaultOrdering := fun _ => rfl }

end Settings

end ZoneConsole
