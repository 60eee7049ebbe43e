import ZoneConsole.Command.Settings
import ZoneConsole.Proofs.Settings.Loaded

/-!
# Edits of settings

A command edits one thing: a value under a key of a profile, or the default profile.  Two settings
come out of an edit as the same just if they agree on everything else.

* **`Settings.Edit.apply`** — settings after an edit.
* **`Settings.Edit.AgreeBut`** — settings agree on all that an edit does not name.
* **`Settings.Edit.apply_ok`** — one edit of two settings, and when its outcomes are the same.
-/

namespace ZoneConsole

/-- An edit of settings: a value under a key of a profile, or another default profile. -/
inductive Settings.Edit
  | assign (profile key value : String)
  | choose (profile : String)
  deriving DecidableEq, Repr

/-! ### Profiles -/

namespace Profile

/-- Profiles agree on all fields but the one of a key. -/
@[mk_iff]
structure AgreeBut (key : String) (p q : Profile) : Prop where
  server : key ≠ "server" → p.server = q.server
  apiBase : key ≠ "api_base" → key ≠ "api-base" → p.apiBase = q.apiBase
  insecure : key ≠ "insecure" → p.insecure = q.insecure
  timeout : key ≠ "timeout" → p.timeout = q.timeout
  ordering : key ≠ "load_ordering" → key ≠ "load-ordering" → p.ordering = q.ordering

/-- A value that is accepted sets the field of its key and no other, in any profile. -/
theorem assign_ok {p p' : Profile} {key value : String} (h : p.assign key value = .ok p') :
    ∃ set : Profile → Profile, (∀ q : Profile, q.assign key value = .ok (set q)) ∧
      ∀ q r, set q = set r ↔ q.AgreeBut key r := by
  unfold assign at h ⊢
  -- One key after the other, as they are compared; the value alone decides what is set.
  by_cases hserver : key = "server"
  · subst hserver
    cases hvalid : validateOrigin value with
    | error e => simp [hvalid] at h
    | ok _ => exact ⟨fun q => { q with server := value }, by simp, by simp [agreeBut_iff]⟩
  by_cases hbase : key = "api_base" ∨ key = "api-base"
  · refine ⟨fun q => { q with apiBase := some value }, by simp [hserver, hbase], ?_⟩
    rcases hbase with rfl | rfl <;> simp [agreeBut_iff]
  by_cases hinsecure : key = "insecure"
  · subst hinsecure
    cases hflag : flagOf? value with
    | none => simp [hflag] at h
    | some b => exact ⟨fun q => { q with insecure := some b }, by simp, by simp [agreeBut_iff]⟩
  by_cases htimeout : key = "timeout"
  · subst htimeout
    cases hword : CommandLine.word64? value with
    | none => simp [hword] at h
    | some n =>
        exact ⟨fun q => { q with timeout := some (.ofNat n) }, by simp, by simp [agreeBut_iff]⟩
  by_cases hordering : key = "load_ordering" ∨ key = "load-ordering"
  · cases hname : orderingOf? value with
    | none => simp [hserver, hbase, hinsecure, htimeout, hordering, hname] at h
    | some o =>
        refine ⟨fun q => { q with ordering := some o }, ?_, ?_⟩
        · simp [hserver, hbase, hinsecure, htimeout, hordering]
        · rcases hordering with rfl | rfl <;> simp [agreeBut_iff]
  · simp [hserver, hbase, hinsecure, htimeout, hordering] at h

end Profile

/-! ### Settings -/

/-- Tables with a value under a name are the same just if the values are and the rest is. -/
theorem insertMember_inj {α : Type} {name : String} {a b : α} {s t : List (String × α)}
    (hs : SortedByName s) (ht : SortedByName t) :
    insertMember name a s = insertMember name b t ↔
      a = b ∧ ∀ other, other ≠ name → lookup? other s = lookup? other t := by
  constructor
  · intro h
    have hlookup (other : String) := congrArg (lookup? other) h
    simp only [lookup?_insertMember] at hlookup
    refine ⟨?_, fun other hother => ?_⟩
    · simpa using hlookup name
    · simpa only [if_neg hother] using hlookup other
  · rintro ⟨rfl, hrest⟩
    refine eq_of_lookup? hs.insertMember ht.insertMember fun other => ?_
    rw [lookup?_insertMember, lookup?_insertMember]
    split
    · rfl
    · exact hrest other ‹_›

namespace Settings

/-- The profile of a name as an edit finds it: a new one, if there is none. -/
def profileFor (s : Settings) (name : String) : Profile :=
  (s.profile? name).getD (.ofServer defaultOrigin)

namespace Edit

/-- Settings after an edit. -/
def apply (s : Settings) : Edit → Except Failure Settings
  | assign profile key value => s.assign profile key value
  | choose name => .ok { s with defaultProfile := some name }

/-- Settings agree on all that an edit does not name. -/
def AgreeBut (s t : Settings) : Edit → Prop
  | assign profile key _ =>
    s.defaultProfile = t.defaultProfile ∧ s.apiBase = t.apiBase ∧ s.defaults = t.defaults ∧
      (s.profileFor profile).AgreeBut key (t.profileFor profile) ∧
      ∀ other, other ≠ profile → s.profile? other = t.profile? other
  | choose _ => s.apiBase = t.apiBase ∧ s.defaults = t.defaults ∧ s.profiles = t.profiles

variable {edit : Edit} {s s' t : Settings}

/-- **One edit of two settings** is accepted of both or of none, and comes to the same
    just if they agree on all that it does not name. -/
theorem apply_ok (hs : s.Whole) (ht : t.Whole) (h : edit.apply s = .ok s') :
    ∃ t', edit.apply t = .ok t' ∧ (s' = t' ↔ edit.AgreeBut s t) := by
  cases edit with
  | choose name =>
      obtain rfl := Except.ok.inj h
      exact ⟨_, rfl, by simp [AgreeBut]⟩
  | assign profile key value =>
      have hassign (u : Settings) : apply u (assign profile key value)
          = ((u.profileFor profile).assign key value).map (u.withProfile profile) := rfl
      rw [hassign] at h
      obtain ⟨p, hp, rfl⟩ := exists_of_map_ok h
      obtain ⟨set, hset, hagree⟩ := Profile.assign_ok hp
      obtain rfl := Except.ok.inj (hp.symm.trans (hset _))
      refine ⟨t.withProfile profile (set (t.profileFor profile)), ?_, ?_⟩
      · rw [hassign, hset]
        rfl
      · simp only [Settings.withProfile, Settings.mk.injEq,
          insertMember_inj hs.sorted ht.sorted, hagree, AgreeBut, Settings.profile?]

/-- Settings stay whole. -/
theorem apply_whole (hs : s.Whole) (h : edit.apply s = .ok s') : s'.Whole := by
  cases edit with
  | choose name =>
      obtain rfl := Except.ok.inj h
      exact ⟨hs.sorted, rfl⟩
  | assign profile key value =>
      obtain ⟨p, -, rfl⟩ := exists_of_map_ok h
      exact ⟨hs.sorted.insertMember, hs.hasDefault⟩

end Edit

end Settings

end ZoneConsole
