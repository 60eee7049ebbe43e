import Mathlib.Data.List.Nodup
import ZoneConsole.Proofs.Members
import ZoneConsole.Proofs.Observable.Passive

/-!
# Views under publications that nest

While a source notifies, its callbacks may publish again, to any depth, so the outer
notification goes on with a value that is no longer the newest.  A view does not look at the
value it is called with: it projects the newest one.  What carries the proofs is an invariant
of two parts and a relation between a hub and a later one.

* **`Hub.Wired`** — each live view has its entry in the registry of the source, and no handle
  can take it out.
* **`Hub.Honest`** — all that a view has ever told its followers is the projection of a
  published snapshot, and it never went back to an earlier one.
* **`Hub.Carries`** — the later hub keeps both parts, and shows the newest value in each view that
  showed it before.
* **`carries_refresh`**, **`carries_hold`**, **`carries_withView`**, **`carries_dropView`** and so
  on — each operation that calls nobody carries.
-/

namespace ZoneConsole

variable {σ τ κ : Type}

namespace Event

/-- The value that a publication of the source brings. -/
def snapshot? : Event σ τ → Option σ
  | published _ value => some value
  | _ => none

/-- What the view of a key publishes: the version it projects and the value. -/
def projection? (key : Nat) : Event σ τ → Option (Nat × τ)
  | projected k version value => if k = key then some (version, value) else none
  | _ => none

/-- What a follower of the view of a key is given: the version it projects and the value. -/
def delivery? (key id : Nat) : Event σ τ → Option (Nat × τ)
  | delivered k i version _ value => if k = key ∧ i = id then some (version, value) else none
  | _ => none

/-- What the view of a key tells anybody: the version it projects and the value. -/
def told? (key : Nat) : Event σ τ → Option (Nat × τ)
  | projected k version value => if k = key then some (version, value) else none
  | delivered k _ version _ value => if k = key then some (version, value) else none
  | _ => none

end Event

/-- The snapshots of a source that started with a value, each at the place of its version. -/
def snapshots (a : σ) (events : List (Event σ τ)) : List σ := a :: events.filterMap Event.snapshot?

/-- What the view of a key has told so far. -/
def told (key : Nat) (events : List (Event σ τ)) : List (Nat × τ) :=
  events.filterMap (Event.told? key)

/-- What the view of a key has published so far. -/
def projections (key : Nat) (events : List (Event σ τ)) : List (Nat × τ) :=
  events.filterMap (Event.projection? key)

/-- What a follower of the view of a key has been given so far. -/
def deliveries (key id : Nat) (events : List (Event σ τ)) : List (Nat × τ) :=
  events.filterMap (Event.delivery? key id)

/-- Choosing less from a list gives a sublist. -/
theorem filterMap_sublist_filterMap {α β : Type} {f g : α → Option β}
    (h : ∀ a, f a = none ∨ f a = g a) (l : List α) : (l.filterMap f).Sublist (l.filterMap g) := by
  induction l with
  | nil => exact .slnil
  | cons a rest ih =>
      rw [List.filterMap_cons, List.filterMap_cons]
      rcases h a with hf | hf
      · rw [hf]
        cases g a with
        | none => exact ih
        | some b => exact ih.cons b
      · rw [hf]
        cases g a with
        | none => exact ih
        | some b => exact ih.cons_cons b

theorem projections_sublist (key : Nat) (events : List (Event σ τ)) :
    (projections key events).Sublist (told key events) := by
  refine filterMap_sublist_filterMap (fun e => ?_) events
  cases e with
  | projected k version value => exact .inr rfl
  | _ => exact .inl rfl

theorem deliveries_sublist (key id : Nat) (events : List (Event σ τ)) :
    (deliveries key id events).Sublist (told key events) := by
  refine filterMap_sublist_filterMap (fun e => ?_) events
  cases e with
  | delivered k i version name value =>
      by_cases hk : k = key
      · by_cases hi : i = id
        · exact .inr (by simp [Event.delivery?, Event.told?, hk, hi])
        · exact .inl (by simp [Event.delivery?, hi])
      · exact .inl (by simp [Event.delivery?, hk])
  | _ => exact .inl rfl

/-- The value told with a version is the projection of the snapshot of that version. -/
def View.Shows (v : View σ τ) (snaps : List σ) (t : Nat × τ) : Prop :=
  ∃ a, snaps[t.1]? = some a ∧ t.2 = v.project a

theorem View.Shows.grow {v : View σ τ} {snaps : List σ} {t : Nat × τ} (h : v.Shows snaps t)
    (more : List σ) : v.Shows (snaps ++ more) t := by
  obtain ⟨a, hget, hvalue⟩ := h
  have hlt : t.1 < snaps.length := (List.getElem?_eq_some_iff.1 hget).1
  exact ⟨a, by rw [List.getElem?_append_left hlt, hget], hvalue⟩

/-- A view that has only told what is so, in the order of the versions, and shows what it told
    last.  `tale` is what it has told, and `version` the newest one. -/
structure View.Honest (v : View σ τ) (snaps : List σ) (version : Nat) (tale : List (Nat × τ)) :
    Prop where
  behind : v.projected ≤ version
  shows : v.Shows snaps (v.projected, v.output.value)
  told : ∀ t ∈ tale, t.1 ≤ v.projected ∧ v.Shows snaps t
  ordered : tale.Pairwise (·.1 ≤ ·.1)

namespace View.Honest

variable {v : View σ τ} {snaps : List σ} {version : Nat} {tale : List (Nat × τ)}

/-- More snapshots and a later version do no harm. -/
theorem grow (h : v.Honest snaps version tale) (more : List σ) {later : Nat}
    (hle : version ≤ later) : v.Honest (snaps ++ more) later tale where
  behind := Nat.le_trans h.behind hle
  shows := h.shows.grow more
  told t ht := ⟨(h.told t ht).1, (h.told t ht).2.grow more⟩
  ordered := h.ordered

/-- A view stays honest when it tells something of the version it shows then, any number of
    times, if that version is no earlier than the one it showed before. -/
theorem tell (h : v.Honest snaps version tale) {w : View σ τ} (hproject : w.project = v.project)
    (hle : v.projected ≤ w.projected) (hbehind : w.projected ≤ version)
    (hshows : w.Shows snaps (w.projected, w.output.value)) (n : Nat) :
    w.Honest snaps version (tale ++ List.replicate n (w.projected, w.output.value)) := by
  have hold : ∀ t ∈ tale, t.1 ≤ w.projected ∧ w.Shows snaps t := by
    intro t ht
    obtain ⟨hlate, a, hget, hvalue⟩ := h.told t ht
    exact ⟨Nat.le_trans hlate hle, a, hget, by rw [hproject]; exact hvalue⟩
  refine ⟨hbehind, hshows, ?_, ?_⟩
  · intro t ht
    rcases List.mem_append.1 ht with ht | ht
    · exact hold t ht
    · obtain rfl := List.eq_of_mem_replicate ht
      exact ⟨Nat.le_refl _, hshows⟩
  · refine List.pairwise_append.2 ⟨h.ordered, ?_, ?_⟩
    · exact List.pairwise_replicate.2 (.inr (Nat.le_refl _))
    · intro t ht u hu
      obtain rfl := List.eq_of_mem_replicate hu
      exact (hold t ht).1

end View.Honest

namespace Hub

/-- The keys of the views and whether each is alive. -/
def tags (h : Hub σ τ κ) : List (Nat × Bool) := h.views.map fun v => (v.key, v.alive)

/-- Each view has a key of its own, each live one its entry in the registry, and what is held
    belongs to none of them. -/
structure Wired (h : Hub σ τ κ) : Prop where
  ahead : ∀ t ∈ h.tags, t.1 < h.source.nextId
  distinct : (h.tags.map (·.1)).Nodup
  registered : ∀ key, (key, true) ∈ h.tags → (key, .view key) ∈ h.source.registry
  held : ∀ entry ∈ h.handles, ∀ id, entry.2 = .source id →
    id < h.source.nextId ∧ ∀ t ∈ h.tags, t.1 ≠ id

/-- The snapshots are all there, and each view is honest about them. -/
structure Honest (a : σ) (h : Hub σ τ κ) : Prop where
  numbered : (snapshots a h.events).length = h.source.version + 1
  newest : (snapshots a h.events)[h.source.version]? = some h.source.value
  views : ∀ v ∈ h.views, v.Honest (snapshots a h.events) h.source.version (told v.key h.events)
  unborn : ∀ key, h.source.nextId ≤ key → told key h.events = []

/-- Both parts of the invariant. -/
structure Sound (a : σ) (h : Hub σ τ κ) : Prop where
  wired : h.Wired
  honest : h.Honest a

/-- The view of a key shows the newest version, if it is alive. -/
def Fresh (h : Hub σ τ κ) (key : Nat) : Prop :=
  ∀ v ∈ h.views, v.key = key → v.alive → v.projected = h.source.version

/-! ### Views by key -/

variable {h : Hub σ τ κ} {key : Nat} {v : View σ τ}

theorem mem_of_view? (hv : h.view? key = some v) : v ∈ h.views ∧ v.key = key := by
  refine ⟨List.mem_of_find?_eq_some hv, ?_⟩
  simpa using List.find?_some hv

/-- No two views have one key. -/
theorem Wired.eq_of_key (hw : h.Wired) {u w : View σ τ} (hu : u ∈ h.views) (hw' : w ∈ h.views)
    (hkey : u.key = w.key) : u = w := by
  have hkeys : (h.views.map (·.key)).Nodup := by
    simpa [tags, Function.comp_def] using hw.distinct
  exact List.inj_on_of_nodup_map hkeys hu hw' hkey

/-- A change of a view that keeps its key and its life keeps the tags. -/
theorem tags_modifyView (h : Hub σ τ κ) (key : Nat) {f : View σ τ → View σ τ}
    (hkey : ∀ v, (f v).key = v.key) (halive : ∀ v, (f v).alive = v.alive) :
    (h.modifyView key f).tags = h.tags := by
  unfold tags modifyView
  rw [List.map_map]
  refine List.map_congr_left fun v _ => ?_
  by_cases hv : v.key = key
  · simp [hv, hkey, halive]
  · simp [hv]

theorem tag_mem (hv : v ∈ h.views) : (v.key, v.alive) ∈ h.tags :=
  List.mem_map.2 ⟨v, hv, rfl⟩

/-- No view has a key that was not given yet. -/
theorem fresh_of_unborn (hw : h.Wired) (hle : h.source.nextId ≤ key) : h.Fresh key := by
  intro v hv hkey _
  exact absurd (hkey ▸ hw.ahead _ (tag_mem hv)) (Nat.not_lt.2 hle)

/-! ### Telling -/

/-- A change of a view together with what it tells. -/
def speak (h : Hub σ τ κ) (key : Nat) (f : View σ τ → View σ τ) (tail : List (Event σ τ)) :
    Hub σ τ κ :=
  { h.modifyView key f with events := h.events ++ tail }

theorem told_append (key : Nat) (events more : List (Event σ τ)) :
    told key (events ++ more) = told key events ++ told key more :=
  List.filterMap_append ..

theorem snapshots_append (a : σ) (events more : List (Event σ τ)) :
    snapshots a (events ++ more) = snapshots a events ++ more.filterMap Event.snapshot? := by
  rw [snapshots, List.filterMap_append, ← List.cons_append]
  rfl

/-- A hub stays honest when one of its views changes and tells what it shows then. -/
theorem Honest.speak {a : σ} (hh : h.Honest a) (hw : h.Wired) (hv : h.view? key = some v)
    {f : View σ τ → View σ τ} (hkey : ∀ v, (f v).key = v.key)
    (hproject : (f v).project = v.project) (hle : v.projected ≤ (f v).projected)
    (hbehind : (f v).projected ≤ h.source.version)
    (hshows : (f v).Shows (snapshots a h.events) ((f v).projected, (f v).output.value))
    {tail : List (Event σ τ)} (hquiet : tail.filterMap Event.snapshot? = []) {n : Nat}
    (htold : ∀ k, told k tail =
      if k = key then List.replicate n ((f v).projected, (f v).output.value) else []) :
    (h.speak key f tail).Honest a := by
  obtain ⟨hmem, rfl⟩ := mem_of_view? hv
  -- nothing that is added is a snapshot, so versions mean what they meant
  have hsnaps : snapshots a (h.events ++ tail) = snapshots a h.events := by
    rw [snapshots_append, hquiet, List.append_nil]
  have hother : ∀ k, k ≠ v.key → told k (h.events ++ tail) = told k h.events := by
    intro k hk
    rw [told_append, htold, if_neg hk, List.append_nil]
  refine ⟨?_, ?_, ?_, ?_⟩
  · exact hsnaps ▸ hh.numbered
  · exact hsnaps ▸ hh.newest
  · intro u hu
    obtain ⟨w, hw', rfl⟩ := List.mem_map.1 hu
    show View.Honest _ (snapshots a (h.events ++ tail)) _ (told _ (h.events ++ tail))
    rw [hsnaps]
    by_cases hwv : w.key = v.key
    · obtain rfl := hw.eq_of_key hw' hmem hwv
      rw [if_pos rfl, hkey, told_append, htold, if_pos rfl]
      exact (hh.views w hw').tell hproject hle hbehind hshows n
    · rw [if_neg hwv, hother _ hwv]
      exact hh.views w hw'
  · intro k hk
    have hne : k ≠ v.key := Nat.ne_of_gt (Nat.lt_of_lt_of_le (hw.ahead _ (tag_mem hmem)) hk)
    show told k (h.events ++ tail) = []
    rw [hother k hne, hh.unborn k hk]

/-- An event that neither publishes nor tells. -/
theorem Honest.record {a : σ} (hh : h.Honest a) {e : Event σ τ} (hsnap : e.snapshot? = none)
    (htold : ∀ k, e.told? k = none) : (h.record e).Honest a := by
  have hsnaps : snapshots a (h.events ++ [e]) = snapshots a h.events := by
    rw [snapshots_append, List.filterMap_cons_none hsnap, List.filterMap_nil, List.append_nil]
  have htale : ∀ k, told k (h.events ++ [e]) = told k h.events := by
    intro k
    rw [told_append, told, told, List.filterMap_cons_none (htold k), List.filterMap_nil,
      List.append_nil]
  refine ⟨?_, ?_, ?_, ?_⟩
  · exact hsnaps ▸ hh.numbered
  · exact hsnaps ▸ hh.newest
  · intro v hv
    show v.Honest (snapshots a (h.events ++ [e])) _ (told v.key (h.events ++ [e]))
    rw [hsnaps, htale]
    exact hh.views v hv
  · intro k hk
    exact (htale k).trans (hh.unborn k hk)

/-- A publication adds a snapshot; no view has told of it yet. -/
theorem Honest.publish {a : σ} (hh : h.Honest a) (value : σ) :
    Honest a ({ h with source := h.source.publish value }.record
      (.published (h.source.version + 1) value)) := by
  have hsnaps : snapshots a (h.events ++ [.published (h.source.version + 1) value]) =
      snapshots a h.events ++ [value] := snapshots_append ..
  have htale : ∀ k, told k (h.events ++ [.published (h.source.version + 1) value]) =
      told k h.events := by
    intro k
    rw [told_append]
    exact List.append_nil _
  refine ⟨?_, ?_, ?_, ?_⟩
  · show (snapshots a (h.events ++ _)).length = h.source.version + 1 + 1
    rw [hsnaps, List.length_append, hh.numbered]
    rfl
  · show (snapshots a (h.events ++ _))[h.source.version + 1]? = some value
    rw [hsnaps, ← hh.numbered, List.getElem?_concat_length]
  · intro v hv
    show v.Honest (snapshots a (h.events ++ _)) (h.source.version + 1) (told v.key (h.events ++ _))
    rw [hsnaps, htale]
    exact (hh.views v hv).grow [value] (Nat.le_succ _)
  · intro k hk
    exact (htale k).trans (hh.unborn k hk)

/-- Wiring looks at tags, at the source and at handles only. -/
theorem Wired.congr {h' : Hub σ τ κ} (hw : h.Wired) (htags : h'.tags = h.tags)
    (hsource : h'.source = h.source) (hhandles : h'.handles = h.handles) : h'.Wired := by
  constructor
  · rw [htags, hsource]
    exact hw.ahead
  · rw [htags]
    exact hw.distinct
  · rw [htags, hsource]
    exact hw.registered
  · rw [htags, hsource, hhandles]
    exact hw.held

/-! ### What a hub carries into a later one -/

/-- A later hub of a run: sound, and unless calls nested too deep each view shows the newest
    version if it did so before.  Views may have come and gone, but no old key is that of a new
    view, and no view has come back to life. -/
structure Carries (a : σ) (before after : Hub σ τ κ) : Prop where
  deep : after.tooDeep = false → before.tooDeep = false
  tags : ∀ t ∈ after.tags, t.1 < before.source.nextId →
    ∃ u ∈ before.tags, u.1 = t.1 ∧ (t.2 = true → u.2 = true)
  later : before.source.nextId ≤ after.source.nextId
  sound : after.Sound a
  fresh : after.tooDeep = false → ∀ key, before.Fresh key → after.Fresh key

variable {a : σ}

/-- Where all views are the same, nothing is to be said of old ones. -/
theorem old_of_tags_eq {after : Hub σ τ κ} (htags : after.tags = h.tags) {n : Nat} :
    ∀ t ∈ after.tags, t.1 < n → ∃ u ∈ h.tags, u.1 = t.1 ∧ (t.2 = true → u.2 = true) :=
  fun t ht _ => ⟨t, htags ▸ ht, rfl, id⟩

theorem Carries.refl (hs : h.Sound a) : Carries a h h :=
  ⟨id, old_of_tags_eq rfl, Nat.le_refl _, hs, fun _ _ => id⟩

theorem Carries.trans {x y z : Hub σ τ κ} (hxy : Carries a x y) (hyz : Carries a y z) :
    Carries a x z where
  deep hz := hxy.deep (hyz.deep hz)
  tags t ht hlt := by
    obtain ⟨u, hu, hkey, hlive⟩ := hyz.tags t ht (Nat.lt_of_lt_of_le hlt hxy.later)
    obtain ⟨w, hw, hkey', hlive'⟩ := hxy.tags u hu (hkey ▸ hlt)
    exact ⟨w, hw, hkey'.trans hkey, fun h => hlive' (hlive h)⟩
  later := Nat.le_trans hxy.later hyz.later
  sound := hyz.sound
  fresh hz key hx := hyz.fresh hz key (hxy.fresh (hyz.deep hz) key hx)

theorem carries_record (hs : h.Sound a) {e : Event σ τ} (hsnap : e.snapshot? = none)
    (htold : ∀ k, e.told? k = none) : Carries a h (h.record e) :=
  ⟨id, old_of_tags_eq rfl, Nat.le_refl _,
    ⟨hs.wired.congr rfl rfl rfl, hs.honest.record hsnap htold⟩, fun _ _ => id⟩

/-- A change of a view carries if the view shows what it showed before or the newest value,
    and tells just that. -/
theorem carries_speak (hs : h.Sound a) (hv : h.view? key = some v) {f : View σ τ → View σ τ}
    (hkey : ∀ v, (f v).key = v.key) (halive : ∀ v, (f v).alive = v.alive)
    (hproject : (f v).project = v.project)
    (hshows : (∀ v, (f v).projected = v.projected) ∧ (f v).output.value = v.output.value ∨
      (∀ v, (f v).projected = h.source.version) ∧ (f v).output.value = v.project h.source.value)
    {tail : List (Event σ τ)} (hquiet : tail.filterMap Event.snapshot? = []) {n : Nat}
    (htold : ∀ k, told k tail =
      if k = key then List.replicate n ((f v).projected, (f v).output.value) else []) :
    Carries a h (h.speak key f tail) := by
  have htags : (h.speak key f tail).tags = h.tags := tags_modifyView h key hkey halive
  have hhonest := hs.honest.views v (mem_of_view? hv).1
  refine ⟨id, old_of_tags_eq htags, Nat.le_refl _, ⟨hs.wired.congr htags rfl rfl, ?_⟩, ?_⟩
  · -- Either nothing new is shown, or the newest snapshot is.
    rcases hshows with ⟨hversion, hvalue⟩ | ⟨hversion, hvalue⟩
    · refine hs.honest.speak hs.wired hv hkey hproject ?_ ?_ ?_ hquiet htold
      · exact Nat.le_of_eq (hversion v).symm
      · rw [hversion]
        exact hhonest.behind
      · obtain ⟨x, hget, hx⟩ := hhonest.shows
        exact ⟨x, by rw [hversion]; exact hget, by rw [hvalue, hproject]; exact hx⟩
    · refine hs.honest.speak hs.wired hv hkey hproject ?_ ?_ ?_ hquiet htold
      · rw [hversion]
        exact hhonest.behind
      · exact Nat.le_of_eq (hversion v)
      · exact ⟨h.source.value, by rw [hversion]; exact hs.honest.newest, by rw [hvalue, hproject]⟩
  · intro _ k hf u hu huk hlive
    obtain ⟨w, hw, rfl⟩ := List.mem_map.1 hu
    by_cases hwk : w.key = key
    · rw [if_pos hwk] at huk hlive ⊢
      rcases hshows with ⟨hversion, -⟩ | ⟨hversion, -⟩
      · rw [hversion]
        exact hf w hw ((hkey w).symm.trans huk) ((halive w).symm.trans hlive)
      · exact hversion w
    · rw [if_neg hwk] at huk hlive ⊢
      exact hf w hw huk hlive

/-- A view that has published the newest value. -/
def renewed (source : Observable σ (Callback κ)) (value : τ) (v : View σ τ) : View σ τ :=
  { v with output := v.output.publish value, projected := source.version }

/-- What a view does when it is called: it projects the newest value, and tells it to all that
    follow it. -/
theorem refresh_of_alive (hv : h.view? key = some v) (halive : v.alive) :
    h.refresh key = h.speak key (renewed h.source (v.project h.source.value))
      (.projected key h.source.version (v.project h.source.value) ::
        v.output.registry.map fun (id, name) =>
          .delivered key id h.source.version name (v.project h.source.value)) := by
  unfold refresh
  rw [hv]
  simp only [halive, if_true]
  rfl

theorem refresh_of_dead (hdead : ∀ v, h.view? key = some v → v.alive = false) :
    h.refresh key = h := by
  unfold refresh
  cases hv : h.view? key with
  | none => rfl
  | some v => simp only [hdead v hv, Bool.false_eq_true, if_false]

/-- What a view tells when it is called. -/
theorem told_refresh (key version : Nat) (value : τ) (followers : List (Nat × String)) (k : Nat) :
    told (σ := σ) k (.projected key version value ::
        followers.map fun (id, name) => .delivered key id version name value) =
      if k = key then List.replicate (followers.length + 1) (version, value) else [] := by
  by_cases hk : k = key
  · subst hk
    rw [if_pos rfl, List.replicate_succ, told, List.filterMap_cons_some (b := (version, value))
      (by simp [Event.told?]), List.filterMap_map]
    congr 1
    induction followers with
    | nil => rfl
    | cons f rest ih =>
        rw [List.filterMap_cons_some (b := (version, value)) (by simp [Event.told?]), ih]
        rfl
  · rw [if_neg hk, told, List.filterMap_cons_none (by simp [Event.told?, Ne.symm hk]),
      List.filterMap_map, List.filterMap_eq_nil_iff]
    rintro ⟨id, name⟩ -
    simp [Event.told?, Ne.symm hk]

/-- A call of a view carries, and shows the newest version in it. -/
theorem carries_refresh (hs : h.Sound a) (key : Nat) :
    Carries a h (h.refresh key) ∧ (h.refresh key).Fresh key := by
  by_cases hlive : ∃ v, h.view? key = some v ∧ v.alive
  · obtain ⟨v, hv, halive⟩ := hlive
    rw [refresh_of_alive hv halive]
    constructor
    · refine carries_speak (f := renewed h.source (v.project h.source.value)) hs hv
        (fun _ => rfl) (fun _ => rfl) rfl (.inr ⟨fun _ => rfl, rfl⟩) ?_
        fun k => told_refresh _ _ _ _ k
      rw [List.filterMap_cons_none rfl, List.filterMap_map, List.filterMap_eq_nil_iff]
      intro f _
      rfl
    · intro u hu hkey _
      obtain ⟨w, hw, rfl⟩ := List.mem_map.1 hu
      by_cases hwk : w.key = key
      · rw [if_pos hwk]
        rfl
      · rw [if_neg hwk] at hkey
        exact absurd hkey hwk
  · have hdead : ∀ v, h.view? key = some v → v.alive = false := by
      intro v hv
      cases halive : v.alive with
      | false => rfl
      | true => exact absurd ⟨v, hv, halive⟩ hlive
    rw [refresh_of_dead hdead]
    refine ⟨.refl hs, ?_⟩
    intro u hu hkey halive
    -- The first view of the key is the only one.
    cases hv : h.view? key with
    | none => exact absurd hkey (by simpa using List.find?_eq_none.1 hv u hu)
    | some v =>
        obtain ⟨hmem, hvk⟩ := mem_of_view? hv
        obtain rfl := hs.wired.eq_of_key hu hmem (hkey.trans hvk.symm)
        rw [hdead u hv] at halive
        cases halive

/-! ### Handles -/

/-- Any change of the registry and the handles carries if it keeps the invariant and numbers no
    callback again. -/
theorem carries_rewired (hs : h.Sound a) {source : Observable σ (Callback κ)}
    {handles : List (String × Handle)} (hvalue : source.value = h.source.value)
    (hversion : source.version = h.source.version) (hlater : h.source.nextId ≤ source.nextId)
    (hwired : Wired { h with source, handles }) : Carries a h { h with source, handles } := by
  refine ⟨id, old_of_tags_eq rfl, hlater, ⟨hwired, ?_⟩, ?_⟩
  · have hh := hs.honest
    refine ⟨?_, ?_, ?_, fun key hkey => hh.unborn key (Nat.le_trans hlater hkey)⟩
    · exact hversion ▸ hh.numbered
    · exact hversion ▸ hvalue ▸ hh.newest
    · exact hversion ▸ hh.views
  · intro _ key hf v hv hkey halive
    exact (hf v hv hkey halive).trans hversion.symm

theorem carries_register (hs : h.Sound a) (callback : Callback κ) :
    Carries a h { h with source := h.source.register callback } := by
  refine carries_rewired hs rfl rfl (Nat.le_succ _) ⟨?_, hs.wired.distinct, ?_, ?_⟩
  · intro t ht
    exact Nat.lt_succ_of_lt (hs.wired.ahead t ht)
  · intro key hkey
    exact List.mem_append_left _ (hs.wired.registered key hkey)
  · intro entry hentry id hid
    obtain ⟨hlt, hne⟩ := hs.wired.held entry hentry id hid
    exact ⟨Nat.lt_succ_of_lt hlt, hne⟩

/-- Handles may be let go of, and new ones held that belong to no view. -/
theorem carries_handles (hs : h.Sound a) {handles : List (String × Handle)}
    (hheld : ∀ entry ∈ handles, entry ∈ h.handles ∨
      ∀ id, entry.2 = .source id → id < h.source.nextId ∧ ∀ t ∈ h.tags, t.1 ≠ id) :
    Carries a h { h with handles } := by
  refine carries_rewired hs rfl rfl (Nat.le_refl _)
    ⟨hs.wired.ahead, hs.wired.distinct, hs.wired.registered, ?_⟩
  intro entry hentry id hid
  rcases hheld entry hentry with hold | hnew
  · exact hs.wired.held entry hold id hid
  · exact hnew id hid

/-- To cancel what belongs to no view carries. -/
theorem carries_release (hs : h.Sound a) {handle : Handle}
    (hhandle : ∀ id, handle = .source id → ∀ t ∈ h.tags, t.1 ≠ id) :
    Carries a h (h.release handle) := by
  cases handle with
  | source id =>
      refine carries_rewired hs rfl rfl (Nat.le_refl _)
        ⟨hs.wired.ahead, hs.wired.distinct, ?_, hs.wired.held⟩
      intro key hkey
      refine List.mem_filter.2 ⟨hs.wired.registered key hkey, ?_⟩
      simpa using hhandle id rfl _ hkey
  | view key id =>
      let f : View σ τ → View σ τ := fun v => { v with output := v.output.cancel id }
      have hquiet : h.release (.view key id) = h.speak key f [] := by
        rw [speak, List.append_nil]
        rfl
      rw [hquiet]
      cases hv : h.view? key with
      | some v =>
          refine carries_speak (f := f) (n := 0) hs hv (fun _ => rfl) (fun _ => rfl) rfl
            (.inl ⟨fun _ => rfl, rfl⟩) rfl fun k => ?_
          exact (ite_self _).symm
      | none =>
          have hnone : ∀ v ∈ h.views, v.key ≠ key := by simpa using List.find?_eq_none.1 hv
          have hviews : (h.views.map fun v => if v.key = key then f v else v) = h.views := by
            conv_rhs => rw [← List.map_id h.views]
            exact List.map_congr_left fun v hmem => if_neg (hnone v hmem)
          rw [speak, List.append_nil, modifyView, hviews]
          exact .refl hs

/-- To hold a new handle that belongs to no view carries, whichever handle it replaces. -/
theorem carries_hold (hs : h.Sound a) (name : String) {handle : Handle}
    (hhandle : ∀ id, handle = .source id → id < h.source.nextId ∧ ∀ t ∈ h.tags, t.1 ≠ id) :
    Carries a h (h.hold name handle) := by
  have hheld : Carries a h { h with handles := (name, handle) :: without name h.handles } := by
    refine carries_handles hs fun entry hentry => ?_
    rcases List.mem_cons.1 hentry with rfl | hold
    · exact .inr hhandle
    · exact .inl (List.mem_of_mem_filter hold)
  unfold hold
  cases hold : lookup? name h.handles with
  | none => exact hheld
  | some old =>
      refine hheld.trans (carries_release hheld.sound ?_)
      intro id hid
      exact (hs.wired.held _ (mem_of_lookup? hold) id hid).2

theorem carries_detach (hs : h.Sound a) (name : String) : Carries a h (h.detach name) :=
  carries_handles hs fun _ hentry => .inl (List.mem_of_mem_filter hentry)

theorem carries_unsubscribe (hs : h.Sound a) (name : String) :
    Carries a h (h.unsubscribe name) := by
  unfold unsubscribe
  cases hold : lookup? name h.handles with
  | none => exact .refl hs
  | some old =>
      have hwithout := carries_detach hs name
      refine hwithout.trans (carries_release hwithout.sound ?_)
      intro id hid
      exact (hs.wired.held _ (mem_of_lookup? hold) id hid).2

/-! ### Views that come and go -/

/-- A hub with one view more, which has not been called yet. -/
def withView (h : Hub σ τ κ) (project : σ → τ) : Hub σ τ κ :=
  { h with views := h.views ++ [h.newView project]
           source := h.source.register (.view h.source.nextId) }

theorem tags_withView (h : Hub σ τ κ) (project : σ → τ) :
    (h.withView project).tags = h.tags ++ [(h.source.nextId, true)] :=
  List.map_append ..

theorem Wired.withView (hw : h.Wired) (project : σ → τ) : (h.withView project).Wired := by
  constructor
  · intro t ht
    rw [tags_withView] at ht
    rcases List.mem_append.1 ht with hold | hone
    · exact Nat.lt_succ_of_lt (hw.ahead t hold)
    · obtain rfl := List.mem_singleton.1 hone
      exact Nat.lt_succ_self _
  · rw [tags_withView, List.map_append, List.nodup_append]
    refine ⟨hw.distinct, List.nodup_singleton _, ?_⟩
    intro k hk k' hk'
    obtain ⟨t, ht, rfl⟩ := List.mem_map.1 hk
    obtain rfl := List.mem_singleton.1 hk'
    exact Nat.ne_of_lt (hw.ahead t ht)
  · intro k hk
    rw [tags_withView] at hk
    rcases List.mem_append.1 hk with hold | hone
    · exact List.mem_append_left _ (hw.registered k hold)
    · obtain ⟨rfl, -⟩ := Prod.mk.inj (List.mem_singleton.1 hone)
      exact List.mem_append_right _ (List.mem_singleton.2 rfl)
  · intro entry hentry id hid
    obtain ⟨hlt, hne⟩ := hw.held entry hentry id hid
    refine ⟨Nat.lt_succ_of_lt hlt, ?_⟩
    intro t ht
    rw [tags_withView] at ht
    rcases List.mem_append.1 ht with hold | hone
    · exact hne t hold
    · -- What is held is older than the key of the new view.
      obtain rfl := List.mem_singleton.1 hone
      exact Nat.ne_of_gt hlt

theorem Honest.withView (hh : h.Honest a) (project : σ → τ) : (h.withView project).Honest a := by
  refine ⟨hh.numbered, hh.newest, ?_, fun k hk => hh.unborn k (Nat.le_of_succ_le hk)⟩
  intro v hv
  rcases List.mem_append.1 hv with hold | hone
  · exact hh.views v hold
  · -- Nothing was told under a key that was not given yet.
    obtain rfl := List.mem_singleton.1 hone
    have hnothing : told h.source.nextId h.events = [] := hh.unborn _ (Nat.le_refl _)
    show View.Honest _ _ _ (told h.source.nextId h.events)
    rw [hnothing]
    exact ⟨Nat.le_refl _, ⟨h.source.value, hh.newest, rfl⟩, List.forall_mem_nil _, .nil⟩

theorem Fresh.withView {key : Nat} (hfresh : h.Fresh key) (project : σ → τ) :
    (h.withView project).Fresh key := by
  intro v hv hk halive
  rcases List.mem_append.1 hv with hold | hone
  · exact hfresh v hold hk halive
  · obtain rfl := List.mem_singleton.1 hone
    rfl

/-- A view more carries: its key is new, it has told nothing, and it shows the newest value. -/
theorem carries_withView (hs : h.Sound a) (project : σ → τ) : Carries a h (h.withView project) where
  deep := id
  tags t ht hlt := by
    rw [tags_withView] at ht
    rcases List.mem_append.1 ht with hold | hone
    · exact ⟨t, hold, rfl, id⟩
    · obtain rfl := List.mem_singleton.1 hone
      exact absurd hlt (Nat.lt_irrefl _)
  later := Nat.le_succ _
  sound := ⟨hs.wired.withView project, hs.honest.withView project⟩
  fresh _ _ hfresh := hfresh.withView project

/-- A view after one was dropped is a view of before in all but its life, and if it lives, it is
    not the one that was dropped. -/
theorem exists_of_mem_dropView {key : Nat} {v : View σ τ} (hv : v ∈ (h.dropView key).views) :
    ∃ w ∈ h.views, v.key = w.key ∧ v.projected = w.projected ∧ v.output = w.output ∧
      v.project = w.project ∧ (v.alive → v = w ∧ w.key ≠ key) := by
  obtain ⟨w, hw, rfl⟩ := List.mem_map.1 hv
  by_cases hk : w.key = key
  · rw [if_pos hk]
    exact ⟨w, hw, rfl, rfl, rfl, rfl, by simp⟩
  · rw [if_neg hk]
    exact ⟨w, hw, rfl, rfl, rfl, rfl, fun _ => ⟨rfl, hk⟩⟩

theorem keys_dropView (h : Hub σ τ κ) (key : Nat) :
    (h.dropView key).tags.map (·.1) = h.tags.map (·.1) := by
  simp only [tags, dropView, modifyView, List.map_map]
  refine List.map_congr_left fun v _ => ?_
  by_cases hk : v.key = key <;> simp [hk]

theorem Wired.dropView (hw : h.Wired) (key : Nat) : (h.dropView key).Wired := by
  have htag : ∀ t ∈ (h.dropView key).tags, ∃ u ∈ h.tags, u.1 = t.1 := by
    intro t ht
    have hkey : t.1 ∈ (h.dropView key).tags.map (·.1) := List.mem_map_of_mem ht
    rw [keys_dropView] at hkey
    exact List.mem_map.1 hkey
  constructor
  · intro t ht
    obtain ⟨u, hu, hkey⟩ := htag t ht
    exact hkey ▸ hw.ahead u hu
  · rw [keys_dropView]
    exact hw.distinct
  · intro k hk
    obtain ⟨v, hv, heq⟩ := List.mem_map.1 hk
    obtain ⟨rfl, halive⟩ := Prod.mk.inj heq
    obtain ⟨w, hmem, -, -, -, -, hlive⟩ := exists_of_mem_dropView hv
    obtain ⟨rfl, hne⟩ := hlive halive
    -- Only the entry of the dropped view leaves the registry.
    refine List.mem_filter.2 ⟨hw.registered v.key (halive ▸ tag_mem hmem), ?_⟩
    simpa using hne
  · intro entry hentry id hid
    obtain ⟨hlt, hne⟩ := hw.held entry hentry id hid
    refine ⟨hlt, ?_⟩
    intro t ht
    obtain ⟨u, hu, hkey⟩ := htag t ht
    exact hkey ▸ hne u hu

theorem Honest.dropView (hh : h.Honest a) (key : Nat) : (h.dropView key).Honest a := by
  refine ⟨hh.numbered, hh.newest, ?_, hh.unborn⟩
  intro v hv
  obtain ⟨w, hw, hkey, hprojected, houtput, hproject, -⟩ := exists_of_mem_dropView hv
  have hhonest := hh.views w hw
  refine ⟨hprojected ▸ hhonest.behind, ?_, ?_, hkey ▸ hhonest.ordered⟩
  · obtain ⟨x, hget, hx⟩ := hhonest.shows
    exact ⟨x, by rw [hprojected]; exact hget, by rw [houtput, hproject]; exact hx⟩
  · intro t ht
    obtain ⟨hle, x, hget, hx⟩ := hhonest.told t (hkey ▸ ht)
    exact ⟨hprojected ▸ hle, x, hget, by rw [hproject]; exact hx⟩

/-- A view that is dropped is alive no more, and the others have nothing to do with it. -/
theorem carries_dropView (hs : h.Sound a) (key : Nat) : Carries a h (h.dropView key) where
  deep := id
  tags t ht _ := by
    obtain ⟨v, hv, rfl⟩ := List.mem_map.1 ht
    obtain ⟨w, hw, hkey, -, -, -, hlive⟩ := exists_of_mem_dropView hv
    refine ⟨_, tag_mem hw, hkey.symm, fun halive => ?_⟩
    obtain ⟨rfl, -⟩ := hlive halive
    exact halive
  later := Nat.le_refl _
  sound := ⟨hs.wired.dropView key, hs.honest.dropView key⟩
  fresh _ k hfresh v hv hk halive := by
    obtain ⟨w, hw, -, -, -, -, hlive⟩ := exists_of_mem_dropView hv
    obtain ⟨rfl, -⟩ := hlive halive
    exact hfresh v hw hk halive

/-- Who holds which view is of no importance. -/
theorem carries_named (hs : h.Sound a) (named : List (String × Nat)) :
    Carries a h { h with named } :=
  ⟨id, old_of_tags_eq rfl, Nat.le_refl _, ⟨hs.wired.congr rfl rfl rfl,
    ⟨hs.honest.numbered, hs.honest.newest, hs.honest.views, hs.honest.unborn⟩⟩, fun _ _ => id⟩

theorem carries_keepView (hs : h.Sound a) (name : String) (key : Nat) :
    Carries a h (h.keepView name key) := by
  have hnamed := carries_named hs (put name key h.named)
  unfold keepView
  cases lookup? name h.named with
  | none => exact hnamed
  | some old => exact hnamed.trans (carries_dropView hnamed.sound old)

theorem carries_dismissView (hs : h.Sound a) (name : String) :
    Carries a h (h.dismissView name) := by
  unfold dismissView
  cases lookup? name h.named with
  | none => exact .refl hs
  | some key =>
      have hnamed := carries_named hs (without name h.named)
      exact hnamed.trans (carries_dropView hnamed.sound key)

/-- A follower of a view is given what the view shows. -/
theorem carries_subscribeView (hs : h.Sound a) (key : Nat) (name : String) :
    Carries a h (h.subscribeView key name) := by
  unfold subscribeView
  cases hv : h.view? key with
  | none => exact .refl hs
  | some v =>
      let f : View σ τ → View σ τ := fun v => { v with output := v.output.register name }
      have hspeak : Carries a h (h.speak key f
          [.delivered key v.output.nextId v.projected name v.output.value]) := by
        refine carries_speak (f := f) (n := 1) hs hv (fun _ => rfl) (fun _ => rfl) rfl
          (.inl ⟨fun _ => rfl, rfl⟩) rfl fun k => ?_
        by_cases hk : k = key
        · simp [told, Event.told?, hk, f, Observable.register]
        · simp [told, Event.told?, hk, Ne.symm hk]
      have hother : ∀ id, Handle.view key v.output.nextId ≠ .source id := by simp
      exact hspeak.trans (carries_hold hspeak.sound name fun id hid => absurd hid (hother id))

theorem carries_followView (hs : h.Sound a) (name as : String) :
    Carries a h (h.followView name as) := by
  unfold followView
  cases lookup? name h.named with
  | none => exact .refl hs
  | some key => exact carries_subscribeView hs key as

end Hub

end ZoneConsole
