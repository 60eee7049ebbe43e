import ZoneConsole.Proofs.Observable.Deeds
import ZoneConsole.Proofs.Observable.ViewRuns

/-!
# Channels over time

A channel is a source or a view, looked at from outside: its newest value, how often it was
published, and whether more may come.  Whatever is done to a hub, a channel that is there stays
there; each of its publications stands in the record and counts its version up by one; and once
it is closed, nothing is published on it any more.

* **`publications`** — what was published on a target, in order.
* **`Channel.After`** — a channel after some publications.
* **`Hub.Continues`** — each part of a hub's work continues a channel (`continues_refresh`,
  `works_published`), so calls do, however deep they nest (`works_call`).
* **`Session.continues_run`** — a run continues every channel.
-/

namespace ZoneConsole

variable {σ τ κ : Type}

/-- The value that an event publishes on a target. -/
def Target.publication? : Target → Event σ τ → Option (σ ⊕ τ)
  | .source, e => e.snapshot?.map .inl
  | .view key, e => (e.projection? key).map fun t => .inr t.2

/-- What was published on a target, in order. -/
def publications (target : Target) (events : List (Event σ τ)) : List (σ ⊕ τ) :=
  events.filterMap target.publication?

theorem publications_append (target : Target) (events more : List (Event σ τ)) :
    publications target (events ++ more) =
      publications target events ++ publications target more :=
  List.filterMap_append ..

/-- A channel after some values were published on it. -/
structure Channel.After {α : Type} (c : Channel α) (news : List α) (c' : Channel α) : Prop where
  version : c'.version = c.version + news.length
  value : c'.value = news.getLast?.getD c.value
  isOpen : c'.isOpen = true → c.isOpen = true
  closed : c.isOpen = false → news = []

namespace Channel.After

variable {α : Type} {c c' c'' : Channel α} {news more : List α}

theorem refl (c : Channel α) : c.After [] c := ⟨rfl, rfl, id, fun _ => rfl⟩

/-- A closed channel stays closed. -/
theorem stays_closed (h : c.After news c') (hc : c.isOpen = false) : c'.isOpen = false := by
  cases hc' : c'.isOpen with
  | false => rfl
  | true => exact absurd (h.isOpen hc') (by simp [hc])

theorem trans (h : c.After news c') (h' : c'.After more c'') : c.After (news ++ more) c'' where
  version := by rw [h'.version, h.version, List.length_append, Nat.add_assoc]
  value := by
    rw [h'.value, h.value, List.getLast?_append]
    cases more.getLast? <;> rfl
  isOpen h'' := h.isOpen (h'.isOpen h'')
  closed hc := by
    rw [h.closed hc, h'.closed (h.stays_closed hc)]
    rfl

end Channel.After

namespace Hub

/-- The channel that a target is. -/
def channel? (h : Hub σ τ κ) : Target → Option (Channel (σ ⊕ τ))
  | .source => some ⟨.inl h.source.value, h.source.version, h.alive⟩
  | .view key => (h.view? key).map fun v => ⟨.inr v.output.value, v.output.version, v.alive⟩

/-- The later hub has the channel of a target if the earlier one has it, and its record says what
    was published on it in between. -/
def Continues (target : Target) (h h' : Hub σ τ κ) : Prop :=
  ∀ c, h.channel? target = some c → ∃ c' news, h'.channel? target = some c' ∧
    publications target h'.events = publications target h.events ++ news ∧ c.After news c'

variable {target : Target} {h h' h'' : Hub σ τ κ}

theorem Continues.trans (hh : Continues target h h') (hh' : Continues target h' h'') :
    Continues target h h'' := by
  intro c hc
  obtain ⟨c', news, hc', hnews, hafter⟩ := hh c hc
  obtain ⟨c'', more, hc'', hmore, hafter'⟩ := hh' c' hc'
  refine ⟨c'', news ++ more, hc'', ?_, hafter.trans hafter'⟩
  rw [hmore, hnews, List.append_assoc]

theorem Continues.isSome (hh : Continues target h h') (hsome : (h.channel? target).isSome) :
    (h'.channel? target).isSome := by
  obtain ⟨c, hc⟩ := Option.isSome_iff_exists.1 hsome
  obtain ⟨c', -, hc', -⟩ := hh c hc
  exact Option.isSome_of_eq_some hc'

/-- A hub with the same channel continues it if nothing was published on it. -/
theorem continues_of_eq (hchannel : h'.channel? target = h.channel? target)
    {more : List (Event σ τ)} (hevents : h'.events = h.events ++ more)
    (hquiet : ∀ e ∈ more, target.publication? e = none) : Continues target h h' := by
  intro c hc
  refine ⟨c, [], hchannel.trans hc, ?_, .refl c⟩
  rw [hevents, publications_append]
  exact congrArg _ (List.filterMap_eq_nil_iff.2 hquiet)

/-- Only publications matter to a channel. -/
theorem continues_record (h : Hub σ τ κ) {e : Event σ τ} (hquiet : target.publication? e = none) :
    Continues target h (h.record e) :=
  continues_of_eq (by cases target <;> rfl) rfl fun e' he' => by
    rw [List.mem_singleton.1 he', hquiet]

theorem Continues.refl (h : Hub σ τ κ) : Continues target h h :=
  continues_of_eq rfl (List.append_nil _).symm (List.forall_mem_nil _)

/-! ### Views by key -/

theorem view?_modifyView (h : Hub σ τ κ) (key : Nat) {f : View σ τ → View σ τ}
    (hkey : ∀ v, (f v).key = v.key) (k : Nat) :
    (h.modifyView key f).view? k = (h.view? k).map fun v => if v.key = key then f v else v := by
  have hkeys : ∀ v, (if v.key = key then f v else v).key = v.key := by
    intro v
    split
    · exact hkey v
    · rfl
  simp only [view?, modifyView, List.find?_map, Function.comp_def, hkeys]

/-- A change of a view that leaves its value, its version and its life. -/
theorem continues_modifyView (h : Hub σ τ κ) (key : Nat) {f : View σ τ → View σ τ}
    (hkey : ∀ v, (f v).key = v.key) (hvalue : ∀ v, (f v).output.value = v.output.value)
    (hversion : ∀ v, (f v).output.version = v.output.version)
    (halive : ∀ v, (f v).alive = v.alive) : Continues target h (h.modifyView key f) := by
  refine continues_of_eq ?_ (List.append_nil _).symm (List.forall_mem_nil _)
  cases target with
  | source => rfl
  | view k =>
      show Option.map _ ((h.modifyView key f).view? k) = _
      rw [view?_modifyView h key hkey, Option.map_map]
      refine Option.map_congr fun v _ => ?_
      by_cases hv : v.key = key
      · simp [hv, hvalue, hversion, halive]
      · simp [hv]

/-- What a refreshed view says of itself is one publication, of the view only. -/
theorem publications_refresh (target : Target) (key version : Nat) (value : τ)
    (followers : List (Nat × String)) :
    publications (σ := σ) target (.projected key version value ::
        followers.map fun (id, name) => .delivered key id version name value) =
      if target = .view key then [.inr value] else [] := by
  have hquiet : (followers.map fun (id, name) =>
      (.delivered key id version name value : Event σ τ)).filterMap target.publication? = [] := by
    rw [List.filterMap_map, List.filterMap_eq_nil_iff]
    intro follower _
    cases target <;> rfl
  rw [publications, List.filterMap_cons, hquiet]
  cases target with
  | source => rfl
  | view k =>
      by_cases hk : key = k
      · simp [Target.publication?, Event.projection?, hk]
      · simp [Target.publication?, Event.projection?, hk, Ne.symm hk]

/-- A live view that is called publishes once. -/
theorem continues_refresh (h : Hub σ τ κ) (key : Nat) : Continues target h (h.refresh key) := by
  by_cases hlive : ∃ v, h.view? key = some v ∧ v.alive
  · obtain ⟨v, hv, halive⟩ := hlive
    obtain ⟨-, rfl⟩ := mem_of_view? hv
    rw [refresh_of_alive hv halive]
    intro c hc
    -- the view itself has one publication more, and every other channel none
    cases target with
    | source =>
        refine ⟨c, [], hc, ?_, .refl c⟩
        exact (publications_append ..).trans (congrArg _ (publications_refresh ..))
    | view k =>
        have hview := view?_modifyView h v.key
          (f := renewed h.source (v.project h.source.value)) (fun _ => rfl) k
        by_cases hk : k = v.key
        · subst hk
          rw [hv, Option.map_some, if_pos rfl] at hview
          obtain rfl : _ = c := by simpa [channel?, hv] using hc
          refine ⟨_, [.inr (v.project h.source.value)], congrArg (Option.map _) hview, ?_,
            ⟨rfl, rfl, id, fun hdead => ?_⟩⟩
          · refine (publications_append ..).trans (congrArg _ ?_)
            rw [publications_refresh, if_pos rfl]
          · rw [halive] at hdead
            cases hdead
        · have hsame : (h.modifyView v.key (renewed h.source (v.project h.source.value))).view? k =
              h.view? k := by
            rw [hview]
            cases hu : h.view? k with
            | none => rfl
            | some u => rw [Option.map_some, if_neg ((mem_of_view? hu).2 ▸ hk)]
          refine ⟨c, [], (congrArg (Option.map _) hsame).trans hc, ?_, .refl c⟩
          refine (publications_append ..).trans (congrArg _ ?_)
          rw [publications_refresh, if_neg fun h => hk (Target.view.inj h)]
  · have hdead : ∀ v, h.view? key = some v → v.alive = false := by
      intro v hv
      cases halive : v.alive with
      | false => rfl
      | true => exact absurd ⟨v, hv, halive⟩ hlive
    rw [refresh_of_dead hdead]
    exact .refl h

/-! ### Work -/

/-- The views that are held by name are there. -/
def Named (h : Hub σ τ κ) : Prop :=
  ∀ name key, lookup? name h.named = some key → (h.channel? (.view key)).isSome

/-- What a hub does while its source lives: it continues every channel, and holds no view that is
    not there. -/
structure Works (h h' : Hub σ τ κ) : Prop where
  alive : h'.alive = h.alive
  continues : ∀ target, Continues target h h'
  named : h.Named → h'.Named

theorem Works.refl (h : Hub σ τ κ) : Works h h := ⟨rfl, fun _ => .refl h, id⟩

theorem Works.trans (hh : Works h h') (hh' : Works h' h'') : Works h h'' where
  alive := hh'.alive.trans hh.alive
  continues target := (hh.continues target).trans (hh'.continues target)
  named := hh'.named ∘ hh.named

/-- While no other view is held, those that are held stay there. -/
theorem Works.of_held (halive : h'.alive = h.alive) (hcontinues : ∀ target, Continues target h h')
    (hheld : ∀ name key, lookup? name h'.named = some key → lookup? name h.named = some key) :
    Works h h' where
  alive := halive
  continues := hcontinues
  named hs name key hkey := (hcontinues (.view key)).isSome (hs name key (hheld name key hkey))

/-- Who holds a view does not change in most of what a hub does. -/
theorem Works.of_named (halive : h'.alive = h.alive) (hcontinues : ∀ target, Continues target h h')
    (hnamed : h'.named = h.named) : Works h h' :=
  .of_held halive hcontinues fun _ _ hkey => hnamed ▸ hkey

/-- A hub that differs in nothing that a channel shows. -/
theorem Works.of_views (halive : h'.alive = h.alive) (hsource : h'.source.value = h.source.value)
    (hversion : h'.source.version = h.source.version) (hviews : h'.views = h.views)
    (hevents : h'.events = h.events) (hnamed : h'.named = h.named) : Works h h' := by
  refine .of_named halive (fun target => ?_) hnamed
  refine continues_of_eq ?_ (hevents.trans (List.append_nil _).symm) (List.forall_mem_nil _)
  cases target with
  | source => simp only [channel?, halive, hsource, hversion]
  | view key => simp only [channel?, view?, hviews]

/-- A publication of a live source is one of its channel, and of no other. -/
theorem works_published (h : Hub σ τ κ) (halive : h.alive = true) (value : σ) :
    Works h (h.published value) := by
  refine .of_named rfl (fun target c hc => ?_) rfl
  cases target with
  | source =>
      obtain rfl := Option.some.inj hc
      refine ⟨_, [.inl value], rfl, publications_append .., ⟨rfl, rfl, id, fun hdead => ?_⟩⟩
      exact absurd (halive.symm.trans hdead) (by simp)
  | view key => exact ⟨c, [], hc, publications_append .., .refl c⟩

theorem works_record (h : Hub σ τ κ) {e : Event σ τ}
    (hquiet : ∀ target : Target, target.publication? e = none) : Works h (h.record e) :=
  .of_named rfl (fun target => continues_record h (hquiet target)) rfl

theorem works_modifyView (h : Hub σ τ κ) (key : Nat) {f : View σ τ → View σ τ}
    (hkey : ∀ v, (f v).key = v.key) (hvalue : ∀ v, (f v).output.value = v.output.value)
    (hversion : ∀ v, (f v).output.version = v.output.version)
    (halive : ∀ v, (f v).alive = v.alive) : Works h (h.modifyView key f) :=
  .of_named rfl (fun _ => continues_modifyView h key hkey hvalue hversion halive) rfl

/-- A view that is called continues its channel and leaves all else. -/
theorem works_refresh (h : Hub σ τ κ) (key : Nat) : Works h (h.refresh key) :=
  have hcalm := undisturbed_refresh h key
  .of_named hcalm.alive (fun _ => continues_refresh h key) hcalm.named

theorem works_release (h : Hub σ τ κ) (handle : Handle) : Works h (h.release handle) := by
  cases handle with
  | source id => exact .of_views rfl rfl rfl rfl rfl rfl
  | view key id =>
      exact works_modifyView h key (fun _ => rfl) (fun _ => rfl) (fun _ => rfl) fun _ => rfl

/-- The registry is no part of a channel. -/
theorem works_registered (h : Hub σ τ κ) (callback : Callback κ) :
    Works h (h.registered callback) :=
  .of_views rfl rfl rfl rfl rfl rfl

theorem works_handles (h : Hub σ τ κ) (handles : List (String × Handle)) :
    Works h { h with handles } :=
  .of_views rfl rfl rfl rfl rfl rfl

theorem works_hold (h : Hub σ τ κ) (name : String) (handle : Handle) :
    Works h (h.hold name handle) := by
  unfold hold
  cases lookup? name h.handles with
  | none => exact works_handles h _
  | some old => exact (works_handles h _).trans (works_release _ old)

theorem works_unsubscribe (h : Hub σ τ κ) (name : String) : Works h (h.unsubscribe name) := by
  unfold unsubscribe
  cases lookup? name h.handles with
  | none => exact .refl h
  | some old => exact (works_handles h _).trans (works_release _ old)

/-! ### Views that come and go -/

/-- A new view is behind those that are there already. -/
theorem works_withView (h : Hub σ τ κ) (project : σ → τ) : Works h (h.withView project) := by
  refine .of_named rfl (fun target c hc => ⟨c, [], ?_, (List.append_nil _).symm, .refl c⟩) rfl
  cases target with
  | source => exact hc
  | view key =>
      obtain ⟨v, hv, rfl⟩ := Option.map_eq_some_iff.1 hc
      refine congrArg (Option.map _) (?_ : (h.withView project).view? key = some v)
      exact List.find?_append.trans (congrArg (Option.or · _) hv)

theorem isSome_withView (h : Hub σ τ κ) (project : σ → τ) :
    ((h.withView project).channel? (.view h.source.nextId)).isSome := by
  rw [channel?, Option.isSome_map, view?, List.find?_isSome]
  exact ⟨h.newView project, List.mem_append_right _ List.mem_cons_self, by simp [newView]⟩

/-- A view that is dropped shows what it showed; its channel is closed. -/
theorem works_dropView (h : Hub σ τ κ) (key : Nat) : Works h (h.dropView key) := by
  refine .of_named rfl (fun target c hc => ?_) rfl
  cases target with
  | source => exact ⟨c, [], hc, (List.append_nil _).symm, .refl c⟩
  | view k =>
      have hview := view?_modifyView h key
        (f := fun v : View σ τ => { v with alive := false }) (fun _ => rfl) k
      obtain ⟨v, hv, rfl⟩ := Option.map_eq_some_iff.1 hc
      rw [hv, Option.map_some] at hview
      refine ⟨_, [], congrArg (Option.map _) hview, (List.append_nil _).symm, ?_⟩
      by_cases hk : v.key = key
      · rw [if_pos hk]
        exact ⟨rfl, rfl, Bool.noConfusion, fun _ => rfl⟩
      · rw [if_neg hk]
        exact .refl _

theorem works_subscribeView (h : Hub σ τ κ) (key : Nat) (name : String) :
    Works h (h.subscribeView key name) := by
  unfold subscribeView
  cases h.view? key with
  | none => exact .refl h
  | some v =>
      refine Works.trans ?_ (works_hold _ _ _)
      refine Works.trans ?_ (works_record _ fun target => by cases target <;> rfl)
      exact works_modifyView h key (fun _ => rfl) (fun _ => rfl) (fun _ => rfl) fun _ => rfl

/-- A name may take a view that is there. -/
theorem works_keepView (h : Hub σ τ κ) (name : String) {key : Nat}
    (hthere : (h.channel? (.view key)).isSome) : Works h (h.keepView name key) := by
  have htaken : Works h { h with named := put name key h.named } := by
    refine ⟨rfl, fun target => ?_, fun hs other k hk => ?_⟩
    · exact continues_of_eq (by cases target <;> rfl) (List.append_nil _).symm
        (List.forall_mem_nil _)
    · rw [lookup?_put] at hk
      by_cases hother : other = name
      · rw [if_pos hother] at hk
        exact Option.some.inj hk ▸ hthere
      · rw [if_neg hother] at hk
        exact hs other k hk
  unfold keepView
  cases lookup? name h.named with
  | none => exact htaken
  | some old => exact htaken.trans (works_dropView _ old)

theorem works_dismissView (h : Hub σ τ κ) (name : String) : Works h (h.dismissView name) := by
  unfold dismissView
  cases lookup? name h.named with
  | none => exact .refl h
  | some key =>
      refine Works.trans ?_ (works_dropView _ key)
      refine .of_held rfl (fun target => ?_) fun other k hk => ?_
      · exact continues_of_eq (by cases target <;> rfl) (List.append_nil _).symm
          (List.forall_mem_nil _)
      · rw [lookup?_without] at hk
        exact (Option.ite_none_left_eq_some.1 hk).2

theorem works_followView (h : Hub σ τ κ) (name as : String) : Works h (h.followView name as) := by
  unfold followView
  cases lookup? name h.named with
  | none => exact .refl h
  | some key => exact works_subscribeView h key as

/-! ### Calls, notifications and reactions -/

/-- A way of running callbacks that works on while the source lives. -/
def Working (call : Nat → Callback κ → σ → Nat → Hub σ τ κ → Hub σ τ κ) : Prop :=
  ∀ id callback value version (h : Hub σ τ κ), h.alive = true →
    Works h (call id callback value version h)

variable {call : Nat → Callback κ → σ → Nat → Hub σ τ κ → Hub σ τ κ}

theorem works_callAll (hcall : Working call) (value : σ) (version : Nat)
    (entries : List (Nat × Callback κ)) (halive : h.alive = true) :
    Works h (callAll call value version entries h) := by
  induction entries generalizing h with
  | nil => exact .refl h
  | cons entry rest ih =>
      obtain ⟨id, callback⟩ := entry
      have hfirst := hcall id callback value version h halive
      exact hfirst.trans (ih (hfirst.alive.trans halive))

theorem works_notify (hcall : Working call) (change : σ → σ) (halive : h.alive = true) :
    Works h (notify call change h) := by
  have hpublished : Works h (h.published (change h.source.value)) :=
    works_published h halive _
  exact hpublished.trans (works_callAll hcall _ _ _ (hpublished.alive.trans halive))

theorem works_enroll (hcall : Working call) (callback : Callback κ)
    (halive : h.alive = true) : Works h (enroll call callback h) := by
  have hregistered : Works h (h.registered callback) := works_registered h callback
  exact hregistered.trans (hcall _ _ _ _ _ (hregistered.alive.trans halive))

theorem works_subscribe (hcall : Working call) (name : String) (callback : κ)
    (halive : h.alive = true) :
    Works h ((enroll call (.listener callback) h).hold name (.source h.source.nextId)) :=
  (works_enroll hcall _ halive).trans (works_hold _ _ _)

theorem works_makeView (hcall : Working call) (name : String) (project : σ → τ)
    (halive : h.alive = true) : Works h (makeView call name project h) := by
  have hview : Works h (h.withView project) := works_withView h project
  have hcalled := hcall h.source.nextId (.view h.source.nextId) h.source.value h.source.version
    (h.withView project) halive
  -- the new view is there when it is called, and so when it is held
  have hthere := (hcalled.continues _).isSome (isSome_withView h project)
  exact (hview.trans hcalled).trans (works_keepView _ name hthere)

/-- A reaction works on, whatever it does. -/
theorem works_react (hcall : Working call) (r : Reaction σ τ κ) (halive : h.alive = true) :
    Works h (react call r h) := by
  induction r generalizing h with
  | done => exact .refl h
  | report entry next ih =>
      exact (works_record h fun target => by cases target <;> rfl).trans (ih halive)
  | read next ih => exact ih h.source.value halive
  | count next ih => exact ih h.source.count halive
  | remember next ih => exact ih h.events halive
  | publish change next ih =>
      have hnotify := works_notify hcall change halive
      exact hnotify.trans (ih (hnotify.alive.trans halive))
  | subscribe name callback next ih =>
      have hsubscribe := works_subscribe hcall name callback halive
      exact hsubscribe.trans (ih (hsubscribe.alive.trans halive))
  | unsubscribe name next ih =>
      have hun : Works h (h.unsubscribe name) := works_unsubscribe h name
      exact hun.trans (ih (hun.alive.trans halive))
  | detach name next ih => exact (works_handles h _).trans (ih halive)
  | addView name project next ih =>
      have hmake := works_makeView hcall name project halive
      exact hmake.trans (ih (hmake.alive.trans halive))
  | subscribeView name as next ih =>
      have hfollow : Works h (h.followView name as) := works_followView h name as
      exact hfollow.trans (ih (hfollow.alive.trans halive))
  | dropView name next ih =>
      have hdismiss : Works h (h.dismissView name) := works_dismissView h name
      exact hdismiss.trans (ih (hdismiss.alive.trans halive))

/-- Calls work on, however deep they nest. -/
theorem works_call (behave : κ → σ → Reaction σ τ κ) (depth : Nat) :
    Working (Hub.call (τ := τ) behave depth) := by
  induction depth with
  | zero =>
      intro id callback value version h _
      exact .of_views rfl rfl rfl rfl rfl rfl
  | succ depth ih =>
      intro id callback value version h halive
      have hrecord : Works h (h.record (.called id version)) :=
        works_record h fun target => by cases target <;> rfl
      cases callback with
      | listener k => exact hrecord.trans (works_react ih _ halive)
      | view key =>
          exact hrecord.trans (works_refresh _ key)

/-- To drop the source closes its channel. -/
theorem continues_drop (h : Hub σ τ κ) : Continues target h h.drop := by
  intro c hc
  cases target with
  | source =>
      obtain rfl := Option.some.inj hc
      exact ⟨_, [], rfl, (List.append_nil _).symm, ⟨rfl, rfl, Bool.noConfusion, fun _ => rfl⟩⟩
  | view key => exact ⟨c, [], hc, (List.append_nil _).symm, .refl c⟩

end Hub

namespace Session

open Hub

variable {target : Target} {s : Session σ τ κ}

theorem channel?_eq (s : Session σ τ κ) (target : Target) :
    s.channel? target = s.hub.channel? target := by
  cases target <;> rfl

/-- What a step does to the hub while the source is not dropped: it works on, be it alive or
    not. -/
theorem works_step (behave : κ → σ → Reaction σ τ κ) (depth : Nat) (s : Session σ τ κ)
    {step : Step σ τ κ} (hdrops : step.drops = false) :
    Works s.hub (s.step behave depth step).1.hub := by
  rw [hub_step hdrops]
  cases halive : s.hub.alive with
  | true => exact works_react (works_call behave depth) _ halive
  | false =>
      rcases reaction_of_dead halive step with h | ⟨name, h | h | h | ⟨as, h⟩⟩
      · rw [h]
        exact .refl _
      · rw [h]
        exact works_unsubscribe s.hub name
      · rw [h]
        exact works_handles s.hub _
      · rw [h]
        exact works_dismissView s.hub name
      · rw [h]
        exact works_followView s.hub name as

/-- **One step of a session** continues every channel. -/
theorem continues_step (behave : κ → σ → Reaction σ τ κ) (depth : Nat) (s : Session σ τ κ)
    (step : Step σ τ κ) : Continues target s.hub (s.step behave depth step).1.hub := by
  cases hdrops : step.drops with
  | true =>
      obtain rfl := eq_drop_of_drops hdrops
      exact continues_drop s.hub
  | false => exact (works_step behave depth s hdrops).continues target

/-- **A whole run** continues every channel. -/
theorem continues_run (behave : κ → σ → Reaction σ τ κ) (depth : Nat) (s : Session σ τ κ)
    (steps : List (Step σ τ κ)) : Continues target s.hub (s.run behave depth steps).hub := by
  induction steps generalizing s with
  | nil => exact .refl _
  | cons step rest ih => exact (continues_step behave depth s step).trans (ih _)

end Session

end ZoneConsole
