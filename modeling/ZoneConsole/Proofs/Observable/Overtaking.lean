import ZoneConsole.Proofs.Observable.Given
import ZoneConsole.Proofs.Observable.Told

/-!
# Overtaken notifications

A callback that publishes while it is notified starts a notification within the one in progress.
Whoever stands behind it in the registry is told of the new value first and of the older one
after that.  So a callback need not end with the value that the source has.

* **`waits`** — for each publication of deeds, who had still to be called by the notifications in
  progress when it began.
* **`Hub.Tells`** — what all callbacks are told between two hubs, with one lemma for each rule
  of `Hub.Does` that puts hubs together (`Tells.append`, `Tells.call`, `Tells.published`,
  `Tells.registered`).
* **`last_told_iff_not_overtaken`** — a callback that is still registered was told each version
  once, it ends with the newest one exactly if the last publication did not overtake a call of
  it, and it was told in order exactly if no publication did.
* **`relayed_ends_old`** — a run that leaves a callback with an old value.
-/

namespace ZoneConsole

variable {σ τ κ : Type}

namespace Happening

/-- Is it a publication? -/
def isPublication : Happening σ κ → Bool
  | published _ _ => true
  | subscribed _ _ | called _ _ _ _ => false

/-- The entry that is called. -/
def calledId? : Happening σ κ → Option Nat
  | called id _ _ _ => some id
  | published _ _ | subscribed _ _ => none

end Happening

namespace Task

/-- The entries that a task calls itself. -/
def due : Task σ τ κ → List Nat
  | round _ _ entries => entries.map (·.1)
  | call id _ _ _ => [id]
  | _ => []

/-- The version that a task calls them with. -/
def version : Task σ τ κ → Nat
  | round _ version _ | call _ _ _ version => version
  | _ => 0

end Task

namespace Event

/-- The version with which an entry of the registry is called. -/
def callOf? (id : Nat) : Event σ τ → Option Nat
  | called i version => if i = id then some version else none
  | _ => none

end Event

/-- The versions with which an entry of the registry was called, in order. -/
def callsOf (id : Nat) (events : List (Event σ τ)) : List Nat :=
  events.filterMap (Event.callOf? id)

/-- The value that an entry of the registry was given last, in a run that started with `a`. -/
def lastGiven (a : σ) (id : Nat) (events : List (Event σ τ)) : Option σ :=
  (callsOf id events).getLast?.bind fun version => (snapshots a events)[version]?

/-- The entries that are called by deeds themselves, and not within them. -/
def calledIds (deeds : List (Deed σ κ)) : List Nat :=
  (deeds.map Deed.what).filterMap Happening.calledId?

mutual

/-- For each publication of a deed, in order, the entries that the notifications in progress
    within the deed have still to call when it begins. -/
def Deed.waits : Deed σ κ → List (List Nat)
  | .mk what within => (if what.isPublication then [[]] else []) ++ waits within

/-- For each publication of deeds, in order, the entries that the notifications in progress have
    still to call when it begins.  While a call of a round lasts, the later ones wait. -/
def waits : List (Deed σ κ) → List (List Nat)
  | [] => []
  | d :: rest => d.waits.map (· ++ calledIds rest) ++ waits rest

end

theorem calledIds_of_fits {deeds : List (Deed σ κ)} (hd : ∀ d ∈ deeds, d.what.isCall = false) :
    calledIds deeds = [] := by
  refine List.filterMap_eq_nil_iff.2 fun what hwhat => ?_
  obtain ⟨d, hmem, rfl⟩ := List.mem_map.1 hwhat
  have hcall := hd d hmem
  cases hwhat : d.what with
  | called id callback value version => rw [hwhat] at hcall; cases hcall
  | published source value => rfl
  | subscribed source callback => rfl

theorem calledIds_of_round {value : σ} {version : Nat} {entries : List (Nat × Callback κ)}
    {deeds : List (Deed σ κ)} (hd : deeds.map Deed.what =
      entries.map fun entry => .called entry.1 entry.2 value version) :
    calledIds deeds = entries.map (·.1) := by
  rw [calledIds, hd, List.filterMap_map]
  exact congrFun List.filterMap_eq_map' entries

theorem waits_append (first rest : List (Deed σ κ)) :
    waits (first ++ rest) = (waits first).map (· ++ calledIds rest) ++ waits rest := by
  induction first with
  | nil => rfl
  | cons d more ih =>
      rw [List.cons_append, waits, ih, waits, List.map_append, List.map_map, List.append_assoc]
      congr 1
      refine List.map_congr_left fun w _ => ?_
      rw [calledIds, List.map_append, List.filterMap_append, ← List.append_assoc]
      rfl

/-- A publication that nothing else surrounds overtakes nobody. -/
theorem waits_published (source : Observable σ (Callback κ)) (value : σ)
    (calls : List (Deed σ κ)) : waits [⟨.published source value, calls⟩] = [] :: waits calls := by
  simp [waits, Deed.waits, calledIds, Happening.isPublication]

theorem waits_subscribed (source : Observable σ (Callback κ)) (callback : Callback κ)
    (calls : List (Deed σ κ)) : waits [⟨.subscribed source callback, calls⟩] = waits calls := by
  simp [waits, Deed.waits, calledIds, Happening.isPublication]

theorem waits_called (id : Nat) (callback : Callback κ) (value : σ) (version : Nat)
    (within calls : List (Deed σ κ)) :
    waits (⟨.called id callback value version, within⟩ :: calls) =
      (waits within).map (· ++ calledIds calls) ++ waits calls := rfl

theorem callsOf_called (id c version : Nat) (events : List (Event σ τ)) :
    callsOf c (.called id version :: events) =
      (if id = c then [version] else []) ++ callsOf c events := by
  by_cases hc : id = c <;> simp [callsOf, Event.callOf?, hc]

theorem callsOf_append (id : Nat) (first rest : List (Event σ τ)) :
    callsOf id (first ++ rest) = callsOf id first ++ callsOf id rest :=
  List.filterMap_append ..

/-- Nothing but the events of the source tells of calls. -/
theorem callsOf_filter (id : Nat) (events : List (Event σ τ)) :
    callsOf id (events.filter Event.ofSource) = callsOf id events := by
  rw [callsOf, callsOf, List.filterMap_filter]
  refine List.filterMap_congr fun e _ => ?_
  cases e <;> rfl

namespace Hub

/-- The entries of the registry, by number. -/
def ids (h : Hub σ τ κ) : List Nat := h.source.registry.map (·.1)

/-- No number is in the registry twice, and new numbers are new. -/
structure Numbered (h : Hub σ τ κ) : Prop where
  distinct : h.ids.Nodup
  ahead : ∀ id ∈ h.ids, id < h.source.nextId

/-- What a later hub owes to an earlier one: numbers stay, and no old number comes back. -/
structure Later (before after : Hub σ τ κ) : Prop where
  nextId : before.source.nextId ≤ after.source.nextId
  registered : ∀ entry ∈ after.source.registry, entry.1 < before.source.nextId →
    entry ∈ before.source.registry
  numbered : before.Numbered → after.Numbered

theorem Calm.ids {h h' : Hub σ τ κ} (hc : Calm h h') : h'.ids.Sublist h.ids := hc.registry.map _

theorem Later.ids {h h' : Hub σ τ κ} (hl : Later h h') {id : Nat} (hid : id ∈ h'.ids)
    (hlt : id < h.source.nextId) : id ∈ h.ids := by
  obtain ⟨entry, hentry, rfl⟩ := List.mem_map.1 hid
  exact List.mem_map_of_mem (hl.registered entry hentry hlt)

/-- Every part of a task leads to a later hub. -/
theorem lasting_later : Lasting (Later (σ := σ) (τ := τ) (κ := κ)) where
  calm hc := by
    refine ⟨Nat.le_of_eq hc.nextId.symm, fun _ hentry _ => hc.registry.subset hentry,
      fun hn => ?_⟩
    exact ⟨hn.distinct.sublist hc.ids, fun id hid => hc.nextId ▸ hn.ahead id (hc.ids.subset hid)⟩
  trans hab hbc := by
    refine ⟨Nat.le_trans hab.nextId hbc.nextId, fun entry hentry hlt => ?_,
      fun hn => hbc.numbered (hab.numbered hn)⟩
    have hbetween := hbc.registered entry hentry (Nat.lt_of_lt_of_le hlt hab.nextId)
    exact hab.registered entry hbetween hlt
  published h value :=
    ⟨Nat.le_refl _, fun _ hentry _ => hentry, fun hn => ⟨hn.distinct, hn.ahead⟩⟩
  registered h callback := by
    have hids : (registered h callback).ids = h.ids ++ [h.source.nextId] := List.map_append ..
    refine ⟨Nat.le_succ _, fun entry hentry hlt => ?_, fun hn => ⟨?_, fun id hid => ?_⟩⟩
    · rcases List.mem_append.1 hentry with hold | hnew
      · exact hold
      · obtain rfl := List.mem_singleton.1 hnew
        exact absurd hlt (Nat.lt_irrefl _)
    · rw [hids, List.nodup_append]
      refine ⟨hn.distinct, List.nodup_singleton _, fun x hx y hy => ?_⟩
      obtain rfl := List.mem_singleton.1 hy
      exact Nat.ne_of_lt (hn.ahead x hx)
    · rcases List.mem_append.1 (hids ▸ hid) with hold | hnew
      · exact Nat.lt_succ_of_lt (hn.ahead id hold)
      · exact List.mem_singleton.1 hnew ▸ Nat.lt_succ_self _
  called h id version :=
    ⟨Nat.le_refl _, fun _ hentry _ => hentry, fun hn => ⟨hn.distinct, hn.ahead⟩⟩

/-- The entry was registered in what happened, when the source had the version. -/
def RegisteredAt (entry : Nat × Callback κ) (version : Nat) (what : List (Happening σ κ)) :
    Prop :=
  ∃ source, .subscribed source entry.2 ∈ what ∧ source.nextId = entry.1 ∧ source.version = version

theorem RegisteredAt.mono {entry : Nat × Callback κ} {version : Nat}
    {what more : List (Happening σ κ)} (hr : RegisteredAt entry version what)
    (hsubset : what ⊆ more) : RegisteredAt entry version more := by
  obtain ⟨source, hmem, hid, hversion⟩ := hr
  exact ⟨source, hsubset hmem, hid, hversion⟩

/-- What all callbacks are told from one hub to a later one, while notifications that began
    before have still to tell a version to the entries of `due`.  A callback that is registered
    on the way, in `what` happened, is told all versions from the one on that the source had
    then. -/
structure Tells (due : List Nat) (v : Nat) (h h' : Hub σ τ κ) (calls : Nat → List Nat)
    (waits : List (List Nat)) (what : List (Happening σ κ)) : Prop where
  later : Later h h'
  version : h'.source.version = h.source.version + waits.length
  waiting : ∀ w ∈ waits, ∀ id ∈ w, id < h'.source.nextId
  unborn : ∀ c, h'.source.nextId ≤ c → calls c = []
  old : ∀ c ∈ h'.ids, c < h.source.nextId →
    Told c (if c ∈ due then [v] else []) (h.source.version + 1) h.source.version
      h'.source.version (calls c) waits
  new : ∀ entry ∈ h'.source.registry, h.source.nextId ≤ entry.1 → ∃ first,
    RegisteredAt entry first what ∧ h.source.version ≤ first ∧ first ≤ h'.source.version ∧
    Told entry.1 [] first h.source.version h'.source.version (calls entry.1) waits

namespace Tells

variable {due first later : List Nat} {v : Nat} {a b h m h' : Hub σ τ κ}
  {calls calls₁ calls₂ : Nat → List Nat} {waits waits₁ waits₂ : List (List Nat)}
  {what what₁ what₂ : List (Happening σ κ)}

/-- Where all is calm, nothing is told. -/
theorem of_calm (v : Nat) (hn : h.Numbered) (hc : Calm h h') :
    Tells [] v h h' (fun _ => []) [] [] where
  later := lasting_later.calm hc
  version := hc.version
  waiting := nofun
  unborn _ _ := rfl
  old c _ _ := hc.version ▸ .nil c _
  new _ hmem hle :=
    absurd (hn.ahead _ (List.mem_map_of_mem (hc.registry.subset hmem))) (Nat.not_lt.2 hle)

/-- What comes before may be calm. -/
theorem calm_before (hc : Calm a h) (ht : Tells due v h h' calls waits what) :
    Tells due v a h' calls waits what where
  later := lasting_later.trans (lasting_later.calm hc) ht.later
  version := hc.version ▸ ht.version
  waiting := ht.waiting
  unborn := ht.unborn
  old c hmem hlt := by
    rw [← hc.version]
    exact ht.old c hmem (hc.nextId ▸ hlt)
  new entry hmem hle := by
    rw [← hc.version]
    exact ht.new entry hmem (hc.nextId ▸ hle)

/-- What comes after may be calm. -/
theorem calm_after (ht : Tells due v h h' calls waits what) (hc : Calm h' b) :
    Tells due v h b calls waits what where
  later := lasting_later.trans ht.later (lasting_later.calm hc)
  version := hc.version.trans ht.version
  waiting w hw id hid := hc.nextId ▸ ht.waiting w hw id hid
  unborn c hc' := ht.unborn c (hc.nextId ▸ hc')
  old c hmem hlt := by
    rw [hc.version]
    exact ht.old c (hc.ids.subset hmem) hlt
  new entry hmem hle := by
    rw [hc.version]
    exact ht.new entry (hc.registry.subset hmem) hle

/-- One stretch after another.  The entries that are due in the second one wait during the
    first one. -/
theorem append (h₁ : Tells first v h m calls₁ waits₁ what₁)
    (h₂ : Tells later v m h' calls₂ waits₂ what₂)
    (hdisjoint : first.Disjoint later) (hlater : ∀ c ∈ later, c < h.source.nextId)
    (hv : v ≤ h.source.version) :
    Tells (first ++ later) v h h' (fun c => calls₁ c ++ calls₂ c)
      (waits₁.map (· ++ later) ++ waits₂) (what₁ ++ what₂) where
  later := lasting_later.trans h₁.later h₂.later
  version := by
    rw [h₂.version, h₁.version, List.length_append, List.length_map, Nat.add_assoc]
  waiting w hw id hid := by
    rcases List.mem_append.1 hw with hw₁ | hw₂
    · obtain ⟨w₁, hmem, rfl⟩ := List.mem_map.1 hw₁
      rcases List.mem_append.1 hid with hid₁ | hid₂
      · exact Nat.lt_of_lt_of_le (h₁.waiting w₁ hmem id hid₁) h₂.later.nextId
      · exact Nat.lt_of_lt_of_le (hlater id hid₂)
          (Nat.le_trans h₁.later.nextId h₂.later.nextId)
    · exact h₂.waiting w hw₂ id hid
  unborn c hc := by
    rw [h₁.unborn c (Nat.le_trans h₂.later.nextId hc), h₂.unborn c hc, List.append_nil]
  old c hmem hlt := by
    have hltm : c < m.source.nextId := Nat.lt_of_lt_of_le hlt h₁.later.nextId
    have hfirst := h₁.old c (h₂.later.ids hmem hltm) hlt
    have hsecond := h₂.old c hmem hltm
    by_cases hc : c ∈ later
    · -- the call that is due comes in the second stretch
      have hnot : c ∉ first := fun hmem => hdisjoint hmem hc
      rw [if_neg hnot] at hfirst
      rw [if_pos hc] at hsecond
      rw [if_pos (List.mem_append_right _ hc)]
      exact hfirst.append_due hsecond hv hc
    · rw [if_neg hc] at hsecond
      simp only [List.mem_append, hc, or_false]
      exact hfirst.append (Nat.succ_le_succ hfirst.le) hsecond hc
  new entry hmem hle := by
    have hc : entry.1 ∉ later := fun hmem => Nat.not_lt.2 hle (hlater entry.1 hmem)
    by_cases hltm : entry.1 < m.source.nextId
    · have hsecond := h₂.old entry.1 (List.mem_map_of_mem hmem) hltm
      rw [if_neg hc] at hsecond
      obtain ⟨u, hborn, hu, hum, hfirst⟩ := h₁.new entry (h₂.later.registered entry hmem hltm) hle
      exact ⟨u, hborn.mono (List.subset_append_left ..), hu, Nat.le_trans hum hsecond.le,
        hfirst.append (Nat.le_succ_of_le hum) hsecond hc⟩
    · -- it is registered after the first stretch
      have hlem := Nat.not_lt.1 hltm
      obtain ⟨u, hborn, hu, hlast, hsecond⟩ := h₂.new entry hmem hlem
      have hwaits : ∀ w ∈ waits₁, entry.1 ∉ w := fun w hw hcw =>
        hltm (h₁.waiting w hw entry.1 hcw)
      have hbetween : h.source.version ≤ m.source.version := by
        rw [h₁.version]
        exact Nat.le_add_right ..
      refine ⟨u, hborn.mono (List.subset_append_right ..), Nat.le_trans hbetween hu, hlast, ?_⟩
      rw [h₁.unborn entry.1 hlem, List.nil_append]
      exact hsecond.append_new h₁.version hwaits hc hu hlast

/-- If nobody is due, no version is. -/
theorem of_nobody {u : Nat} (ht : Tells [] u h h' calls waits what) :
    Tells [] v h h' calls waits what where
  later := ht.later
  version := ht.version
  waiting := ht.waiting
  unborn := ht.unborn
  old := ht.old
  new := ht.new

/-- Something else may have happened in front. -/
theorem cons (ht : Tells due v h h' calls waits what) (other : Happening σ κ) :
    Tells due v h h' calls waits (other :: what) where
  later := ht.later
  version := ht.version
  waiting := ht.waiting
  unborn := ht.unborn
  old := ht.old
  new entry hmem hle := by
    obtain ⟨first, hborn, htold⟩ := ht.new entry hmem hle
    exact ⟨first, hborn.mono (List.subset_cons_self ..), htold⟩

/-- A call tells its version to its entry. -/
theorem call {id : Nat} (hid : id < h.source.nextId) (hv : v ≤ h.source.version)
    (ht : Tells [] v (h.record (.called id v)) h' calls waits what) :
    Tells [id] v h h' (fun c => (if id = c then [v] else []) ++ calls c) waits what where
  later := lasting_later.trans (lasting_later.called h id v) ht.later
  version := ht.version
  waiting := ht.waiting
  unborn c hc := by
    have hlt : id < c := Nat.lt_of_lt_of_le hid (Nat.le_trans ht.later.nextId hc)
    rw [if_neg (Nat.ne_of_lt hlt), ht.unborn c hc, List.append_nil]
  old c hmem hlt := by
    have htold := ht.old c hmem hlt
    by_cases hc : id = c
    · subst hc
      rw [if_pos rfl, if_pos (List.mem_singleton_self id)]
      exact htold.cons hv
    · rw [if_neg hc, if_neg fun hmem => hc (List.mem_singleton.1 hmem).symm]
      exact htold
  new entry hmem hle := by
    rw [if_neg (Nat.ne_of_lt (Nat.lt_of_lt_of_le hid hle))]
    exact ht.new entry hmem hle

/-- The round of a publication tells the new version to all who are registered. -/
theorem published {value : σ}
    (ht : Tells h.ids (h.source.version + 1) (h.published value) h' calls waits what) :
    Tells [] v h h' calls ([] :: waits) what where
  later := lasting_later.trans (lasting_later.published h value) ht.later
  version := by
    rw [ht.version, List.length_cons, Nat.add_comm waits.length, ← Nat.add_assoc]
    rfl
  waiting w hw := by
    rcases List.mem_cons.1 hw with rfl | hw
    · exact nofun
    · exact ht.waiting w hw
  unborn := ht.unborn
  old c hmem hlt := by
    have htold := ht.old c hmem hlt
    have hc : c ∈ h.ids := ht.later.ids hmem hlt
    rw [if_pos hc] at htold
    exact htold.fold.after_publication (Nat.le_refl _) htold.le
  new entry hmem hle := by
    obtain ⟨u, hborn, hu, hlast, htold⟩ := ht.new entry hmem hle
    exact ⟨u, hborn, Nat.le_of_succ_le hu, hlast, htold.after_publication hu hlast⟩

/-- The call of a subscription tells the current version to the one who subscribes. -/
theorem registered {callback : Callback κ} (hn : h.Numbered)
    (ht : Tells [h.source.nextId] h.source.version (h.registered callback) h' calls waits what) :
    Tells [] v h h' calls waits (.subscribed h.source callback :: what) where
  later := lasting_later.trans (lasting_later.registered h callback) ht.later
  version := ht.version
  waiting := ht.waiting
  unborn := ht.unborn
  old c hmem hlt := by
    have htold := ht.old c hmem (Nat.lt_succ_of_lt hlt)
    rw [if_neg fun hmem => Nat.ne_of_lt hlt (List.mem_singleton.1 hmem)] at htold
    exact htold
  new entry hmem hle := by
    rcases Nat.eq_or_lt_of_le hle with heq | hlt
    · have hbelow : entry.1 < (h.registered callback).source.nextId := heq ▸ Nat.lt_succ_self _
      have htold := ht.old entry.1 (List.mem_map_of_mem hmem) hbelow
      rcases List.mem_append.1 (ht.later.registered entry hmem hbelow) with hold | hnew
      · -- numbers of old entries are below the new one
        exact absurd heq (Nat.ne_of_gt (hn.ahead _ (List.mem_map_of_mem hold)))
      · obtain rfl := List.mem_singleton.1 hnew
        rw [if_pos (List.mem_singleton_self _)] at htold
        exact ⟨h.source.version, ⟨h.source, List.mem_cons_self .., rfl, rfl⟩, Nat.le_refl _,
          htold.le, htold.fold⟩
    · obtain ⟨first, hborn, htold⟩ := ht.new entry hmem hlt
      exact ⟨first, hborn.mono (List.subset_cons_self ..), htold⟩

end Tells

/-! ### Tasks -/

/-- A task can be begun: those whom it calls itself are registered once at most, and what it
    tells them is not newer than the value. -/
structure Ready (task : Task σ τ κ) (h : Hub σ τ κ) : Prop where
  distinct : task.due.Nodup
  known : ∀ id ∈ task.due, id < h.source.nextId
  version : task.version ≤ h.source.version

section

variable {behave : κ → σ → Reaction σ τ κ} {task : Task σ τ κ} {h m h' : Hub σ τ κ}
  {deeds : List (Deed σ κ)}

/-- A task that calls nobody itself can always be begun. -/
theorem ready_of_due (hdue : task.due = []) (hversion : task.version = 0) : Ready task h where
  distinct := hdue ▸ .nil
  known := hdue ▸ List.forall_mem_nil _
  version := hversion ▸ Nat.zero_le _

/-- What follows on a calm beginning. -/
theorem Tells.of_react {next : Reaction σ τ κ} {calls : Nat → List Nat} {waits : List (List Nat)}
    {what : List (Happening σ κ)} (hc : Calm h m) (hn : h.Numbered)
    (ht : m.Numbered → Ready (.react next) m → Tells [] 0 m h' calls waits what) :
    Tells [] 0 h h' calls waits what :=
  (ht ((lasting_later.calm hc).numbered hn) (ready_of_due rfl rfl)).calm_before hc

/-- Two stretches of deeds.  The second one calls nobody itself, so nobody waits for it during
    the first one. -/
theorem Tells.append_deeds {first rest : List (Deed σ κ)}
    (hfirst : Tells [] 0 h m (fun c => callsOf c (eventsOf (τ := τ) first)) (waits first)
      (chronicle first))
    (hrest : Tells [] 0 m h' (fun c => callsOf c (eventsOf (τ := τ) rest)) (waits rest)
      (chronicle rest))
    (hcalls : ∀ d ∈ rest, d.what.isCall = false) :
    Tells [] 0 h h' (fun c => callsOf c (eventsOf (τ := τ) (first ++ rest)))
      (waits (first ++ rest)) (chronicle (first ++ rest)) := by
  have hboth := hfirst.append hrest (List.disjoint_nil_left _) nofun (Nat.zero_le _)
  have hnone : calledIds rest = [] := calledIds_of_fits hcalls
  simp only [eventsOf_append, callsOf_append, waits_append, chronicle_append, hnone]
  exact hboth

/-- **What callbacks are told by a task** is what its deeds call them with. -/
theorem Does.tells (hd : Does behave task h deeds h') (hn : h.Numbered) (hr : Ready task h) :
    Tells task.due task.version h h'
      (fun c => callsOf c (task.opening ++ eventsOf deeds)) (waits deeds) (chronicle deeds) := by
  -- On the rules.  A version is due to the entries of a round until each of them is called.
  induction hd with
  | done => exact .of_calm 0 hn (.refl _)
  | report _ ih => exact .of_react (calm_left _ _) hn ih
  | read _ ih => exact ih hn (ready_of_due rfl rfl)
  | count _ ih => exact ih hn (ready_of_due rfl rfl)
  | remember _ ih => exact ih hn (ready_of_due rfl rfl)
  | publish _ hrest ihfirst ihrest =>
      have hfirst := ihfirst hn (ready_of_due rfl rfl)
      have hlater := ihrest (hfirst.later.numbered hn) (ready_of_due rfl rfl)
      exact hfirst.append_deeds hlater hrest.exact.1
  | @subscribe name callback next h first between rest h' _ hrest ihfirst ihrest =>
      have hheld := calm_hold between name (.source h.source.nextId)
      have hfirst := (ihfirst hn (ready_of_due rfl rfl)).calm_after hheld
      have hlater := ihrest (hfirst.later.numbered hn) (ready_of_due rfl rfl)
      exact hfirst.append_deeds hlater hrest.exact.1
  | unsubscribe _ ih => exact .of_react (calm_unsubscribe _ _) hn ih
  | detach _ ih => exact .of_react (calm_detach _ _) hn ih
  | @addView name project next h first between rest h' _ hrest ihfirst ihrest =>
      have hviewed := calm_viewed h project
      have hkept := calm_keepView between name h.source.nextId
      have hbegun := (lasting_later.calm hviewed).numbered hn
      have hfirst := ((ihfirst hbegun (ready_of_due rfl rfl)).calm_before hviewed).calm_after hkept
      have hlater := ihrest (hfirst.later.numbered hn) (ready_of_due rfl rfl)
      exact hfirst.append_deeds hlater hrest.exact.1
  | subscribeView _ ih => exact .of_react (calm_followView _ _ _) hn ih
  | dropView _ ih => exact .of_react (calm_dismissView _ _) hn ih
  | @notify change h calls h' _ ih =>
      -- the new version is due to all who are registered when it begins
      have hready : Ready (.round (change h.source.value) (h.source.version + 1)
          h.source.registry) (h.published (change h.source.value)) :=
        ⟨hn.distinct, hn.ahead, Nat.le_refl _⟩
      have hround := ih ((lasting_later.published h _).numbered hn) hready
      simp only [waits_published, chronicle_cons, chronicle_nil, eventsOf_cons, eventsOf_nil,
        List.append_nil]
      exact hround.published.cons _
  | @enroll callback h calls h' _ ih =>
      -- the current version is due to the new entry alone
      have hready : Ready (.round h.source.value h.source.version [(h.source.nextId, callback)])
          (h.registered callback) :=
        ⟨List.nodup_singleton _, fun id hid => List.mem_singleton.1 hid ▸ Nat.lt_succ_self _,
          Nat.le_refl _⟩
      have hround := ih ((lasting_later.registered h callback).numbered hn) hready
      rw [waits_subscribed]
      simp only [chronicle_cons, chronicle_nil, eventsOf_cons, eventsOf_nil, List.append_nil]
      exact hround.registered hn
  | @listener id callback value version h deeds h' _ ih =>
      have hreact := ih ((lasting_later.called h id version).numbered hn) (ready_of_due rfl rfl)
      simp only [Task.opening, List.singleton_append, callsOf_called]
      exact .call (hr.known id (List.mem_singleton_self id)) hr.version hreact.of_nobody
  | @view id key value version h =>
      have hcalm := Tells.of_calm version ((lasting_later.called h id version).numbered hn)
        (calm_refresh _ key)
      simp only [Task.opening, List.singleton_append, callsOf_called]
      exact .call (hr.known id (List.mem_singleton_self id)) hr.version hcalm
  | nil => exact .of_calm _ hn (.refl _)
  | @cons id callback value version rest h within between calls h' hcall hrest ihcall ihrest =>
      obtain ⟨hnew, hdistinct⟩ := List.nodup_cons.1 hr.distinct
      have hknown : ∀ i ∈ rest.map (·.1), i < h.source.nextId := fun i hi =>
        hr.known i (List.mem_cons_of_mem _ hi)
      have hfirst := ihcall hn ⟨List.nodup_singleton _, fun i hi =>
        hr.known i (List.mem_singleton.1 hi ▸ List.mem_cons_self ..), hr.version⟩
      have hversion : version ≤ between.source.version := by
        rw [hfirst.version]
        exact Nat.le_trans hr.version (Nat.le_add_right ..)
      have hlater := ihrest (hfirst.later.numbered hn) ⟨hdistinct, fun i hi =>
        Nat.lt_of_lt_of_le (hknown i hi) hfirst.later.nextId, hversion⟩
      -- while the first call lasts, the rest of the round waits
      have hboth := hfirst.append hlater (List.singleton_disjoint.2 hnew) hknown hr.version
      have hids : calledIds calls = rest.map (·.1) := calledIds_of_round hrest.exact.1
      simp only [Task.opening, List.singleton_append, List.nil_append, ← callsOf_append] at hboth
      simp only [chronicle_cons, eventsOf_cons, waits_called, hids, List.cons_append]
      exact hboth.cons _

end

end Hub

namespace Session

open Hub

variable {behave : κ → σ → Reaction σ τ κ} {depth : Nat}

/-- **What callbacks are told by a run** is what its deeds call them with. -/
theorem Brings.tells {s : Session σ τ κ} {steps : List (Step σ τ κ)} {deeds : List (Deed σ κ)}
    (hb : Brings behave depth s steps deeds) (hn : s.hub.Numbered) :
    Tells [] 0 s.hub (s.run behave depth steps).hub
      (fun c => callsOf c (eventsOf (τ := τ) deeds)) (waits deeds) (chronicle deeds) := by
  induction hb with
  | done => exact .of_calm 0 hn (.refl _)
  | drop _ ih =>
      have hnumbered := (lasting_later.calm (calm_drop _)).numbered hn
      exact (ih hnumbered).calm_before (calm_drop _)
  | step _ hdoes hrest ih =>
      -- between steps no notification is in progress, so nobody waits
      have hstep := hdoes.tells hn (ready_of_due rfl rfl)
      exact hstep.append_deeds (ih (hstep.later.numbered hn)) fun d hd => (hrest.exact d hd).1

end Session

/-- **Callbacks end with the current snapshot unless they were overtaken.**  After any run of
    steps, each callback that is still registered was told each version once from that on that
    the source had when it was registered.  It was told the current version last exactly if no
    notification had still to call it when the last publication began, and it was told all of
    them in order exactly if that is so of every publication.  What it is given is the snapshot
    of the version that it is told. -/
theorem last_told_iff_not_overtaken (behave : κ → σ → Reaction σ τ κ) (depth : Nat) (a : σ)
    (steps : List (Step σ τ κ)) {h : Hub σ τ κ}
    (hrun : ((Session.ofValue a).run behave depth steps).hub = h) (hdeep : h.tooDeep = false) :
    ∃ deeds : List (Deed σ κ),
      Session.Brings behave depth (.ofValue a) steps deeds ∧
      (∀ what ∈ chronicle deeds, what.Given (snapshots a h.events)) ∧
      ∀ entry ∈ h.source.registry,
        (∃ source, .subscribed source entry.2 ∈ chronicle deeds ∧ source.nextId = entry.1 ∧
          source.version ≤ h.source.version ∧
          (callsOf entry.1 h.events).Perm (versions source.version h.source.version)) ∧
        ((callsOf entry.1 h.events).getLast? = some h.source.version ↔
          ∀ w, (waits deeds).getLast? = some w → entry.1 ∉ w) ∧
        ((callsOf entry.1 h.events).getLast? = some h.source.version →
          lastGiven a entry.1 h.events = some h.source.value) ∧
        ((callsOf entry.1 h.events).Pairwise (· < ·) ↔ ∀ w ∈ waits deeds, entry.1 ∉ w) := by
  have hcurrent : (Hub.ofValue a : Hub σ τ κ).Current a := ⟨rfl, rfl⟩
  have hnumbered : (Hub.ofValue a : Hub σ τ κ).Numbered := ⟨.nil, nofun⟩
  subst hrun
  obtain ⟨deeds, hbrings⟩ := Session.exists_brings behave depth _ steps hdeep
  refine ⟨deeds, hbrings, hbrings.given hcurrent (List.prefix_refl _), ?_⟩
  intro entry hentry
  -- no number was given before the run, so every entry is new
  obtain ⟨first, hborn, hzero, hfirst, htold⟩ :=
    (hbrings.tells hnumbered).new entry hentry (Nat.zero_le _)
  obtain ⟨source, hsubscribed, hid, rfl⟩ := hborn
  -- the record of the run is that of its deeds
  have hcalls : callsOf entry.1 (eventsOf (τ := τ) deeds) =
      callsOf entry.1 ((Session.ofValue a).run behave depth steps).hub.events := by
    rw [← callsOf_filter entry.1 (Session.run ..).hub.events, hbrings.events]
    rfl
  rw [hcalls] at htold
  obtain ⟨hend, -⟩ := hbrings.holds (Hub.lasting_remembers a) hcurrent
  refine ⟨⟨source, hsubscribed, hid, hfirst, htold.complete⟩, htold.last_iff hzero hfirst, ?_,
    htold.ordered⟩
  intro hlast
  rw [lastGiven, hlast]
  exact hend.newest

/-- A run in which `first` answers 1 with 2 while `second` has still to be told of 1. -/
def relayed : List (Step Int Int (Listener Int)) :=
  [.subscribe "first" ⟨"first", some (1, .set 2)⟩,
    .subscribe "second" ⟨"second", none⟩,
    .publish fun _ => 1]

/-- The same, with another publication after it. -/
def caughtUp : List (Step Int Int (Listener Int)) := relayed ++ [.publish fun _ => 3]

/-- `second` is told of 2 and then of 1.  The publication after that overtakes nobody and brings
    it back to the current snapshot. -/
theorem relayed_caught_up : ∃ h : Hub Int Int (Listener Int),
    ((Session.ofValue 0).run Listener.behave 4 caughtUp).hub = h ∧
    h.tooDeep = false ∧ callsOf 0 h.events = [0, 1, 2, 3] ∧ callsOf 1 h.events = [0, 2, 1, 3] ∧
    ∃ deeds : List (Deed Int (Listener Int)),
      Session.Brings Listener.behave 4 (.ofValue 0) caughtUp deeds ∧
      (∀ what ∈ chronicle deeds, what.Given (snapshots 0 h.events)) ∧
      ∀ entry ∈ h.source.registry,
        (∃ source, .subscribed source entry.2 ∈ chronicle deeds ∧ source.nextId = entry.1 ∧
          source.version ≤ h.source.version ∧
          (callsOf entry.1 h.events).Perm (versions source.version h.source.version)) ∧
        ((callsOf entry.1 h.events).getLast? = some h.source.version ↔
          ∀ w, (waits deeds).getLast? = some w → entry.1 ∉ w) ∧
        ((callsOf entry.1 h.events).getLast? = some h.source.version →
          lastGiven 0 entry.1 h.events = some h.source.value) ∧
        ((callsOf entry.1 h.events).Pairwise (· < ·) ↔ ∀ w ∈ waits deeds, entry.1 ∉ w) := by
  have hdeep : ((Session.ofValue 0).run Listener.behave 4 caughtUp).hub.tooDeep = false := by
    decide +kernel
  refine ⟨_, rfl, hdeep, by decide +kernel, by decide +kernel, ?_⟩
  exact last_told_iff_not_overtaken Listener.behave 4 0 caughtUp rfl hdeep

/-- **A callback may end with an old value.**  Without that publication `second` keeps 1, while
    the source has 2 and no notification is in progress. -/
theorem relayed_ends_old : ∃ h : Hub Int Int (Listener Int),
    ((Session.ofValue 0).run Listener.behave 4 relayed).hub = h ∧ h.tooDeep = false ∧
    h.source.value = 2 ∧ lastGiven 0 0 h.events = some 2 ∧ lastGiven 0 1 h.events = some 1 ∧
    ¬ ∀ entry ∈ h.source.registry, lastGiven 0 entry.1 h.events = some h.source.value := by
  refine ⟨_, rfl, ?_⟩
  decide +kernel

end ZoneConsole
