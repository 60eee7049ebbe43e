import ZoneConsole.Proofs.Observable.Moments

/-!
# Cancelled subscriptions

A notification calls the callbacks that were registered when it began.  So a subscription that is
cancelled while a notification is in progress may still be called by it, and this file says
exactly when.

* **`Hub.Over`** — a subscription was made and its entry is no longer in the registry.
* **`owed`** — the calls of an entry that notifications in progress have still to make.
* **`Hub.account_next`** — once a subscription is over, no step changes the list of the calls it
  was given and of those it is owed.
* **`cancelled_silent_iff`** — after it is over, a subscription is called exactly as often as it
  is owed, so it is silent exactly if no notification in progress has still to call it.
* **`cancelled_called_again`** — a run that calls a subscription after it was cancelled.
-/

namespace ZoneConsole

variable {σ τ κ : Type}

namespace Hub

/-- The subscription of a number was made, and its entry is no longer in the registry. -/
def Over (h : Hub σ τ κ) (id : Nat) : Prop := id < h.source.nextId ∧ id ∉ h.ids

instance (h : Hub σ τ κ) (id : Nat) : Decidable (h.Over id) :=
  inferInstanceAs (Decidable (_ ∧ _))

variable {h h' : Hub σ τ κ} {id : Nat}

/-- What is over stays over. -/
theorem Later.over (hl : Later h h') (ho : h.Over id) : h'.Over id :=
  ⟨Nat.lt_of_lt_of_le ho.1 hl.nextId, fun hid => ho.2 (hl.ids hid ho.1)⟩

theorem Calm.callsOf {h h' : Hub σ τ κ} (hc : Calm h h') (id : Nat) :
    ZoneConsole.callsOf id h'.events = ZoneConsole.callsOf id h.events := by
  rw [← callsOf_filter, hc.events, callsOf_filter]

/-! ### Cancelling -/

theorem notMem_ids_release (h : Hub σ τ κ) (id : Nat) : id ∉ (h.release (.source id)).ids := by
  intro hid
  obtain ⟨entry, hentry, rfl⟩ := List.mem_map.1 hid
  have hne := (List.mem_filter.1 hentry).2
  simp at hne

/-- A subscription that is held and registered is over when its name lets go of it, be it to hold
    nothing or to hold another one. -/
theorem over_of_cancelled (hn : h.Numbered) {name : String}
    (hheld : lookup? name h.handles = some (.source id)) (hid : id ∈ h.ids) :
    (h.unsubscribe name).Over id ∧ ∀ handle, (h.hold name handle).Over id := by
  have hlt := hn.ahead id hid
  constructor
  · refine ⟨(calm_unsubscribe h name).nextId ▸ hlt, ?_⟩
    rw [unsubscribe, hheld]
    exact notMem_ids_release _ id
  · intro handle
    refine ⟨(calm_hold h name handle).nextId ▸ hlt, ?_⟩
    rw [hold, hheld]
    exact notMem_ids_release _ id

end Hub

/-! ### What is owed -/

/-- The versions with which a job itself calls an entry. -/
def Job.owes (id : Nat) : Job σ τ κ → List Nat
  | .task t => (t.due.filter (· = id)).map fun _ => t.version
  | .hold _ _ | .keep _ _ => []

/-- The versions with which an entry is still to be called by what was begun. -/
def owed (id : Nat) (agenda : List (Job σ τ κ)) : List Nat := agenda.flatMap (Job.owes id)

/-- The entries that notifications in progress have still to call. -/
def Moment.waiting (m : Moment σ τ κ) : List Nat :=
  m.agenda.flatMap fun
    | .task t => t.due
    | .hold _ _ | .keep _ _ => []

theorem owed_append (id : Nat) (first rest : List (Job σ τ κ)) :
    owed id (first ++ rest) = owed id first ++ owed id rest :=
  List.flatMap_append

theorem owed_eq_nil_iff (m : Moment σ τ κ) (id : Nat) :
    owed id m.agenda = [] ↔ id ∉ m.waiting := by
  rw [owed, Moment.waiting, List.flatMap_eq_nil_iff, List.mem_flatMap, not_exists]
  refine forall_congr' fun job => ?_
  rw [not_and]
  refine imp_congr_right fun _ => ?_
  cases job with
  | hold _ _ | keep _ _ => simp [Job.owes]
  | task t =>
      rw [Job.owes, List.map_eq_nil_iff, List.filter_eq_nil_iff]
      exact ⟨fun hnone hid => hnone id hid (decide_eq_true rfl), fun hid i hi heq =>
        hid (of_decide_eq_true heq ▸ hi)⟩

theorem owes_call (id i : Nat) (callback : Callback κ) (value : σ) (version : Nat) :
    Job.owes id (.task (.call (τ := τ) i callback value version)) =
      if i = id then [version] else [] := by
  by_cases hi : i = id <;> simp [Job.owes, Task.due, Task.version, hi]

theorem owes_round_cons (id i : Nat) (callback : Callback κ) (value : σ) (version : Nat)
    (rest : List (Nat × Callback κ)) :
    Job.owes id (.task (.round (τ := τ) value version ((i, callback) :: rest))) =
      Job.owes id (.task (.call (τ := τ) i callback value version)) ++
        Job.owes id (.task (.round (τ := τ) value version rest)) := by
  by_cases hi : i = id <;> simp [Job.owes, Task.due, Task.version, hi]

namespace Hub

variable {behave : κ → σ → Reaction σ τ κ} {h h' : Hub σ τ κ} {id : Nat}

theorem callsOf_published (h : Hub σ τ κ) (value : σ) (id : Nat) :
    callsOf id (h.published value).events = callsOf id h.events :=
  (callsOf_append id h.events _).trans (List.append_nil _)

theorem callsOf_record_called (h : Hub σ τ κ) (id i version : Nat) :
    callsOf id (h.record (.called i version)).events =
      callsOf id h.events ++ if i = id then [version] else [] := by
  rw [record, callsOf_append, callsOf_called]
  exact congrArg _ (List.append_nil _)

/-- A notification that begins owes nothing to what is over. -/
theorem Over.owes_round (ho : h.Over id) (value : σ) (version : Nat) :
    Job.owes id (.task (.round (τ := τ) value version h.source.registry)) = [] := by
  have hnone : h.ids.filter (· = id) = [] :=
    List.filter_eq_nil_iff.2 fun i hi heq => ho.2 (of_decide_eq_true heq ▸ hi)
  exact congrArg (List.map fun _ => version) hnone

/-- A new subscription has another number. -/
theorem Over.owes_new (ho : h.Over id) (callback : Callback κ) (value : σ) (version : Nat) :
    Job.owes id (.task (.round (τ := τ) value version [(h.source.nextId, callback)])) = [] := by
  have hne : h.source.nextId ≠ id := Nat.ne_of_gt ho.1
  simp [Job.owes, Task.due, hne]

/-- The first step of a task makes a call that the task owes, and leaves the others owed. -/
theorem Over.owed_begin (ho : h.Over id) (task : Task σ τ κ) :
    callsOf id (task.begin behave h).1.events ++ owed id (task.begin behave h).2 =
      callsOf id h.events ++ Job.owes id (.task task) := by
  -- a reaction owes nothing itself, so a calm step of it leaves all as it is
  have hcalm : ∀ {h' : Hub σ τ κ} (next : Reaction σ τ κ), Calm h h' →
      callsOf id h'.events ++ owed id [.task (.react next)] = callsOf id h.events ++ [] := by
    intro h' next hc
    rw [hc.callsOf id]
    rfl
  cases task with
  | react reaction =>
      cases reaction with
      | done => rfl
      | report entry next => exact hcalm next (calm_left h entry)
      | read next => exact hcalm _ (.refl h)
      | count next => exact hcalm _ (.refl h)
      | remember next => exact hcalm _ (.refl h)
      | publish change next =>
          show callsOf id (h.published _).events ++ (Job.owes id _ ++ []) = _
          rw [callsOf_published, ho.owes_round]
          rfl
      | subscribe name callback next =>
          show callsOf id h.events ++ (Job.owes id _ ++ []) = _
          rw [ho.owes_new]
          rfl
      | unsubscribe name next => exact hcalm next (calm_unsubscribe h name)
      | detach name next => exact hcalm next (calm_detach h name)
      | addView name project next =>
          show callsOf id h.events ++ (Job.owes id _ ++ []) = _
          rw [ho.owes_new]
          rfl
      | subscribeView name as next => exact hcalm next (calm_followView h name as)
      | dropView name next => exact hcalm next (calm_dismissView h name)
  | notify change =>
      show callsOf id (h.published _).events ++ (Job.owes id _ ++ []) = _
      rw [callsOf_published, ho.owes_round]
      rfl
  | enroll callback =>
      show callsOf id h.events ++ (Job.owes id _ ++ []) = _
      rw [ho.owes_new]
      rfl
  | call i callback value version =>
      rw [owes_call]
      cases callback with
      | listener k =>
          show callsOf id (h.record (.called i version)).events ++ [] = _
          rw [List.append_nil, callsOf_record_called]
      | view key =>
          show callsOf id ((h.record (.called i version)).refresh key).events ++ [] = _
          rw [List.append_nil, (calm_refresh _ key).callsOf id, callsOf_record_called]
  | round value version entries =>
      cases entries with
      | nil => rfl
      | cons entry rest =>
          obtain ⟨i, callback⟩ := entry
          show callsOf id h.events ++ (Job.owes id _ ++ (Job.owes id _ ++ [])) = _
          rw [owes_round_cons, List.append_nil]

/-- The calls that an entry was given and those that it is still owed. -/
def account (id : Nat) (m : Moment σ τ κ) : List Nat := callsOf id m.hub.events ++ owed id m.agenda

/-- **Once a subscription is over, no step changes its account.** -/
theorem account_next {m : Moment σ τ κ} (ho : m.hub.Over id) :
    account id (m.next behave) = account id m := by
  obtain ⟨h, agenda⟩ := m
  cases agenda with
  | nil => rfl
  | cons job rest =>
      cases job with
      | task task =>
          show callsOf id (task.begin behave h).1.events ++
            owed id ((task.begin behave h).2 ++ rest) = _
          rw [owed_append, ← List.append_assoc, Over.owed_begin ho, List.append_assoc]
          rfl
      | hold name i =>
          show callsOf id (h.hold name (.source i)).events ++ owed id ([] ++ rest) = _
          rw [(calm_hold h name _).callsOf id]
          rfl
      | keep name key =>
          show callsOf id (h.keepView name key).events ++ owed id ([] ++ rest) = _
          rw [(calm_keepView h name key).callsOf id]
          rfl

/-- **Nor does any run of steps.** -/
theorem account_of_leads {m m' : Moment σ τ κ} (hl : Moment.Leads behave m m')
    (ho : m.hub.Over id) : m'.hub.Over id ∧ account id m' = account id m := by
  refine hl.holds (P := fun m' => m'.hub.Over id ∧ account id m' = account id m) ?_ ⟨ho, rfl⟩
  rintro m' ⟨ho', hsame⟩
  exact ⟨(lasting_later.next m').over ho', (account_next ho').trans hsame⟩

end Hub

namespace Session

open Hub

variable {behave : κ → σ → Reaction σ τ κ} {depth : Nat} {id : Nat}

/-- A step that ends after a moment of its own adds the calls that are owed then. -/
theorem callsOf_of_leads {m : Moment σ τ κ} {after : Hub σ τ κ}
    (hl : Moment.Leads behave m ⟨after, []⟩) (ho : m.hub.Over id) :
    after.Over id ∧ callsOf id after.events = account id m := by
  obtain ⟨hover, haccount⟩ := account_of_leads hl ho
  exact ⟨hover, (List.append_nil _).symm.trans haccount⟩

/-- What is over between two steps of a run is not called by the later ones. -/
theorem Brings.callsOf_of_over {s : Session σ τ κ} {steps : List (Step σ τ κ)}
    {deeds : List (Deed σ κ)} (hb : Brings behave depth s steps deeds) (ho : s.hub.Over id) :
    callsOf id (s.run behave depth steps).hub.events = callsOf id s.hub.events := by
  induction hb with
  | done => rfl
  | drop _ ih => exact ih ((lasting_later.calm (calm_drop _)).over ho)
  | step _ hdoes _ ih =>
      -- a step begins with a reaction, which owes nothing to what is over
      obtain ⟨hover, hcalls⟩ := callsOf_of_leads (hdoes.leads []) ho
      exact (ih hover).trans (hcalls.trans (List.append_nil _))

/-- **What is over at a moment of a run is called just as often as it is owed then.** -/
theorem Meets.callsOf_of_over {s : Session σ τ κ} {steps : List (Step σ τ κ)}
    {m : Moment σ τ κ} (hm : Meets behave depth s steps m) {deeds : List (Deed σ κ)}
    (hb : Brings behave depth s steps deeds) (ho : m.hub.Over id) :
    callsOf id (s.run behave depth steps).hub.events = account id m := by
  induction hm generalizing deeds with
  | between => exact (hb.callsOf_of_over ho).trans (List.append_nil _).symm
  | within hdrops hl =>
      cases hb with
      | drop _ => cases hdrops
      | step _ hdoes hrest =>
          obtain ⟨hover, hcalls⟩ := callsOf_of_leads (hl.to_end (hdoes.leads [])) ho
          exact (hrest.callsOf_of_over hover).trans hcalls
  | later _ ih =>
      cases hb with
      | drop hrest => exact ih hrest ho
      | step _ _ hrest => exact ih hrest ho

/-- No number is given twice in a run. -/
theorem Meets.numbered {s : Session σ τ κ} {steps : List (Step σ τ κ)} {m : Moment σ τ κ}
    (hm : Meets behave depth s steps m) {deeds : List (Deed σ κ)}
    (hb : Brings behave depth s steps deeds) (hn : s.hub.Numbered) : m.hub.Numbered := by
  induction hm generalizing deeds with
  | between => exact hn
  | within _ hl => exact (lasting_later.leads hl).numbered hn
  | later _ ih =>
      cases hb with
      | drop hrest => exact ih hrest ((lasting_later.calm (calm_drop _)).numbered hn)
      | step _ hdoes hrest => exact ih hrest ((hdoes.holds lasting_later).numbered hn)

end Session

/-- **A cancelled subscription is silent exactly if nobody has still to call it.**  At every moment
    of a run, letting go of the name of a registered subscription ends it.  After a subscription
    is over, the calls it is given are just those that notifications in progress owe it at that
    moment, one for each; so it is called no more exactly if it does not stand among those who
    wait.  Between two steps of the run nobody waits. -/
theorem cancelled_silent_iff (behave : κ → σ → Reaction σ τ κ) (depth : Nat) (a : σ)
    (steps : List (Step σ τ κ)) {h : Hub σ τ κ}
    (hrun : ((Session.ofValue a).run behave depth steps).hub = h) (hdeep : h.tooDeep = false)
    {m : Moment σ τ κ} (hm : Session.Meets behave depth (.ofValue a) steps m) :
    (∀ name id, lookup? name m.hub.handles = some (.source id) → id ∈ m.hub.ids →
      (m.hub.unsubscribe name).Over id ∧ ∀ handle, (m.hub.hold name handle).Over id) ∧
    ∀ id, m.hub.Over id →
      callsOf id h.events = callsOf id m.hub.events ++ owed id m.agenda ∧
      (callsOf id h.events = callsOf id m.hub.events ↔ id ∉ m.waiting) := by
  subst hrun
  obtain ⟨deeds, hbrings⟩ := Session.exists_brings behave depth _ steps hdeep
  have hstart : (Hub.ofValue a : Hub σ τ κ).Numbered := ⟨.nil, nofun⟩
  constructor
  · intro name id hheld hid
    exact Hub.over_of_cancelled (hm.numbered hbrings hstart) hheld hid
  · intro id ho
    have hcalls : callsOf id ((Session.ofValue a).run behave depth steps).hub.events =
        callsOf id m.hub.events ++ owed id m.agenda := hm.callsOf_of_over hbrings ho
    refine ⟨hcalls, ?_⟩
    rw [hcalls, List.append_right_eq_self]
    exact owed_eq_nil_iff m id

/-- A run in which `second` dismisses `first`, which has been called before it. -/
def dismissedBehind : List (Step Int Int (Listener Int)) :=
  [.subscribe "first" ⟨"first", none⟩,
    .subscribe "second" ⟨"second", some (1, .unsubscribe "first")⟩,
    .publish fun _ => 1,
    .publish fun _ => 2]

/-- A run in which `first` dismisses `second`, which is to be called after it. -/
def dismissedAhead : List (Step Int Int (Listener Int)) :=
  [.subscribe "first" ⟨"first", some (1, .unsubscribe "second")⟩,
    .subscribe "second" ⟨"second", none⟩,
    .publish fun _ => 1]

/-- The moments of the third step of a run, by their number. -/
def momentOfThird (steps : List (Step Int Int (Listener Int))) (n : Nat) :
    Moment Int Int (Listener Int) :=
  (Moment.next Listener.behave)^[n]
    ⟨((Session.ofValue 0).run Listener.behave 4 (steps.take 2)).hub,
      [.task (.react (.publish (fun _ => 1) .done))]⟩

/-- When `second` dismisses `first`, nobody has still to call it, and it stays silent in the
    publication that follows. -/
theorem cancelled_silent_behind :
    ∃ (h : Hub Int Int (Listener Int)) (m : Moment Int Int (Listener Int)),
    ((Session.ofValue 0).run Listener.behave 4 dismissedBehind).hub = h ∧ h.tooDeep = false ∧
    Session.Meets Listener.behave 4 (.ofValue 0) dismissedBehind m ∧
    callsOf 1 h.events = [0, 1, 2] ∧ m.hub.Over 0 ∧ 0 ∉ m.waiting ∧
    callsOf 0 h.events = callsOf 0 m.hub.events := by
  have hdeep : ((Session.ofValue 0).run Listener.behave 4 dismissedBehind).hub.tooDeep = false := by
    decide +kernel
  have hm : Session.Meets Listener.behave 4 (.ofValue 0) dismissedBehind
      (momentOfThird dismissedBehind 9) :=
    .later (.later (.within rfl (Moment.leads_iterate _ 9)))
  have hover : (momentOfThird dismissedBehind 9).hub.Over 0 := by decide +kernel
  have hwaits : 0 ∉ (momentOfThird dismissedBehind 9).waiting := by decide +kernel
  obtain ⟨-, hsilent⟩ := cancelled_silent_iff Listener.behave 4 0 dismissedBehind rfl hdeep hm
  exact ⟨_, _, rfl, hdeep, hm, by decide +kernel, hover, hwaits, (hsilent 0 hover).2.2 hwaits⟩

/-- **A cancelled subscription may be called again.**  `second` is registered until `first`
    cancels it, and it is given version 1 after that. -/
theorem cancelled_called_again :
    ∃ (h : Hub Int Int (Listener Int)) (m : Moment Int Int (Listener Int)),
    ((Session.ofValue 0).run Listener.behave 4 dismissedAhead).hub = h ∧ h.tooDeep = false ∧
    Session.Meets Listener.behave 4 (.ofValue 0) dismissedAhead m ∧
    Session.Meets Listener.behave 4 (.ofValue 0) dismissedAhead (m.next Listener.behave) ∧
    lookup? "second" m.hub.handles = some (.source 1) ∧ 1 ∈ m.hub.ids ∧
    (m.next Listener.behave).hub = m.hub.unsubscribe "second" ∧
    (m.next Listener.behave).hub.Over 1 ∧
    callsOf 1 (m.next Listener.behave).hub.events = [0] ∧ callsOf 1 h.events = [0, 1] := by
  have hmeets : ∀ n, Session.Meets Listener.behave 4 (.ofValue 0) dismissedAhead
      (momentOfThird dismissedAhead n) := fun n =>
    .later (.later (.within rfl (Moment.leads_iterate _ n)))
  refine ⟨_, momentOfThird dismissedAhead 4, rfl, by decide +kernel, hmeets 4, hmeets 5, ?_⟩
  refine ⟨by decide +kernel, by decide +kernel, rfl, ?_⟩
  decide +kernel

end ZoneConsole
