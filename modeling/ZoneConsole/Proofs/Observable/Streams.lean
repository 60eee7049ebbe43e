import ZoneConsole.Proofs.Observable.Channels

/-!
# What streams hand out

A stream keeps the version it saw last and the value it handed out last; its channel keeps only
the newest value.  So a stream may miss what was published in between, but it never misses the
newest value, and never hands out one twice.  The snapshots of a channel are numbered from the
moment at which the stream was made, the value at that moment being number 0.

* **`Consumer`** — streams and their adapters, as one kind of thing: a version seen last, and
  asks that answer by it alone (`Consumer.stream`, `Consumer.adapter`).
* **`Obeys`** — what a sequence of asks goes through, one ask at a time; **`Consumer.obeys`** by
  induction over the run, with `Hub.Continues` for the steps in between.
* **`Lawful`** — what a sequence of asks amounts to as a whole; **`Obeys.lawful`**.
* **`streams_lossless`** — the streams of a run and the adapters made of them.
-/

namespace ZoneConsole

variable {σ τ κ : Type}

/-- The value that is handed out with an answer. -/
def Outcome.value? : Outcome σ τ → Option (σ ⊕ τ)
  | .state a => some (.inl a)
  | .view b => some (.inr b)
  | _ => none

@[simp] theorem Session.value?_valueOutcome (v : σ ⊕ τ) : (valueOutcome v).value? = some v := by
  cases v <;> rfl

/-- An ask of a consumer, with the number of the newest snapshot at that moment, and whether more
    could come. -/
structure Ask (σ τ : Type) where
  newest : Nat
  isOpen : Bool
  answer : Outcome σ τ

namespace Ask

/-- The value that was handed out. -/
def value? (ask : Ask σ τ) : Option (σ ⊕ τ) := ask.answer.value?

/-- The number of the snapshot that was handed out. -/
def number? (ask : Ask σ τ) : Option Nat := ask.value?.map fun _ => ask.newest

end Ask

/-- What an ask is answered, given the number of the snapshot that was seen last: the newest
    snapshot if it was not seen yet, and else that none is there, or that none will be. -/
structure Ask.Answered (snaps : List (σ ⊕ τ)) (seen : Option Nat) (ask : Ask σ τ) : Prop where
  unseen : seen ≠ some ask.newest →
    ∃ v, snaps[ask.newest]? = some v ∧ ask.answer = Session.valueOutcome v
  pending : ask.answer = .pending ↔ seen = some ask.newest ∧ ask.isOpen = true
  closed : ask.answer = .closed ↔ seen = some ask.newest ∧ ask.isOpen = false

/-- The asks of a consumer of the snapshots, of which it may have seen the first.  Snapshots are
    handed out in their order, none of them twice and none that was seen, each is the newest one
    when it is handed out, and once the channel is closed, the end is reported from the second
    ask on at the latest. -/
structure Lawful (snaps : List (σ ⊕ τ)) (seen : Option Nat) (asks : List (Ask σ τ)) : Prop where
  inOrder : (asks.filterMap Ask.value?).Sublist (snaps.drop (seen.elim 0 (· + 1)))
  once : (seen.toList ++ asks.filterMap Ask.number?).Pairwise (· < ·)
  answered : ∀ earlier ask later, asks = earlier ++ ask :: later →
    ask.Answered snaps (seen.toList ++ earlier.filterMap Ask.number?).getLast? ∧
      (ask.isOpen = false → ∀ x ∈ later, x.answer = .closed)

namespace Ask

variable {snaps : List (σ ⊕ τ)} {seen : Option Nat} {ask : Ask σ τ}

/-- An ask that finds the newest snapshot unseen. -/
theorem answered_fresh {v : σ ⊕ τ} (hne : seen ≠ some ask.newest)
    (hv : snaps[ask.newest]? = some v) (hanswer : ask.answer = Session.valueOutcome v) :
    ask.Answered snaps seen := by
  refine ⟨fun _ => ⟨v, hv, hanswer⟩, ?_, ?_⟩
  · cases v <;> simp [hanswer, Session.valueOutcome, hne]
  · cases v <;> simp [hanswer, Session.valueOutcome, hne]

/-- An ask that finds the newest snapshot seen. -/
theorem answered_again (heq : seen = some ask.newest)
    (hanswer : ask.answer = if ask.isOpen then .pending else .closed) :
    ask.Answered snaps seen := by
  refine ⟨fun hne => absurd heq hne, ?_, ?_⟩
  · cases hopen : ask.isOpen <;> simp [hanswer, hopen, heq]
  · cases hopen : ask.isOpen <;> simp [hanswer, hopen, heq]

theorem number?_of_value {v : σ ⊕ τ} (hanswer : ask.answer = Session.valueOutcome v) :
    ask.number? = some ask.newest := by
  simp [number?, value?, hanswer]

theorem value?_of_wait (hanswer : ask.answer = if ask.isOpen then .pending else .closed) :
    ask.value? = none := by
  rw [value?, hanswer]
  cases ask.isOpen <;> rfl

theorem number?_of_wait (hanswer : ask.answer = if ask.isOpen then .pending else .closed) :
    ask.number? = none := by
  rw [number?, value?_of_wait hanswer]
  rfl

end Ask

/-! ### One ask after the other -/

/-- The asks of a consumer that has seen a snapshot last, when the newest one has a number and the
    channel is open or not: numbers only grow, and a closed channel stays as it is. -/
inductive Obeys (snaps : List (σ ⊕ τ)) : Option Nat → Nat → Bool → List (Ask σ τ) → Prop
  | done {seen n o} : Obeys snaps seen n o []
  | fresh {seen n o ask rest v} : n ≤ ask.newest →
      (o = false → ask.isOpen = false ∧ ask.newest = n) → seen ≠ some ask.newest →
      snaps[ask.newest]? = some v → ask.answer = Session.valueOutcome v →
      Obeys snaps (some ask.newest) ask.newest ask.isOpen rest →
      Obeys snaps seen n o (ask :: rest)
  | again {seen n o ask rest} : n ≤ ask.newest →
      (o = false → ask.isOpen = false ∧ ask.newest = n) → seen = some ask.newest →
      ask.answer = (if ask.isOpen then .pending else .closed) →
      Obeys snaps seen ask.newest ask.isOpen rest → Obeys snaps seen n o (ask :: rest)

namespace Obeys

variable {snaps : List (σ ⊕ τ)} {seen : Option Nat} {n n' : Nat} {o o' : Bool}
  {asks : List (Ask σ τ)}

/-- What is obeyed later is obeyed before. -/
theorem weaken (h : Obeys snaps seen n' o' asks) (hle : n ≤ n')
    (hclosed : o = false → o' = false ∧ n' = n) : Obeys snaps seen n o asks := by
  have hstays : ∀ {ask : Ask σ τ}, (o' = false → ask.isOpen = false ∧ ask.newest = n') →
      o = false → ask.isOpen = false ∧ ask.newest = n := by
    intro ask hask ho
    obtain ⟨ho', rfl⟩ := hclosed ho
    exact hask ho'
  cases h with
  | done => exact .done
  | fresh hn hask hne hv hanswer hrest =>
      exact .fresh (Nat.le_trans hle hn) (hstays hask) hne hv hanswer hrest
  | again hn hask heq hanswer hrest =>
      exact .again (Nat.le_trans hle hn) (hstays hask) heq hanswer hrest

/-- The numbers of what was handed out grow. -/
theorem once (h : Obeys snaps seen n o asks) (hseen : ∀ j, seen = some j → j ≤ n) :
    (seen.toList ++ asks.filterMap Ask.number?).Pairwise (· < ·) := by
  induction h with
  | done => cases seen <;> simp
  | @fresh seen n o ask rest v hn _ hne hv hanswer _ ih =>
      have hrest := ih fun j hj => Nat.le_of_eq (Option.some.inj hj).symm
      rw [List.filterMap_cons_some (Ask.number?_of_value hanswer)]
      cases seen with
      | none => exact hrest
      | some j =>
          have hlt : j < ask.newest := Nat.lt_of_le_of_ne (Nat.le_trans (hseen j rfl) hn)
            fun h => hne (congrArg some h)
          refine List.pairwise_cons.2 ⟨?_, hrest⟩
          intro m hm
          rcases List.mem_cons.1 hm with rfl | hm
          · exact hlt
          · exact Nat.lt_trans hlt (List.rel_of_pairwise_cons hrest hm)
  | @again seen n o ask rest hn _ heq hanswer _ ih =>
      rw [List.filterMap_cons_none (Ask.number?_of_wait hanswer)]
      exact ih fun j hj => Nat.le_trans (hseen j hj) hn

/-- What is handed out stands in the snapshots after the one that was seen last. -/
theorem inOrder (h : Obeys snaps seen n o asks) (hseen : ∀ j, seen = some j → j ≤ n) :
    (asks.filterMap Ask.value?).Sublist (snaps.drop (seen.elim 0 (· + 1))) := by
  induction h with
  | done => exact List.nil_sublist _
  | @fresh seen n o ask rest v hn _ hne hv hanswer _ ih =>
      have hrest := ih fun j hj => Nat.le_of_eq (Option.some.inj hj).symm
      have hvalue : ask.value? = some v := by simp [Ask.value?, hanswer]
      obtain ⟨hlt, rfl⟩ := List.getElem?_eq_some_iff.1 hv
      have hle : seen.elim 0 (· + 1) ≤ ask.newest := by
        cases seen with
        | none => exact Nat.zero_le _
        | some j =>
            exact Nat.lt_of_le_of_ne (Nat.le_trans (hseen j rfl) hn)
              fun h => hne (congrArg some h)
      rw [List.filterMap_cons_some hvalue]
      refine .trans ?_ (List.drop_sublist_drop_left snaps hle)
      rw [List.drop_eq_getElem_cons hlt]
      exact hrest.cons_cons _
  | @again seen n o ask rest hn _ heq hanswer _ ih =>
      rw [List.filterMap_cons_none (Ask.value?_of_wait hanswer)]
      exact ih fun j hj => Nat.le_trans (hseen j hj) hn

/-- After the newest snapshot of a closed channel was seen, there is nothing but its end. -/
theorem ended (h : Obeys snaps (some n) n false asks) : ∀ x ∈ asks, x.answer = .closed := by
  induction asks with
  | nil => exact List.forall_mem_nil _
  | cons ask rest ih =>
      cases h with
      | fresh _ hask hne => exact absurd (congrArg some (hask rfl).2.symm) hne
      | again _ hask _ hanswer hrest =>
          obtain ⟨hopen, hnewest⟩ := hask rfl
          rw [hopen, hnewest] at hrest
          rw [hopen] at hanswer
          exact List.forall_mem_cons.2 ⟨hanswer, ih hrest⟩

/-- **What a consumer goes through is lawful.** -/
theorem lawful (h : Obeys snaps seen n o asks) (hseen : ∀ j, seen = some j → j ≤ n) :
    Lawful snaps seen asks := by
  refine ⟨h.inOrder hseen, h.once hseen, ?_⟩
  clear hseen
  intro earlier ask later hasks
  subst hasks
  induction earlier generalizing seen n o with
  | nil =>
      have hlast : seen.toList.getLast? = seen := by cases seen <;> rfl
      rw [List.filterMap_nil, List.append_nil, hlast]
      cases h with
      | fresh _ _ hne hv hanswer hrest =>
          exact ⟨Ask.answered_fresh hne hv hanswer, fun hopen => (hopen ▸ hrest).ended⟩
      | again _ _ heq hanswer hrest =>
          exact ⟨Ask.answered_again heq hanswer, fun hopen => (hopen ▸ heq ▸ hrest).ended⟩
  | cons first earlier ih =>
      cases h with
      | fresh _ _ hne hv hanswer hrest =>
          have hlast := List.getLast?_append_of_ne_nil seen.toList
            (List.cons_ne_nil first.newest (earlier.filterMap Ask.number?))
          rw [List.filterMap_cons_some (Ask.number?_of_value hanswer), hlast]
          exact ih hrest
      | again _ _ heq hanswer hrest =>
          rw [List.filterMap_cons_none (Ask.number?_of_wait hanswer)]
          exact ih hrest

end Obeys

/-! ### Streams and adapters -/

/-- Asks a channel once, having seen a version last. -/
def Channel.ask {α : Type} (c : Channel α) (seen : Option Nat) : Poll α × Option Nat :=
  if seen ≠ some c.version then (.ready c.value, some c.version)
  else (if c.isOpen then .pending else .closed, seen)

theorem Channel.ask_of_seen {α : Type} (c : Channel α) {seen : Option Nat}
    (hseen : seen = some c.version) :
    c.ask seen = (if c.isOpen then .pending else .closed, seen) :=
  if_neg fun h => h hseen

theorem Channel.ask_of_unseen {α : Type} (c : Channel α) {seen : Option Nat}
    (hseen : seen ≠ some c.version) : c.ask seen = (.ready c.value, some c.version) :=
  if_pos hseen

theorem Follower.changed_eq_ask {α : Type} (c : Channel α) (f : Follower α) :
    (f.changed c).1 = (c.ask (some f.seen)).1 ∧
      some (f.changed c).2.seen = (c.ask (some f.seen)).2 := by
  unfold changed
  by_cases hseen : f.seen = c.version
  · rw [c.ask_of_seen (congrArg some hseen)]
    cases hopen : c.isOpen <;> simp [hseen]
  · rw [c.ask_of_unseen fun h => hseen (Option.some.inj h)]
    simp [hseen]

theorem Adapter.next_eq_ask {α : Type} (c : Channel α) (a : Adapter) :
    (a.next c).1 = (c.ask a.seen).1 ∧ (a.next c).2.seen = (c.ask a.seen).2 := by
  unfold next
  by_cases hseen : a.seen = some c.version
  · rw [c.ask_of_seen hseen]
    cases hopen : c.isOpen <;> simp [hseen]
  · rw [c.ask_of_unseen hseen]
    simp [hseen]

namespace Session

/-- May more be published on a target? -/
def isOpen (s : Session σ τ κ) (target : Target) : Bool := (s.channel? target).any (·.isOpen)

/-- The asks of a run that satisfy a test, about a target of which some publications are not
    counted. -/
def asksFrom (behave : κ → σ → Reaction σ τ κ) (depth : Nat) (asked : Step σ τ κ → Bool)
    (target : Target) (base : Nat) (s : Session σ τ κ) : List (Step σ τ κ) → List (Ask σ τ)
  | [] => []
  | step :: rest =>
    let later := asksFrom behave depth asked target base (s.step behave depth step).1 rest
    if asked step then
      ⟨(publications target s.hub.events).length - base, s.isOpen target,
        (s.step behave depth step).2⟩ :: later
    else later

/-- The asks of a run that satisfy a test, about a target whose publications are counted from the
    beginning of the run on. -/
def asks (behave : κ → σ → Reaction σ τ κ) (depth : Nat) (asked : Step σ τ κ → Bool)
    (target : Target) (s : Session σ τ κ) (steps : List (Step σ τ κ)) : List (Ask σ τ) :=
  s.asksFrom behave depth asked target (publications target s.hub.events).length steps

end Session

open Session

/-- Something that is asked for the newest value of its target.  The version that it saw last is
    all that its answers look at, and nothing but its own asks moves it. -/
structure Consumer (behave : κ → σ → Reaction σ τ κ) (depth : Nat) where
  seen? : Session σ τ κ → Option (Target × Option Nat)
  asks : Step σ τ κ → Bool
  ends : Step σ τ κ → Bool
  still : ∀ {step}, asks step = false → ends step = false → ∀ s : Session σ τ κ,
    seen? (s.step behave depth step).1 = seen? s
  asked : ∀ {step}, asks step = true → ∀ {s : Session σ τ κ} {target seen c},
    seen? s = some (target, seen) → s.channel? target = some c →
    (s.step behave depth step).1.hub = s.hub ∧
      seen? (s.step behave depth step).1 = some (target, (c.ask seen).2) ∧
      (s.step behave depth step).2 = pollOutcome (c.ask seen).1

namespace Consumer

variable {behave : κ → σ → Reaction σ τ κ} {depth : Nat}

/-- The stream of a name. -/
def stream (behave : κ → σ → Reaction σ τ κ) (depth : Nat) (name : String) :
    Consumer behave depth where
  seen? s := (lookup? name s.followers).map fun held => (held.1, some held.2.seen)
  asks := Step.asksStream name
  ends := Step.endsStream name
  still hasks hends s := by rw [(stepped behave depth s _).follower name hasks hends]
  asked {step} hasks {s target seen c} hseen hc := by
    cases step with
    | changed other =>
        obtain rfl : other = name := by simpa [Step.asksStream] using hasks
        obtain ⟨⟨t, f⟩, hf, heq⟩ := Option.map_eq_some_iff.1 hseen
        obtain ⟨rfl, rfl⟩ := Prod.mk.inj heq
        obtain ⟨hpoll, hnow⟩ := f.changed_eq_ask c
        simp only [Session.step, hf, hc, lookup?_put, if_true, Option.map_some]
        exact ⟨trivial, by rw [hnow], by rw [hpoll]⟩
    | _ => cases hasks

/-- The adapter of a name. -/
def adapter (behave : κ → σ → Reaction σ τ κ) (depth : Nat) (name : String) :
    Consumer behave depth where
  seen? s := (lookup? name s.adapters).map fun held => (held.1, held.2.seen)
  asks := Step.asksAdapter name
  ends := Step.endsAdapter name
  still hasks hends s := by rw [(stepped behave depth s _).adapter name hasks hends]
  asked {step} hasks {s target seen c} hseen hc := by
    cases step with
    | next other =>
        obtain rfl : other = name := by simpa [Step.asksAdapter] using hasks
        obtain ⟨⟨t, a⟩, ha, heq⟩ := Option.map_eq_some_iff.1 hseen
        obtain ⟨rfl, rfl⟩ := Prod.mk.inj heq
        obtain ⟨hpoll, hnow⟩ := a.next_eq_ask c
        simp only [Session.step, ha, hc, lookup?_put, if_true, Option.map_some]
        exact ⟨trivial, by rw [hnow], by rw [hpoll]⟩
    | _ => cases hasks

/-- The newest of the snapshots after some more publications. -/
theorem newest_append {α : Type} {past news : List α} {n : Nat} {a : α}
    (hlength : past.length = n + 1) (hnewest : past[n]? = some a) :
    (past ++ news)[n + news.length]? = some (news.getLast?.getD a) := by
  rcases List.eq_nil_or_concat' news with rfl | ⟨rest, b, rfl⟩
  · simpa using hnewest
  · have hplace : n + (rest ++ [b]).length = (past ++ rest).length := by
      simp [hlength]
      omega
    rw [hplace, ← List.append_assoc, List.getElem?_concat_length, List.getLast?_concat,
      Option.getD_some]

variable {s : Session σ τ κ} {target : Target} {c : Channel (σ ⊕ τ)} {seen : Option Nat}
  {past : List (σ ⊕ τ)} {base first n : Nat}

/-- **What a consumer goes through in a run.**  Its versions are those of its channel, which had
    the version `first` when the newest snapshot was number 0. -/
theorem obeys (C : Consumer behave depth) {steps : List (Step σ τ κ)}
    (hends : ∀ step ∈ steps, C.ends step = false)
    (hseen : C.seen? s = some (target, seen.map (first + ·))) (hc : s.channel? target = some c)
    (hcount : (publications target s.hub.events).length = base + n)
    (hversion : c.version = first + n) (hpast : past.length = n + 1)
    (hnewest : past[n]? = some c.value) :
    ∃ news, publications target (s.run behave depth steps).hub.events =
        publications target s.hub.events ++ news ∧
      Obeys (past ++ news) seen n c.isOpen
        (s.asksFrom behave depth C.asks target base steps) := by
  induction steps generalizing s c seen past n with
  | nil => exact ⟨[], (List.append_nil _).symm, .done⟩
  | cons step rest ih =>
      obtain ⟨hend, hends⟩ := List.forall_mem_cons.1 hends
      by_cases hasks : C.asks step
      · -- An ask leaves the hub as it is.
        obtain ⟨hhub, hnow, hanswer⟩ := C.asked hasks hseen hc
        have hc' : (s.step behave depth step).1.channel? target = some c := by
          rw [channel?_eq, hhub, ← channel?_eq, hc]
        have hcount' : (publications target (s.step behave depth step).1.hub.events).length =
            base + n := by rw [hhub, hcount]
        have hnumber : (publications target s.hub.events).length - base = n := by omega
        simp only [asksFrom, hasks, if_true, hnumber, isOpen, hc, Option.any_some, hanswer]
        by_cases hold : seen = some n
        · have hask := c.ask_of_seen (hold ▸ congrArg some hversion.symm : seen.map (first + ·) = _)
          rw [hask] at hnow ⊢
          obtain ⟨news, hnews, hobeys⟩ := ih hends hnow hc' hcount' hversion hpast hnewest
          refine ⟨news, hhub ▸ hnews, .again (Nat.le_refl n) (fun ho => ⟨ho, rfl⟩) hold ?_ hobeys⟩
          cases c.isOpen <;> rfl
        · have hunseen : seen.map (first + ·) ≠ some c.version := by
            cases seen with
            | none => simp
            | some j => simpa [hversion] using hold
          have hask := c.ask_of_unseen hunseen
          have hnow' : C.seen? (s.step behave depth step).1 =
              some (target, (some n).map (first + ·)) := by
            rw [hnow, hask, hversion]
            rfl
          rw [hask]
          obtain ⟨news, hnews, hobeys⟩ := ih hends hnow' hc' hcount' hversion hpast hnewest
          refine ⟨news, hhub ▸ hnews,
            .fresh (Nat.le_refl n) (fun ho => ⟨ho, rfl⟩) hold ?_ rfl hobeys⟩
          exact (List.getElem?_append_left (hpast ▸ Nat.lt_succ_self n)).trans hnewest
      · -- Any other step leaves the consumer as it is, and continues its channel.
        rw [Bool.not_eq_true] at hasks
        obtain ⟨c', between, hc', hbetween, hafter⟩ :=
          continues_step behave depth s step c (channel?_eq s target ▸ hc)
        have hcount' : (publications target (s.step behave depth step).1.hub.events).length =
            base + (n + between.length) := by rw [hbetween, List.length_append]; omega
        have hversion' : c'.version = first + (n + between.length) := by
          rw [hafter.version]; omega
        have hpast' : (past ++ between).length = n + between.length + 1 := by
          rw [List.length_append]; omega
        have hnewest' : (past ++ between)[n + between.length]? = some c'.value := by
          rw [newest_append hpast hnewest, hafter.value]
        obtain ⟨news, hnews, hobeys⟩ := ih hends ((C.still hasks hend s).trans hseen)
          ((channel?_eq ..).trans hc') hcount' hversion' hpast' hnewest'
        refine ⟨between ++ news, ?_, ?_⟩
        · rw [run, hnews, hbetween, List.append_assoc]
        · simp only [asksFrom, hasks, Bool.false_eq_true, if_false]
          rw [← List.append_assoc]
          refine hobeys.weaken (Nat.le_add_right _ _) fun hclosed => ?_
          exact ⟨hafter.stays_closed hclosed, by rw [hafter.closed hclosed]; rfl⟩

/-- **The asks of a run are lawful**, whether the consumer has seen the newest snapshot or none
    when the run begins. -/
theorem lawful_run (C : Consumer behave depth) {steps : List (Step σ τ κ)}
    (hends : ∀ step ∈ steps, C.ends step = false) (hc : s.channel? target = some c)
    (hseen : C.seen? s = some (target, seen.map (c.version + ·)))
    (hstart : ∀ j, seen = some j → j ≤ 0) :
    ∃ news, publications target (s.run behave depth steps).hub.events =
        publications target s.hub.events ++ news ∧
      Lawful (c.value :: news) seen (s.asks behave depth C.asks target steps) := by
  have hlength : [c.value].length = 0 + 1 := rfl
  obtain ⟨news, hnews, hobeys⟩ := C.obeys hends hseen hc rfl rfl hlength rfl
  exact ⟨news, hnews, hobeys.lawful hstart⟩

end Consumer

namespace Session

variable {behave : κ → σ → Reaction σ τ κ} {depth : Nat} {s : Session σ τ κ} {target : Target}

/-- A stream shows what an ask of it handed out, and after an ask that handed out nothing what it
    showed before. -/
theorem current_changed (behave : κ → σ → Reaction σ τ κ) (depth : Nat) {name : String}
    {f : Follower (σ ⊕ τ)} (hf : lookup? name s.followers = some (target, f)) :
    ∃ f', lookup? name (s.step behave depth (.changed name)).1.followers = some (target, f') ∧
      f'.current = (s.step behave depth (.changed name)).2.value?.getD f.current := by
  cases hc : s.channel? target with
  | none =>
      simp only [Session.step, hf, hc]
      exact ⟨f, rfl, rfl⟩
  | some c =>
      simp only [Session.step, hf, hc, lookup?_put, if_true]
      refine ⟨_, rfl, ?_⟩
      unfold Follower.changed
      by_cases hseen : f.seen = c.version
      · cases hopen : c.isOpen <;> simp [hseen, pollOutcome, Outcome.value?]
      · simp [hseen, pollOutcome]

/-- **What a stream shows** is what it handed out last. -/
theorem current_run (behave : κ → σ → Reaction σ τ κ) (depth : Nat) {name : String}
    {steps : List (Step σ τ κ)} {f : Follower (σ ⊕ τ)}
    (hends : ∀ step ∈ steps, step.endsStream name = false)
    (hf : lookup? name s.followers = some (target, f)) (base : Nat) :
    ∃ f', lookup? name (s.run behave depth steps).followers = some (target, f') ∧
      f'.current = ((s.asksFrom behave depth (Step.asksStream name) target base steps).filterMap
        Ask.value?).getLast?.getD f.current := by
  induction steps generalizing s f with
  | nil => exact ⟨f, hf, rfl⟩
  | cons step rest ih =>
      obtain ⟨hend, hrest⟩ := List.forall_mem_cons.1 hends
      by_cases hasks : step.asksStream name
      · cases step with
        | changed other =>
            obtain rfl : other = name := by simpa [Step.asksStream] using hasks
            obtain ⟨f', hf', hnow⟩ := current_changed behave depth hf
            obtain ⟨f'', hf'', hlater⟩ := ih hrest hf'
            refine ⟨f'', hf'', ?_⟩
            simp only [asksFrom, hasks, if_true, List.filterMap_cons, Ask.value?]
            rw [hlater, hnow]
            cases (s.step behave depth (.changed other)).2.value? with
            | none => rfl
            | some v => rw [List.getLast?_cons]; rfl
        | _ => cases hasks
      · rw [Bool.not_eq_true] at hasks
        obtain ⟨f', hf', hcurrent⟩ := ih hrest
          (((stepped behave depth s step).follower name hasks hend).trans hf)
        refine ⟨f', hf', ?_⟩
        simp only [asksFrom, hasks, Bool.false_eq_true, if_false]
        exact hcurrent

/-! ### The beginning and the end of a stream -/

/-- What a step begins to follow under a name. -/
def begun? (s : Session σ τ κ) (name : String) : Step σ τ κ → Option Target
  | .watch n => if n = name ∧ s.hub.alive then some .source else none
  | .watchView view n => if n = name then (lookup? view s.hub.named).map .view else none
  | _ => none

theorem step_of_begun? {name : String} {create : Step σ τ κ}
    (hbegun : s.begun? name create = some target) :
    (s.step behave depth create).1 = s.follow name target := by
  cases create with
  | watch n =>
      obtain ⟨⟨rfl, halive⟩, heq⟩ := Option.ite_none_right_eq_some.1 hbegun
      obtain rfl := Option.some.inj heq
      simp only [Session.step, withSource, halive, if_true]
  | watchView view n =>
      obtain ⟨rfl, heq⟩ := Option.ite_none_right_eq_some.1 hbegun
      obtain ⟨key, hkey, rfl⟩ := Option.map_eq_some_iff.1 heq
      simp only [Session.step, hkey]
  | _ => cases hbegun

/-- What names hold stays there, and what they take is there. -/
theorem named_step (behave : κ → σ → Reaction σ τ κ) (depth : Nat) (hs : s.hub.Named)
    (step : Step σ τ κ) : (s.step behave depth step).1.hub.Named := by
  cases hdrops : step.drops with
  | true =>
      obtain rfl := eq_drop_of_drops hdrops
      exact hs
  | false => exact (works_step behave depth s hdrops).named hs

theorem named_run (behave : κ → σ → Reaction σ τ κ) (depth : Nat) (hs : s.hub.Named)
    (steps : List (Step σ τ κ)) : (s.run behave depth steps).hub.Named := by
  induction steps generalizing s with
  | nil => exact hs
  | cons step rest ih => exact ih (named_step behave depth hs step)

theorem named_ofValue (a : σ) : (Hub.ofValue a : Hub σ τ κ).Named := by
  intro name key hkey
  cases hkey

/-- What a step begins to follow is there. -/
theorem isSome_of_begun? (hs : s.hub.Named) {name : String} {create : Step σ τ κ}
    (hbegun : s.begun? name create = some target) : (s.hub.channel? target).isSome := by
  cases create with
  | watch n =>
      obtain ⟨-, heq⟩ := Option.ite_none_right_eq_some.1 hbegun
      obtain rfl := Option.some.inj heq
      rfl
  | watchView view n =>
      obtain ⟨-, heq⟩ := Option.ite_none_right_eq_some.1 hbegun
      obtain ⟨key, hkey, rfl⟩ := Option.map_eq_some_iff.1 heq
      exact hs view key hkey
  | _ => cases hbegun

/-- A run ends the source if one of its steps drops it, and the source stays ended. -/
theorem alive_run (behave : κ → σ → Reaction σ τ κ) (depth : Nat) (s : Session σ τ κ)
    (steps : List (Step σ τ κ)) :
    (s.run behave depth steps).hub.alive = (s.hub.alive && !steps.any Step.drops) := by
  induction steps generalizing s with
  | nil => simp [run]
  | cons step rest ih =>
      rw [run, ih]
      cases hdrops : step.drops with
      | true =>
          obtain rfl := eq_drop_of_drops hdrops
          simp [Session.step, Hub.drop, Step.drops]
      | false =>
          rw [(works_step behave depth s hdrops).alive, List.any_cons, hdrops, Bool.false_or]

end Session

/-- **Streams lose no final update and repeat nothing.**  A stream that a step of any run begins
    hands out what is published on its target from then on, in order, each publication at most
    once, and the newest one only.  It waits only if it has seen the newest one, and after a drop it
    hands out the newest one if it has not seen it, and then reports the end for ever.  It shows
    what it handed out last, or what was there at its beginning.  The adapter that is made of it
    obeys the same law, but has not seen the newest snapshot yet. -/
theorem streams_lossless (behave : κ → σ → Reaction σ τ κ) (depth : Nat) (a : σ)
    (before : List (Step σ τ κ)) {name : String} {create : Step σ τ κ} {target : Target}
    {steps : List (Step σ τ κ)} {s begun later adapted : Session σ τ κ}
    (hbefore : (Session.ofValue a).run behave depth before = s)
    (hcreate : s.begun? name create = some target)
    (hbegun : (s.step behave depth create).1 = begun)
    (hkept : ∀ step ∈ steps, step.endsStream name = false)
    (hlater : begun.run behave depth steps = later)
    (hadapted : (later.step behave depth (.adapt name)).1 = adapted) :
    (∃ c news, s.channel? target = some c ∧
      publications target later.hub.events = publications target s.hub.events ++ news ∧
      Lawful (c.value :: news) (some 0)
        (begun.asks behave depth (Step.asksStream name) target steps) ∧
      (later.step behave depth (.current name)).2 = Session.valueOutcome
        (((begun.asks behave depth (Step.asksStream name) target steps).filterMap
          Ask.value?).getLast?.getD c.value)) ∧
    (∀ more, (∀ step ∈ more, step.endsAdapter name = false) →
      ∃ c news, later.channel? target = some c ∧
        publications target (adapted.run behave depth more).hub.events =
          publications target later.hub.events ++ news ∧
        Lawful (c.value :: news) none
          (adapted.asks behave depth (Step.asksAdapter name) target more)) ∧
    ∀ (t : Session σ τ κ) (taken : List (Step σ τ κ)),
      (t.run behave depth taken).isOpen .source = (t.isOpen .source && !taken.any Step.drops) := by
  have hnamed : s.hub.Named :=
    hbefore ▸ Session.named_run behave depth (Session.named_ofValue a) before
  obtain ⟨c, hc⟩ := Option.isSome_iff_exists.1 (Session.isSome_of_begun? hnamed hcreate)
  rw [← Session.channel?_eq] at hc
  rw [Session.step_of_begun? hcreate, Session.follow, hc] at hbegun
  have hheld : lookup? name begun.followers = some (target, .start c) := by
    rw [← hbegun, lookup?_put, if_pos rfl]
  have hhub : begun.hub = s.hub := by rw [← hbegun]
  have hstart : begun.channel? target = some c := by
    rw [Session.channel?_eq, hhub, ← Session.channel?_eq, hc]
  -- the stream is still held at the end, and shows what it handed out last
  obtain ⟨f, hf, hcurrent⟩ := Session.current_run behave depth hkept hheld
    (publications target begun.hub.events).length
  rw [hlater] at hf
  refine ⟨?_, ?_, Session.alive_run behave depth⟩
  · have hseen : (Consumer.stream behave depth name).seen? begun =
        some (target, (some 0).map (c.version + ·)) := congrArg (Option.map _) hheld
    obtain ⟨news, hnews, hlawful⟩ := (Consumer.stream behave depth name).lawful_run hkept hstart
      hseen fun j hj => Nat.le_of_eq (Option.some.inj hj).symm
    rw [hlater, hhub] at hnews
    refine ⟨c, news, hc, hnews, hlawful, ?_⟩
    simp only [Session.step, hf, hcurrent]
    rfl
  · -- an adapter has seen nothing, so it begins with what is newest when it is made
    intro more hmore
    obtain ⟨c', -, hc', -⟩ := Session.continues_run behave depth begun steps c
      (Session.channel?_eq begun target ▸ hstart)
    simp only [Session.step, hf] at hadapted
    have hhub' : adapted.hub = later.hub := by rw [← hadapted]
    have hstart' : adapted.channel? target = some c' := by
      rw [Session.channel?_eq, hhub', ← hlater, hc']
    have hseen : (Consumer.adapter behave depth name).seen? adapted =
        some (target, (none : Option Nat).map (c'.version + ·)) := by
      rw [← hadapted]
      exact congrArg (Option.map _) ((lookup?_put ..).trans (if_pos rfl))
    obtain ⟨news, hnews, hlawful⟩ := (Consumer.adapter behave depth name).lawful_run hmore hstart'
      hseen fun j hj => by cases hj
    rw [hhub'] at hnews
    exact ⟨c', news, by rw [Session.channel?_eq, ← hlater, hc'], hnews, hlawful⟩

/-- A callback that answers 1 with 2. -/
def flood : List (Step Int Int (Listener Int)) :=
  [.subscribe "echo" ⟨"echo", some (1, .set 2)⟩]

/-- A run with three publications, the second by the callback, and a drop before the last asks. -/
def ebb : List (Step Int Int (Listener Int)) :=
  [.changed "tide", .publish fun _ => 1, .changed "tide", .changed "tide", .publish fun _ => 5,
    .drop, .changed "tide", .changed "tide", .changed "tide"]

/-- The first of the three publications is never seen.  The last one is handed out after the drop,
    and then the end is reported, twice. -/
theorem ebb_lossless : ∃ s begun : Session Int Int (Listener Int),
    (Session.ofValue 0).run Listener.behave 4 flood = s ∧
    (s.step Listener.behave 4 (.watch "tide")).1 = begun ∧
    (begun.asks Listener.behave 4 (Step.asksStream "tide") .source ebb).map Ask.number? =
      [none, some 2, none, some 3, none, none] ∧
    ∃ c news, s.channel? .source = some c ∧
      publications .source (begun.run Listener.behave 4 ebb).hub.events =
        publications .source s.hub.events ++ news ∧
      Lawful (c.value :: news) (some 0)
        (begun.asks Listener.behave 4 (Step.asksStream "tide") .source ebb) := by
  have hkept : ∀ step ∈ ebb, step.endsStream "tide" = false := by decide
  have hcreate : ((Session.ofValue 0).run Listener.behave 4 flood).begun? "tide" (.watch "tide") =
      some .source := by decide +kernel
  refine ⟨_, _, rfl, rfl, by decide +kernel, ?_⟩
  obtain ⟨⟨c, news, hc, hnews, hlawful, -⟩, -⟩ :=
    streams_lossless Listener.behave 4 0 flood rfl hcreate rfl hkept rfl rfl
  exact ⟨c, news, hc, hnews, hlawful⟩

end ZoneConsole
