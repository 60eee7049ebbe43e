import Mathlib.Data.List.Induction
import ZoneConsole.Proofs.Members
import ZoneConsole.Proofs.Store.Ledger

/-!
# Histories of a store

A `History` tells what happened to one store, with a name for each load: loads start and
end in any order, other operations end, the error is cleared, the store is reset.  A
`Desk` plays it: it takes the token of each load when the load starts and keeps it until
the load ends.

* **`History.newest`** — the load that started last, unless a reset came after it.
* **`Desk.tracks_play`** — tokens say nothing more than that: while a load is under way,
  its token equals the count of the store exactly if the load is the newest one.
* **`Desk.started_of_waiting`** — a load under way has started and has not ended since.
-/

namespace ZoneConsole

variable {E : Type}

/-- A zone of which only the identity matters, for instances of what is proved. -/
def Zone.ofId (id : String) : Zone :=
  let noon : Timestamp := ⟨⟨2025, 3, 1⟩, 12, 0, 0, 0, by decide⟩
  ⟨id, "zone", .proxmox, .disconnected, .empty, noon, noon⟩

/-- An end of an operation other than a load, or the clearing of the error. -/
inductive Change (E : Type)
  | created (result : Except ApiError E)
  | replaced (id : String) (result : Except ApiError E)
  | removed (id : String) (result : Except ApiError Unit)
  | errorCleared

/-- The event that a change is. -/
def Change.event : Change E → StoreEvent E
  | created result => .created result
  | replaced id result => .replaced id result
  | removed id result => .removed id result
  | errorCleared => .errorCleared

/-- One move of a history, in which loads have names. -/
inductive Move (E : Type)
  | start (load : String)
  | finish (load : String) (result : Except ApiError (List E))
  | change (change : Change E)
  | reset

namespace Move

/-- The load that starts or ends. -/
def load? : Move E → Option String
  | start load | finish load _ => some load
  | change _ | reset => none

/-- Is this the start of the load? -/
def starts (load : String) : Move E → Bool
  | start l => l = load
  | _ => false

/-- Is this the end of the load? -/
def ends (load : String) : Move E → Bool
  | finish l _ => l = load
  | _ => false

/-- Does the move supersede the loads under way? -/
def supersedes : Move E → Bool
  | start _ | reset => true
  | finish _ _ | change _ => false

/-- The newest load after a move, given the one before it. -/
def newestAfter (newest : Option String) : Move E → Option String
  | start load => some load
  | reset => none
  | finish _ _ | change _ => newest

end Move

/-- What happened to a store, in order. -/
abbrev History (E : Type) := List (Move E)

namespace History

/-- The load that started last, unless a reset came after it. -/
def newest (h : History E) : Option String := h.foldl Move.newestAfter none

/-- The loads that start, in order. -/
def loads (h : History E) : List String :=
  h.filterMap fun
    | .start load => some load
    | _ => none

/-- What happens after the start of a load. -/
def afterStart (h : History E) (load : String) : History E :=
  (h.dropWhile (!·.starts load)).tail

/-- What happens while a load is under way: up to its end, or all the rest. -/
def during (h : History E) (load : String) : History E :=
  (h.afterStart load).takeWhile (!·.ends load)

/-- Does another load start, or a reset happen, while the load is under way? -/
def superseded (h : History E) (load : String) : Bool := (h.during load).any Move.supersedes

theorem newest_concat (h : History E) (m : Move E) :
    newest (h ++ [m]) = m.newestAfter (newest h) := by
  simp [newest]

/-- The newest load has started, and nothing has superseded it. -/
theorem newest_eq_some {h : History E} {load : String} (hn : newest h = some load) :
    ∃ before after, h = before ++ .start load :: after ∧ after.any Move.supersedes = false := by
  induction h using List.reverseRecOn with
  | nil => exact nomatch hn
  | append_singleton h m ih =>
      rw [newest_concat] at hn
      cases m with
      | start l =>
          obtain rfl : l = load := Option.some.inj hn
          exact ⟨h, [], rfl, rfl⟩
      | reset => exact nomatch hn
      | finish l result =>
          obtain ⟨before, after, rfl, hs⟩ := ih hn
          exact ⟨before, after ++ [.finish l result], by simp, by simp [hs, Move.supersedes]⟩
      | change c =>
          obtain ⟨before, after, rfl, hs⟩ := ih hn
          exact ⟨before, after ++ [.change c], by simp, by simp [hs, Move.supersedes]⟩

/-- A load that nothing has superseded since its start is the newest one. -/
theorem newest_of_not_supersedes (before : History E) (load : String) {after : History E}
    (hs : after.any Move.supersedes = false) :
    newest (before ++ .start load :: after) = some load := by
  induction after using List.reverseRecOn with
  | nil => exact newest_concat before (.start load)
  | append_singleton after m ih =>
      rw [List.any_append, Bool.or_eq_false_iff] at hs
      have hm : m.supersedes = false := by simpa using hs.2
      rw [← List.cons_append, ← List.append_assoc, newest_concat, ih hs.1]
      cases m with
      | start l => exact nomatch hm
      | reset => exact nomatch hm
      | finish l result => rfl
      | change c => rfl

theorem mem_loads {h : History E} {load : String} : load ∈ h.loads ↔ Move.start load ∈ h := by
  simp only [loads, List.mem_filterMap]
  constructor
  · rintro ⟨m, hm, hl⟩
    cases m with
    | start l => exact Option.some.inj hl ▸ hm
    | finish l result => exact nomatch hl
    | change c => exact nomatch hl
    | reset => exact nomatch hl
  · intro hm
    exact ⟨_, hm, rfl⟩

theorem loads_append (before after : History E) :
    loads (before ++ after) = loads before ++ loads after :=
  List.filterMap_append

/-- If names are not used twice, what follows the start of a load is found by the name. -/
theorem afterStart_append {before : History E} {load : String} (hb : load ∉ before.loads)
    (after : History E) : afterStart (before ++ .start load :: after) load = after := by
  have hnot : ∀ m ∈ before, (!m.starts load) = true := by
    intro m hm
    cases m with
    | start l =>
        have hne : l ≠ load := fun heq => hb (mem_loads.2 (heq ▸ hm))
        simp [Move.starts, hne]
    | finish l result => rfl
    | change c => rfl
    | reset => rfl
  rw [afterStart, List.dropWhile_append_of_pos hnot]
  simp [Move.starts]

/-- The name of a load that starts at some place does not start before that place. -/
theorem not_mem_loads_of_nodup {before after : History E} {load : String}
    (hnames : (loads (before ++ .start load :: after)).Nodup) : load ∉ before.loads := by
  rw [loads_append] at hnames
  have hd := (List.nodup_append.1 hnames).2.2
  intro hb
  exact hd load hb load (mem_loads.2 List.mem_cons_self) rfl

end History

/-- A store with the tokens of the loads that are under way. -/
structure Desk (E : Type) where
  store : Store E
  waiting : List (String × Nat)

namespace Desk

variable [Resource E]

/-- A desk with a store before anything was loaded. -/
def make (ordering : LoadOrdering) : Desk E := ⟨.make ordering, []⟩

/-- The effect of a move.  A load takes its token when it starts, and gives it back when it
    ends; the end of a load that is not under way is none. -/
def move (d : Desk E) : Move E → Desk E
  | .start load =>
    let store := d.store.apply .loadStarted
    ⟨store, put load store.issued d.waiting⟩
  | .finish load result =>
    match lookup? load d.waiting with
    | some token => ⟨d.store.apply (.loadEnded token result), without load d.waiting⟩
    | none => d
  | .change c => { d with store := d.store.apply c.event }
  | .reset => { d with store := d.store.apply .reset }

/-- The effect of a history from the beginning. -/
def play (ordering : LoadOrdering) (h : History E) : Desk E := h.foldl move (make ordering)

theorem play_concat (ordering : LoadOrdering) (h : History E) (m : Move E) :
    play ordering (h ++ [m]) = (play ordering h).move m := by
  simp [play]

theorem live_move {d : Desk E} (hd : d.store.Live) (m : Move E) : (d.move m).store.Live := by
  cases m with
  | start load => exact Store.live_apply hd _
  | finish load result =>
      simp only [move]
      cases lookup? load d.waiting with
      | none => exact hd
      | some token => exact Store.live_apply hd _
  | change c => exact Store.live_apply hd _
  | reset => exact Store.live_apply hd _

theorem live_play (ordering : LoadOrdering) (h : History E) : (play ordering h).store.Live := by
  induction h using List.reverseRecOn with
  | nil => exact Store.live_make ordering
  | append_singleton h m ih =>
      rw [play_concat]
      exact live_move ih m

/-- Playing a history keeps the ordering of loads. -/
theorem ordering_play (ordering : LoadOrdering) (h : History E) :
    (play ordering h).store.ordering = ordering := by
  have hstep : ∀ (s : Store E) (event : StoreEvent E), s.Live →
      (s.apply event).ordering = s.ordering := by
    intro s event hs
    have hl := congrArg Ledger.ordering (Store.ledger_apply hs event)
    rwa [Ledger.ordering_apply] at hl
  induction h using List.reverseRecOn with
  | nil => rfl
  | append_singleton h m ih =>
      have hlive := live_play ordering h
      rw [play_concat]
      cases m with
      | start load => exact (hstep _ _ hlive).trans ih
      | finish load result =>
          simp only [move]
          cases lookup? load (play ordering h).waiting with
          | none => exact ih
          | some token => exact (hstep _ _ hlive).trans ih
      | change c => exact (hstep _ _ hlive).trans ih
      | reset => exact (hstep _ _ hlive).trans ih

/-- The token of a load under way equals the count of the store if and only if the load is
    the newest one. -/
def Tracks (d : Desk E) (newest : Option String) : Prop :=
  ∀ load token, lookup? load d.waiting = some token →
    token ≤ d.store.issued ∧ (d.store.issued = token ↔ newest = some load)

/-- One move keeps tokens and the newest load together. -/
theorem tracks_move {d : Desk E} {newest : Option String} (hd : d.store.Live)
    (ht : d.Tracks newest) (m : Move E) : (d.move m).Tracks (m.newestAfter newest) := by
  have hissued : ∀ event : StoreEvent E,
      (d.store.apply event).issued = d.store.issued + event.issues := by
    intro event
    have hl := congrArg Ledger.issued (Store.ledger_apply hd event)
    rwa [Ledger.issued_apply] at hl
  cases m with
  | start load =>
      intro other token hlook
      have hcount := hissued .loadStarted
      simp only [move, lookup?_put] at hlook ⊢
      simp only [Move.newestAfter, hcount, StoreEvent.issues] at hlook ⊢
      by_cases ho : other = load
      · rw [if_pos ho] at hlook
        obtain rfl := Option.some.inj hlook
        exact ⟨Nat.le_refl _, by simp [ho]⟩
      · -- an older token is below the new count
        rw [if_neg ho] at hlook
        have hle := (ht other token hlook).1
        refine ⟨by omega, ?_, ?_⟩
        · intro heq
          omega
        · intro heq
          exact absurd (Option.some.inj heq).symm ho
  | finish load result =>
      simp only [move]
      cases hl : lookup? load d.waiting with
      | none => exact ht
      | some token =>
          intro other token' hlook
          simp only [lookup?_without] at hlook
          by_cases ho : other = load
          · rw [if_pos ho] at hlook
            exact nomatch hlook
          · rw [if_neg ho] at hlook
            have hcount := hissued (.loadEnded token result)
            simp only [StoreEvent.issues, Nat.add_zero] at hcount
            simp only [hcount]
            exact ht other token' hlook
  | change c =>
      have hcount : (d.store.apply c.event).issued = d.store.issued := by
        rw [hissued]
        cases c <;> rfl
      intro other token hlook
      simp only [move, hcount]
      exact ht other token hlook
  | reset =>
      intro other token hlook
      have hle := (ht other token hlook).1
      simp only [move, Move.newestAfter, hissued, StoreEvent.issues]
      refine ⟨by omega, ?_, ?_⟩
      · intro heq
        omega
      · intro heq
        exact nomatch heq

/-- Tokens and the newest load are together in every history. -/
theorem tracks_play (ordering : LoadOrdering) (h : History E) :
    (play ordering h).Tracks h.newest := by
  induction h using List.reverseRecOn with
  | nil => intro load token hlook; exact nomatch hlook
  | append_singleton h m ih =>
      rw [play_concat, History.newest_concat]
      exact tracks_move (live_play ordering h) ih m

/-- A load under way has started, and has not ended since. -/
theorem started_of_waiting {ordering : LoadOrdering} {h : History E} {load : String} {token : Nat}
    (hlook : lookup? load (play ordering h).waiting = some token) :
    ∃ before after, h = before ++ .start load :: after ∧ ∀ m ∈ after, m.ends load = false := by
  induction h using List.reverseRecOn with
  | nil => exact nomatch hlook
  | append_singleton h m ih =>
      -- a move that does not end the load leaves what was known of it
      have hold : m.ends load = false →
          lookup? load (play ordering h).waiting = some token →
          ∃ before after, h ++ [m] = before ++ .start load :: after ∧
            ∀ m ∈ after, m.ends load = false := by
        intro hm hl
        obtain ⟨before, after, hh, hends⟩ := ih hl
        refine ⟨before, after ++ [m], by simp [hh], ?_⟩
        intro m' hm'
        rcases List.mem_append.1 hm' with hin | hin
        · exact hends m' hin
        · exact List.mem_singleton.1 hin ▸ hm
      rw [play_concat] at hlook
      cases m with
      | start l =>
          simp only [move, lookup?_put] at hlook
          by_cases hl : load = l
          · exact ⟨h, [], by rw [hl], by simp⟩
          · rw [if_neg hl] at hlook
            exact hold rfl hlook
      | finish l result =>
          simp only [move] at hlook
          have hne : load ≠ l := by
            intro heq
            subst heq
            cases hl : lookup? load (play ordering h).waiting with
            | none => simp [hl] at hlook
            | some token' => simp [hl, lookup?_without] at hlook
          refine hold (by simp [Move.ends, Ne.symm hne]) ?_
          cases hl : lookup? l (play ordering h).waiting with
          | none => simpa only [hl] using hlook
          | some token' => simpa only [hl, lookup?_without, if_neg hne] using hlook
      | change c => exact hold rfl hlook
      | reset => exact hold rfl hlook

end Desk

end ZoneConsole
