import ZoneConsole.Proofs.Observable.Delivery

/-!
# What calls give

The record of a run says with which version an entry was called.  The value that it was given is
the snapshot of that version.

* **`Hub.Current`** — the value of the source is the newest of its snapshots.
* **`Hub.Does.given`**, **`Session.Brings.given`** — what the calls of a task and of a run give.
-/

namespace ZoneConsole

variable {σ τ κ : Type}

/-- A call gives the snapshot of its version. -/
def Happening.Given (snaps : List σ) : Happening σ κ → Prop
  | called _ _ value version => snaps[version]? = some value
  | published _ _ | subscribed _ _ => True

/-- What a round is about to give is the snapshot of its version. -/
def Task.Informs (snaps : List σ) : Task σ τ κ → Prop
  | round value version _ => snaps[version]? = some value
  | _ => True

namespace Hub

variable {behave : κ → σ → Reaction σ τ κ} {task : Task σ τ κ} {h h' : Hub σ τ κ}
  {deeds : List (Deed σ κ)}

/-- The value of the source is the newest of its snapshots. -/
structure Current (a : σ) (h : Hub σ τ κ) : Prop where
  numbered : (snapshots a h.events).length = h.source.version + 1
  newest : (snapshots a h.events)[h.source.version]? = some h.source.value

/-- What a later hub owes to an earlier one: it is current too, and no snapshot is lost. -/
def Remembers (a : σ) (before after : Hub σ τ κ) : Prop :=
  before.Current a →
    after.Current a ∧ snapshots a before.events <+: snapshots a after.events

/-- Nothing but the events of the source makes snapshots. -/
theorem snapshots_filter (a : σ) (events : List (Event σ τ)) :
    snapshots a (events.filter Event.ofSource) = snapshots a events := by
  rw [snapshots, snapshots, List.filterMap_filter]
  refine congrArg (a :: ·) (List.filterMap_congr fun e _ => ?_)
  cases e <;> rfl

theorem Calm.snapshots {h h' : Hub σ τ κ} (hc : Calm h h') (a : σ) :
    ZoneConsole.snapshots a h'.events = ZoneConsole.snapshots a h.events := by
  rw [← snapshots_filter, hc.events, snapshots_filter]

/-- Every part of a task remembers all snapshots. -/
theorem lasting_remembers (a : σ) : Lasting (Remembers (τ := τ) (κ := κ) a) where
  calm {h h'} hc := by
    intro hcurrent
    refine ⟨⟨?_, ?_⟩, hc.snapshots a ▸ List.prefix_refl _⟩
    · rw [hc.snapshots, hc.version, hcurrent.numbered]
    · rw [hc.snapshots, hc.version, hc.value, hcurrent.newest]
  trans hab hbc := by
    intro hcurrent
    obtain ⟨hb, hpre⟩ := hab hcurrent
    obtain ⟨hc, hpre'⟩ := hbc hb
    exact ⟨hc, hpre.trans hpre'⟩
  -- the value that is published comes last, and its place is its version
  published h value := by
    intro hcurrent
    have hsnaps : ZoneConsole.snapshots a (h.published value).events =
        ZoneConsole.snapshots a h.events ++ [value] := snapshots_append ..
    refine ⟨⟨?_, ?_⟩, hsnaps ▸ List.prefix_append ..⟩
    · rw [hsnaps, List.length_append, hcurrent.numbered]
      rfl
    · show (ZoneConsole.snapshots a (h.published value).events)[h.source.version + 1]? = some value
      rw [hsnaps, ← hcurrent.numbered, List.getElem?_concat_length]
  registered h callback := by
    intro hcurrent
    exact ⟨⟨hcurrent.numbered, hcurrent.newest⟩, List.prefix_refl _⟩
  called h id version := by
    intro hcurrent
    have hsnaps : ZoneConsole.snapshots a (h.record (.called id version)).events =
        ZoneConsole.snapshots a h.events :=
      (snapshots_append ..).trans (List.append_nil _)
    refine ⟨⟨?_, ?_⟩, hsnaps ▸ List.prefix_refl _⟩
    · exact hsnaps ▸ hcurrent.numbered
    · exact hsnaps ▸ hcurrent.newest

/-- The newest snapshot stays at its place. -/
theorem Current.newest_stays {a : σ} {snaps : List σ} (hc : h.Current a)
    (hpre : ZoneConsole.snapshots a h.events <+: snaps) :
    snaps[h.source.version]? = some h.source.value := by
  obtain ⟨rest, rfl⟩ := hpre
  exact List.getElem?_append_left (hc.numbered ▸ Nat.lt_succ_self _) |>.trans hc.newest

/-- **What the calls of a task give** is the snapshot of their version, if that is so of the round
    in which the task consists. -/
theorem Does.given {a : σ} {snaps : List σ} (hd : Does behave task h deeds h') (hc : h.Current a)
    (hpre : ZoneConsole.snapshots a h'.events <+: snaps) (hround : task.Informs snaps) :
    ∀ what ∈ chronicle deeds, what.Given snaps := by
  have hlasting := lasting_remembers (τ := τ) (κ := κ) a
  induction hd with
  | done => exact List.forall_mem_nil _
  | report _ ih => exact ih (hlasting.calm (calm_left _ _) hc).1 hpre trivial
  | read _ ih => exact ih hc hpre trivial
  | count _ ih => exact ih hc hpre trivial
  | remember _ ih => exact ih hc hpre trivial
  | publish hfirst hrest ihfirst ihrest =>
      obtain ⟨hbetween, -⟩ := hfirst.holds hlasting hc
      obtain ⟨-, hmore⟩ := hrest.holds hlasting hbetween
      rw [chronicle_append]
      exact List.forall_mem_append.2
        ⟨ihfirst hc (hmore.trans hpre) trivial, ihrest hbetween hpre trivial⟩
  | subscribe hfirst hrest ihfirst ihrest =>
      obtain ⟨hbetween, -⟩ := hfirst.holds hlasting hc
      obtain ⟨hheld, hhold⟩ := hlasting.calm (calm_hold _ _ _) hbetween
      obtain ⟨-, hmore⟩ := hrest.holds hlasting hheld
      rw [chronicle_append]
      exact List.forall_mem_append.2
        ⟨ihfirst hc ((hhold.trans hmore).trans hpre) trivial, ihrest hheld hpre trivial⟩
  | unsubscribe _ ih => exact ih (hlasting.calm (calm_unsubscribe _ _) hc).1 hpre trivial
  | detach _ ih => exact ih (hlasting.calm (calm_detach _ _) hc).1 hpre trivial
  | addView hfirst hrest ihfirst ihrest =>
      obtain ⟨hviewed, -⟩ := hlasting.calm (calm_viewed _ _) hc
      obtain ⟨hbetween, -⟩ := hfirst.holds hlasting hviewed
      obtain ⟨hkept, hkeep⟩ := hlasting.calm (calm_keepView _ _ _) hbetween
      obtain ⟨-, hmore⟩ := hrest.holds hlasting hkept
      rw [chronicle_append]
      exact List.forall_mem_append.2
        ⟨ihfirst hviewed ((hkeep.trans hmore).trans hpre) trivial, ihrest hkept hpre trivial⟩
  | subscribeView _ ih => exact ih (hlasting.calm (calm_followView _ _ _) hc).1 hpre trivial
  | dropView _ ih => exact ih (hlasting.calm (calm_dismissView _ _) hc).1 hpre trivial
  | @notify change h calls h' hcalls ih =>
      obtain ⟨hpublished, -⟩ := hlasting.published h (change h.source.value) hc
      obtain ⟨-, hmore⟩ := hcalls.holds hlasting hpublished
      have hgiven := ih hpublished hpre (hpublished.newest_stays (hmore.trans hpre))
      rw [chronicle_cons]
      simpa [Happening.Given, chronicle] using hgiven
  | @enroll callback h calls h' hcalls ih =>
      obtain ⟨hregistered, -⟩ := hlasting.registered h callback hc
      obtain ⟨-, hmore⟩ := hcalls.holds hlasting hregistered
      have hgiven := ih hregistered hpre (hregistered.newest_stays (hmore.trans hpre))
      rw [chronicle_cons]
      simpa [Happening.Given, chronicle] using hgiven
  | listener _ ih => exact ih (hlasting.called _ _ _ hc).1 hpre trivial
  | view => exact List.forall_mem_nil _
  | nil => exact List.forall_mem_nil _
  | @cons id callback value version rest h within between calls h' hcall hrest ihcall ihrest =>
      obtain ⟨hbetween, -⟩ := hcall.holds hlasting hc
      obtain ⟨-, hmore⟩ := hrest.holds hlasting hbetween
      -- what the call causes comes before the rest, which gives the same snapshot still
      have hwithin := ihcall hc (hmore.trans hpre) trivial
      have hlater := ihrest hbetween hpre hround
      rw [chronicle_cons, List.cons_append, List.forall_mem_cons, List.forall_mem_append]
      exact ⟨hround, hwithin, hlater⟩

end Hub

namespace Session

open Hub

variable {behave : κ → σ → Reaction σ τ κ} {depth : Nat} {a : σ} {snaps : List σ}

/-- **What the calls of a run give** is the snapshot of their version. -/
theorem Brings.given {s : Session σ τ κ} {steps : List (Step σ τ κ)} {deeds : List (Deed σ κ)}
    (hb : Brings behave depth s steps deeds) (hc : s.hub.Current a)
    (hpre : snapshots a (s.run behave depth steps).hub.events <+: snaps) :
    ∀ what ∈ chronicle deeds, what.Given snaps := by
  have hlasting := lasting_remembers (τ := τ) (κ := κ) a
  induction hb with
  | done => exact List.forall_mem_nil _
  | drop _ ih => exact ih (hlasting.calm (calm_drop _) hc).1 hpre
  | step _ hdoes hrest ih =>
      obtain ⟨hnext, -⟩ := hdoes.holds hlasting hc
      obtain ⟨-, hmore⟩ := hrest.holds hlasting hnext
      rw [chronicle_append]
      exact List.forall_mem_append.2 ⟨hdoes.given hc (hmore.trans hpre) trivial, ih hnext hpre⟩

end Session

end ZoneConsole
