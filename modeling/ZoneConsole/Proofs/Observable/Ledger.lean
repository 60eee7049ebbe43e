import Mathlib.Data.List.Nodup
import ZoneConsole.Proofs.Members
import ZoneConsole.Proofs.Observable.Moments
import ZoneConsole.Proofs.Observable.ViewRuns

/-!
# The ledger of subscriptions

A hub has one registry for its source and one for the followers of each view.  Every entry of them
belongs to a subscription that somebody answers for: a name that holds its handle, a view that is
alive, or, if neither does, a list of loose handles, which is for those who keep the ledger.  No
operation on the hub leaves an entry without a subscription or a subscription without an entry.

* **`Observable.Ordered`** — a registry is in the order of its numbers, below the next one.
* **`Hub.entries`** — the entries of all registries, each with its handle.
* **`Hub.Ledger`** — registries are in order, and their entries are just the subscriptions that are
  outstanding.
* **`Ledger.registered`**, **`Ledger.hold`**, **`Ledger.unsubscribe`**, **`Ledger.detach`**,
  **`Ledger.withView`**, **`Ledger.dropView`**, **`Ledger.subscribeView`** — every operation keeps
  the ledger.
* **`Ledger.loses_held`**, **`Ledger.loses_view`** — to cancel is to lose one entry and no other.
* **`Ledger.source_count`**, **`Ledger.output_count`** — what the registries count.
-/

namespace ZoneConsole

variable {σ τ κ : Type}

/-! ### Numbers in order -/

namespace Observable

variable {α : Type} {o : Observable α κ}

/-- Entries stand in the order of their numbers, and the next number is higher. -/
structure Ordered (o : Observable α κ) : Prop where
  increasing : (o.registry.map (·.1)).Pairwise (· < ·)
  below : ∀ id ∈ o.registry.map (·.1), id < o.nextId

theorem ordered_ofValue (a : α) : (ofValue a : Observable α κ).Ordered := ⟨.nil, nofun⟩

theorem Ordered.register (ho : o.Ordered) (callback : κ) : (o.register callback).Ordered where
  increasing := by
    rw [Observable.register, List.map_append]
    refine List.pairwise_append.2 ⟨ho.increasing, List.pairwise_singleton _ _, ?_⟩
    intro id hid next hnext
    rw [List.mem_singleton.1 hnext]
    exact ho.below id hid
  below id hid := by
    rw [Observable.register, List.map_append] at hid
    rcases List.mem_append.1 hid with hid | hid
    · exact Nat.lt_succ_of_lt (ho.below id hid)
    · rw [List.mem_singleton.1 hid]
      exact Nat.lt_succ_self _

theorem Ordered.cancel (ho : o.Ordered) (id : Nat) : (o.cancel id).Ordered :=
  have hsub : ((o.cancel id).registry.map (·.1)).Sublist (o.registry.map (·.1)) :=
    List.filter_sublist.map _
  ⟨ho.increasing.sublist hsub, fun i hi => ho.below i (hsub.subset hi)⟩

theorem Ordered.congr {β : Type} {o' : Observable β κ} (ho : o.Ordered)
    (hnext : o'.nextId = o.nextId) (hregistry : o'.registry = o.registry) : o'.Ordered := by
  constructor
  · rw [hregistry]
    exact ho.increasing
  · rw [hregistry, hnext]
    exact ho.below

theorem Ordered.nodup (ho : o.Ordered) : (o.registry.map (·.1)).Nodup :=
  ho.increasing.imp Nat.ne_of_lt

end Observable

/-! ### Entries -/

/-- What there is to know of a view for the ledger. -/
structure Book where
  key : Nat
  alive : Bool
  nextId : Nat
  registry : List (Nat × String)

namespace View

/-- The book of a view. -/
def book (v : View σ τ) : Book := ⟨v.key, v.alive, v.output.nextId, v.output.registry⟩

/-- A view that is not alive any more. -/
def dead (v : View σ τ) : View σ τ := { v with alive := false }

/-- A view with a follower more. -/
def followed (v : View σ τ) (name : String) : View σ τ :=
  { v with output := v.output.register name }

/-- A view with a follower less. -/
def unfollowed (v : View σ τ) (id : Nat) : View σ τ := { v with output := v.output.cancel id }

end View

namespace Hub

/-- The entries of all registries, those of the source first, each with the handle of its
    subscription and with what it calls. -/
def entries (h : Hub σ τ κ) : List (Handle × (Callback κ ⊕ String)) :=
  h.source.registry.map (fun entry => (.source entry.1, .inl entry.2)) ++
    h.views.flatMap fun v => v.output.registry.map fun entry => (.view v.key entry.1, .inr entry.2)

/-- The handles of all entries. -/
def numbers (h : Hub σ τ κ) : List Handle := h.entries.map (·.1)

/-- The keys of the views that are alive. -/
def liveKeys (h : Hub σ τ κ) : List Nat := (h.views.filter (·.alive)).map (·.key)

/-- The handles of the subscriptions that names hold and that live views have of the source. -/
def kept (h : Hub σ τ κ) : List Handle := h.handles.map (·.2) ++ h.liveKeys.map .source

theorem numbers_eq (h : Hub σ τ κ) : h.numbers = h.ids.map .source ++
    h.views.flatMap fun v => (v.output.registry.map (·.1)).map (.view v.key) := by
  simp [numbers, entries, ids, List.map_flatMap, Function.comp_def]

/-- Registries are in order, names and keys are told apart, and the entries are those of the
    subscriptions that are kept and of those that are loose. -/
structure Ledger (h : Hub σ τ κ) (loose : List Handle) : Prop where
  source : h.source.Ordered
  outputs : ∀ v ∈ h.views, v.output.Ordered
  keys : (h.views.map (·.key)).Nodup
  ahead : ∀ v ∈ h.views, v.key < h.source.nextId
  names : (h.handles.map (·.1)).Nodup
  accounted : h.numbers.Perm (h.kept ++ loose)

theorem ledger_ofValue (a : σ) : (ofValue a : Hub σ τ κ).Ledger [] where
  source := Observable.ordered_ofValue a
  outputs := nofun
  keys := .nil
  ahead := nofun
  names := .nil
  accounted := .nil

variable {h h' : Hub σ τ κ} {loose : List Handle}

theorem Ledger.perm (hl : h.Ledger loose) {others : List Handle} (hp : loose.Perm others) :
    h.Ledger others :=
  { hl with accounted := hl.accounted.trans (hp.append_left _) }

/-- **No handle has two entries.** -/
theorem Ledger.nodup (hl : h.Ledger loose) : h.numbers.Nodup := by
  have hviews :
      (h.views.flatMap fun v => (v.output.registry.map (·.1)).map (Handle.view v.key)).Nodup := by
    refine List.nodup_flatMap.2 ⟨fun v hv => ?_, ?_⟩
    · exact (hl.outputs v hv).nodup.map fun _ _ heq => (Handle.view.inj heq).2
    · refine (List.pairwise_map.1 hl.keys).imp fun {v w} hne handle hv hw => hne ?_
      obtain ⟨_, -, rfl⟩ := List.mem_map.1 hv
      obtain ⟨_, -, heq⟩ := List.mem_map.1 hw
      exact (Handle.view.inj heq).1.symm
  rw [numbers_eq]
  refine List.nodup_append.2 ⟨hl.source.nodup.map fun _ _ heq => Handle.source.inj heq, hviews, ?_⟩
  intro handle hsource other hview heq
  obtain ⟨_, -, rfl⟩ := List.mem_map.1 hsource
  obtain ⟨v, -, hv⟩ := List.mem_flatMap.1 hview
  obtain ⟨_, -, rfl⟩ := List.mem_map.1 hv
  cases heq

/-! ### What leaves the ledger as it is -/

/-- The hubs have the same entries, handles and live views. -/
structure Still (h h' : Hub σ τ κ) : Prop where
  nextId : h'.source.nextId = h.source.nextId
  registry : h'.source.registry = h.source.registry
  handles : h'.handles = h.handles
  views : h'.views.map View.book = h.views.map View.book

theorem Still.refl (h : Hub σ τ κ) : Still h h := ⟨rfl, rfl, rfl, rfl⟩

theorem still_record (h : Hub σ τ κ) (event : Event σ τ) : Still h (h.record event) :=
  ⟨rfl, rfl, rfl, rfl⟩

theorem still_published (h : Hub σ τ κ) (value : σ) : Still h (h.published value) :=
  ⟨rfl, rfl, rfl, rfl⟩

/-- A view publishes to its own followers only, who stay the same. -/
theorem still_refresh (h : Hub σ τ κ) (key : Nat) : Still h (h.refresh key) := by
  unfold refresh
  cases h.view? key with
  | none => exact .refl h
  | some v =>
      by_cases halive : v.alive
      · simp only [halive, if_true]
        refine ⟨rfl, rfl, rfl, ?_⟩
        show (h.views.map _).map View.book = _
        rw [List.map_map]
        refine List.map_congr_left fun w _ => ?_
        rw [Function.comp_apply]
        split <;> rfl
      · simp only [halive]
        exact .refl h

theorem Still.entries (hs : Still h h') : h'.entries = h.entries := by
  have hviews : ∀ h : Hub σ τ κ, (h.views.flatMap fun v => v.output.registry.map fun entry =>
      ((.view v.key entry.1, .inr entry.2) : Handle × (Callback κ ⊕ String))) =
      (h.views.map View.book).flatMap fun b => b.registry.map fun entry =>
        (.view b.key entry.1, .inr entry.2) := fun h => by rw [List.flatMap_map]; rfl
  rw [Hub.entries, Hub.entries, hs.registry, hviews, hviews, hs.views]

theorem Still.liveKeys (hs : Still h h') : h'.liveKeys = h.liveKeys := by
  have hviews : ∀ h : Hub σ τ κ,
      h.liveKeys = ((h.views.map View.book).filter (·.alive)).map (·.key) := fun h => by
    rw [List.filter_map, List.map_map]
    rfl
  rw [hviews, hviews, hs.views]

/-- **What stays still keeps the ledger.** -/
theorem Ledger.still (hl : h.Ledger loose) (hs : Still h h') : h'.Ledger loose := by
  -- values of views may have changed, so what is said of a view is carried over by its book
  have hbook : ∀ v ∈ h'.views, ∃ w ∈ h.views, w.book = v.book := by
    intro v hv
    have hmem := List.mem_map_of_mem (f := View.book) hv
    rw [hs.views] at hmem
    exact List.mem_map.1 hmem
  have hkeys : ∀ h : Hub σ τ κ, h.views.map (·.key) = (h.views.map View.book).map (·.key) :=
    fun h => by rw [List.map_map]; rfl
  constructor
  · exact hl.source.congr hs.nextId hs.registry
  · intro v hv
    obtain ⟨w, hw, heq⟩ := hbook v hv
    exact (hl.outputs w hw).congr (congrArg Book.nextId heq).symm (congrArg Book.registry heq).symm
  · rw [hkeys, hs.views, ← hkeys]
    exact hl.keys
  · intro v hv
    obtain ⟨w, hw, heq⟩ := hbook v hv
    have hkey : w.key = v.key := congrArg Book.key heq
    rw [← hkey, hs.nextId]
    exact hl.ahead w hw
  · rw [hs.handles]
    exact hl.names
  · rw [numbers, kept, hs.entries, hs.handles, hs.liveKeys]
    exact hl.accounted

/-! ### New entries -/

/-- **A registered callback** is called for a subscription that is loose. -/
theorem Ledger.registered (hl : h.Ledger loose) (callback : Callback κ) :
    (h.registered callback).Ledger (.source h.source.nextId :: loose) where
  source := hl.source.register callback
  outputs := hl.outputs
  keys := hl.keys
  ahead v hv := Nat.lt_succ_of_lt (hl.ahead v hv)
  names := hl.names
  accounted := by
    have hids : (h.registered callback).ids = h.ids ++ [h.source.nextId] := by
      simp [ids, Hub.registered, Observable.register]
    rw [numbers_eq, hids, List.map_append, List.append_assoc]
    refine List.perm_middle.trans (.trans (.cons _ ?_) List.perm_middle.symm)
    exact numbers_eq h ▸ hl.accounted

theorem liveKeys_withView (h : Hub σ τ κ) (project : σ → τ) :
    (h.withView project).liveKeys = h.liveKeys ++ [h.source.nextId] := by
  simp [liveKeys, Hub.withView, newView]

/-- **A new view** has its own entry. -/
theorem Ledger.withView (hl : h.Ledger loose) (project : σ → τ) :
    (h.withView project).Ledger loose where
  source := hl.source.register _
  outputs v hv := by
    rcases List.mem_append.1 hv with hv | hv
    · exact hl.outputs v hv
    · rw [List.mem_singleton.1 hv]
      exact Observable.ordered_ofValue _
  keys := by
    rw [Hub.withView, List.map_append]
    refine List.nodup_append.2 ⟨hl.keys, List.nodup_singleton _, ?_⟩
    intro key hkey other hother
    obtain ⟨v, hv, rfl⟩ := List.mem_map.1 hkey
    rw [List.mem_singleton.1 hother]
    exact Nat.ne_of_lt (hl.ahead v hv)
  ahead v hv := by
    rcases List.mem_append.1 hv with hv | hv
    · exact Nat.lt_succ_of_lt (hl.ahead v hv)
    · rw [List.mem_singleton.1 hv]
      exact Nat.lt_succ_self _
  names := hl.names
  accounted := by
    -- its one entry in the registry of the source is its own handle
    have hids : (h.withView project).ids = h.ids ++ [h.source.nextId] := by
      simp [ids, Hub.withView, Observable.register]
    have hviews : ((h.withView project).views.flatMap fun v =>
        (v.output.registry.map (·.1)).map (Handle.view v.key)) =
        h.views.flatMap fun v => (v.output.registry.map (·.1)).map (.view v.key) := by
      simp [Hub.withView, newView, Observable.ofValue]
    have hkept : ((h.withView project).kept ++ loose).Perm
        (.source h.source.nextId :: (h.kept ++ loose)) := by
      rw [kept, liveKeys_withView, List.map_append, ← List.append_assoc, List.append_assoc]
      exact List.perm_middle
    rw [numbers_eq, hids, hviews, List.map_append, List.append_assoc]
    refine List.perm_middle.trans (.trans (.cons _ ?_) hkept.symm)
    exact numbers_eq h ▸ hl.accounted

/-! ### Names -/

/-- What is under a name and what is under other names are all that is in a table. -/
theorem perm_without {α : Type} {table : List (String × α)} (hnames : (table.map (·.1)).Nodup)
    (name : String) : (table.map (·.2)).Perm
      ((lookup? name table).toList ++ (without name table).map (·.2)) := by
  induction table with
  | nil => exact .nil
  | cons entry rest ih =>
      obtain ⟨n, a⟩ := entry
      obtain ⟨hfresh, hrest⟩ := List.nodup_cons.1 hnames
      by_cases hn : n = name
      · -- names are told apart, so nothing else is taken out with the first entry
        have hkept : without name ((n, a) :: rest) = rest := by
          have hall : ∀ e ∈ rest, e.1 ≠ name := fun e he heq =>
            hfresh (List.mem_map.2 ⟨e, he, heq.trans hn.symm⟩)
          rw [without, List.filter_cons_of_neg (by simp [hn]), List.filter_eq_self]
          exact fun e he => decide_eq_true (hall e he)
        rw [hkept, lookup?, if_pos hn]
        exact .refl _
      · have hkept : without name ((n, a) :: rest) = (n, a) :: without name rest :=
          List.filter_cons_of_pos (decide_eq_true hn)
        rw [hkept, lookup?, if_neg hn]
        exact ((ih hrest).cons a).trans List.perm_middle.symm

theorem nodup_without {α : Type} {table : List (String × α)} (hnames : (table.map (·.1)).Nodup)
    (name : String) : ((without name table).map (·.1)).Nodup :=
  hnames.sublist (List.filter_sublist.map _)

theorem notMem_without {α : Type} (name : String) (table : List (String × α)) :
    name ∉ (without name table).map (·.1) := by
  intro h
  obtain ⟨entry, hentry, rfl⟩ := List.mem_map.1 h
  simp [without] at hentry

/-- **A name that lets go of its handle** leaves it loose. -/
theorem Ledger.letGo (hl : h.Ledger loose) (name : String) :
    Ledger { h with handles := without name h.handles }
      ((lookup? name h.handles).toList ++ loose) :=
  { hl with
    names := nodup_without hl.names name
    accounted := by
      have hsplit := (perm_without hl.names name).append_right (h.liveKeys.map .source ++ loose)
      have hswap := List.perm_append_comm_assoc (lookup? name h.handles).toList
        ((without name h.handles).map (·.2) ++ h.liveKeys.map .source) loose
      have hkept : (h.kept ++ loose).Perm ((without name h.handles).map (·.2) ++
          h.liveKeys.map .source ++ ((lookup? name h.handles).toList ++ loose)) := by
        rw [kept, List.append_assoc]
        exact hsplit.trans (by simpa only [List.append_assoc] using hswap)
      exact hl.accounted.trans hkept }

/-- **A name that takes a handle** keeps it from being loose. -/
theorem Ledger.take {handle : Handle} (hl : h.Ledger (handle :: loose)) {name : String}
    (hnew : name ∉ h.handles.map (·.1)) :
    Ledger { h with handles := (name, handle) :: h.handles } loose :=
  { hl with
    names := List.nodup_cons.2 ⟨hnew, hl.names⟩
    accounted := hl.accounted.trans List.perm_middle }

/-! ### Views -/

theorem forall_modifyView {P : View σ τ → Prop} {key : Nat} {f : View σ τ → View σ τ}
    (hviews : ∀ v ∈ h.views, P v) (hf : ∀ v, P v → P (f v)) :
    ∀ v ∈ (h.modifyView key f).views, P v := by
  intro v hv
  obtain ⟨w, hw, rfl⟩ := List.mem_map.1 hv
  split
  · exact hf w (hviews w hw)
  · exact hviews w hw

theorem keys_modifyView (h : Hub σ τ κ) (key : Nat) {f : View σ τ → View σ τ}
    (hkey : ∀ v, (f v).key = v.key) :
    (h.modifyView key f).views.map (·.key) = h.views.map (·.key) := by
  rw [modifyView, List.map_map]
  refine List.map_congr_left fun v _ => ?_
  rw [Function.comp_apply]
  split
  · exact hkey v
  · rfl

/-- A view stands once among the views, no other one has its key, and so a change of it changes no
    other one. -/
theorem exists_split {v : View σ τ} (hkeys : (h.views.map (·.key)).Nodup) (hv : v ∈ h.views) :
    ∃ before after, h.views = before ++ v :: after ∧ (∀ w ∈ before ++ after, w.key ≠ v.key) ∧
      ∀ f, (h.modifyView v.key f).views = before ++ f v :: after := by
  obtain ⟨before, after, hviews⟩ := List.append_of_mem hv
  rw [hviews, List.map_append, List.map_cons] at hkeys
  have hothers : ∀ w ∈ before ++ after, w.key ≠ v.key := by
    have hnew := (List.nodup_cons.1 (List.perm_middle.nodup_iff.1 hkeys)).1
    intro w hw heq
    rw [← List.map_append, ← heq] at hnew
    exact hnew (List.mem_map_of_mem hw)
  refine ⟨before, after, hviews, hothers, fun f => ?_⟩
  have hsame : ∀ part : List (View σ τ), (∀ w ∈ part, w ∈ before ++ after) →
      part.map (fun w => if w.key = v.key then f w else w) = part := fun part hpart =>
    (List.map_congr_left fun w hw => if_neg (hothers w (hpart w hw))).trans (List.map_id part)
  rw [modifyView, hviews, List.map_append, List.map_cons, if_pos rfl,
    hsame before fun w => List.mem_append_left _, hsame after fun w => List.mem_append_right _]

/-- A change of a view that keeps its key and its life keeps the live views. -/
theorem liveKeys_modifyView (h : Hub σ τ κ) (key : Nat) {f : View σ τ → View σ τ}
    (hkey : ∀ v, (f v).key = v.key) (halive : ∀ v, (f v).alive = v.alive) :
    (h.modifyView key f).liveKeys = h.liveKeys := by
  have htags : ∀ h : Hub σ τ κ, h.liveKeys = (h.tags.filter (·.2)).map (·.1) := fun h => by
    rw [tags, List.filter_map, List.map_map]
    rfl
  rw [htags, htags, tags_modifyView h key hkey halive]

/-- A change of a view that keeps its key, its life and the order of its followers keeps all but
    the entries of the ledger. -/
theorem Ledger.modifyView (hl : h.Ledger loose) {key : Nat} {f : View σ τ → View σ τ}
    (hkey : ∀ v, (f v).key = v.key) (halive : ∀ v, (f v).alive = v.alive)
    (hordered : ∀ v, v.output.Ordered → (f v).output.Ordered) {others : List Handle}
    (haccounted : (h.modifyView key f).numbers.Perm (h.kept ++ others)) :
    (h.modifyView key f).Ledger others where
  source := hl.source
  outputs := forall_modifyView hl.outputs hordered
  keys := keys_modifyView h key hkey ▸ hl.keys
  ahead := forall_modifyView (P := fun v => v.key < h.source.nextId) hl.ahead
    fun v hv => (hkey v).symm ▸ hv
  names := hl.names
  accounted := by
    rw [kept, liveKeys_modifyView h key hkey halive]
    exact haccounted

/-! ### Live views -/

theorem liveKeys_release (h : Hub σ τ κ) (handle : Handle) :
    (h.release handle).liveKeys = h.liveKeys := by
  cases handle with
  | source id => rfl
  | view key id =>
      exact liveKeys_modifyView h key (f := (·.unfollowed id))
        (fun _ => rfl) fun _ => rfl

theorem liveKeys_unsubscribe (h : Hub σ τ κ) (name : String) :
    (h.unsubscribe name).liveKeys = h.liveKeys := by
  unfold unsubscribe
  cases lookup? name h.handles with
  | none => rfl
  | some handle => exact liveKeys_release _ handle

theorem liveKeys_hold (h : Hub σ τ κ) (name : String) (handle : Handle) :
    (h.hold name handle).liveKeys = h.liveKeys := by
  unfold hold
  cases lookup? name h.handles with
  | none => rfl
  | some old => exact liveKeys_release _ old

theorem liveKeys_subscribeView (h : Hub σ τ κ) (key : Nat) (name : String) :
    (h.subscribeView key name).liveKeys = h.liveKeys := by
  unfold subscribeView
  cases h.view? key with
  | none => rfl
  | some v =>
      exact (liveKeys_hold _ name _).trans (liveKeys_modifyView h key
        (f := (·.followed name)) (fun _ => rfl) fun _ => rfl)

/-! ### Cancelling -/

/-- **To cancel a handle** is to take out its entry. -/
theorem entries_release (h : Hub σ τ κ) (handle : Handle) :
    (h.release handle).entries = h.entries.filter (·.1 ≠ handle) := by
  cases handle with
  | source id =>
      -- no entry of a view is that of the source, whatever their numbers
      have hviews : (h.views.flatMap fun v => v.output.registry.map fun entry =>
          ((.view v.key entry.1, .inr entry.2) : Handle × (Callback κ ⊕ String))).filter
            (·.1 ≠ .source id) =
          h.views.flatMap fun v => v.output.registry.map fun entry =>
            (.view v.key entry.1, .inr entry.2) := by
        refine List.filter_eq_self.2 fun entry hentry => ?_
        obtain ⟨v, -, hv⟩ := List.mem_flatMap.1 hentry
        obtain ⟨_, -, rfl⟩ := List.mem_map.1 hv
        simp
      rw [entries, entries, List.filter_append, hviews, List.filter_map]
      simp [release, Observable.cancel, Function.comp_def]
  | view key id =>
      have hsource : (h.source.registry.map fun entry =>
          ((.source entry.1, .inl entry.2) : Handle × (Callback κ ⊕ String))).filter
            (·.1 ≠ .view key id) =
          h.source.registry.map fun entry => (.source entry.1, .inl entry.2) := by
        refine List.filter_eq_self.2 fun entry hentry => ?_
        obtain ⟨_, -, rfl⟩ := List.mem_map.1 hentry
        simp
      rw [entries, entries, List.filter_append, hsource, List.filter_flatMap]
      congr 1
      show (h.views.map _).flatMap _ = _
      rw [List.flatMap_map]
      refine List.flatMap_congr fun v _ => ?_
      rw [List.filter_map]
      by_cases hkey : v.key = key
      · simp [hkey, Observable.cancel, Function.comp_def]
      · simp [hkey, Function.comp_def]

theorem numbers_release (h : Hub σ τ κ) (handle : Handle) :
    (h.release handle).numbers = h.numbers.filter (· ≠ handle) := by
  rw [numbers, entries_release, numbers, List.filter_map]
  rfl

/-- **A loose handle is cancelled** with its entry. -/
theorem Ledger.release {handle : Handle} (hl : h.Ledger (handle :: loose)) :
    (h.release handle).Ledger loose := by
  have haccounted : (h.release handle).numbers.Perm (h.kept ++ loose) := by
    have hp : h.numbers.Perm (handle :: (h.kept ++ loose)) :=
      hl.accounted.trans List.perm_middle
    -- no handle has two entries, so the filter takes out this one and leaves all others
    have hnew : handle ∉ h.kept ++ loose := (List.nodup_cons.1 (hp.nodup_iff.1 hl.nodup)).1
    have hothers : (h.kept ++ loose).filter (· ≠ handle) = h.kept ++ loose :=
      List.filter_eq_self.2 fun other hother => decide_eq_true fun heq => hnew (heq ▸ hother)
    have hfilter := hp.filter (· ≠ handle)
    rw [List.filter_cons_of_neg (by simp), hothers] at hfilter
    rwa [numbers_release]
  cases handle with
  | source id =>
      exact { hl with source := hl.source.cancel id, accounted := haccounted }
  | view key id =>
      exact hl.modifyView (f := (·.unfollowed id)) (fun _ => rfl)
        (fun _ => rfl) (fun _ hv => hv.cancel id) haccounted

/-- **A name that unsubscribes** cancels what it holds. -/
theorem Ledger.unsubscribe (hl : h.Ledger loose) (name : String) :
    (h.unsubscribe name).Ledger loose := by
  -- the handle is loose between being let go of and being cancelled
  have hloose := hl.letGo name
  unfold Hub.unsubscribe
  cases hheld : lookup? name h.handles with
  | none => exact hl
  | some handle =>
      rw [hheld] at hloose
      exact hloose.release

/-- **A name that holds a loose handle** cancels what it held before. -/
theorem Ledger.hold {handle : Handle} (hl : h.Ledger (handle :: loose)) (name : String) :
    (h.hold name handle).Ledger loose := by
  -- the name takes the new handle before the old one is cancelled, which both are loose until then
  have htaken := ((hl.letGo name).perm List.perm_middle).take (notMem_without name h.handles)
  unfold Hub.hold
  cases hheld : lookup? name h.handles with
  | none =>
      rw [hheld] at htaken
      exact htaken
  | some old =>
      rw [hheld] at htaken
      exact htaken.release

/-- **A name that detaches** leaves what it held among the loose handles. -/
theorem Ledger.detach (hl : h.Ledger loose) (name : String) :
    (h.detach name).Ledger ((lookup? name h.handles).toList ++ loose) :=
  hl.letGo name

/-! ### Dropping views -/

/-- **To drop a view** is to end its life and to cancel its subscription of the source. -/
theorem dropView_eq (h : Hub σ τ κ) (key : Nat) :
    h.dropView key = (h.modifyView key View.dead).release (.source key) := rfl

/-- A view whose life ends keeps its followers. -/
theorem entries_dead (h : Hub σ τ κ) (key : Nat) :
    (h.modifyView key View.dead).entries = h.entries := by
  refine congrArg (List.append _) ?_
  rw [modifyView, List.flatMap_map]
  refine List.flatMap_congr fun v _ => ?_
  split <;> rfl

/-- A view whose life ends is the only one that is not alive any more. -/
theorem perm_liveKeys_dead (hkeys : (h.views.map (·.key)).Nodup) {key : Nat}
    (hlive : key ∈ h.liveKeys) :
    h.liveKeys.Perm (key :: (h.modifyView key View.dead).liveKeys) := by
  have hkey : ∀ v : View σ τ, (if v.key = key then v.dead else v).key = v.key := by
    intro v
    split <;> rfl
  have hleft : (h.modifyView key View.dead).liveKeys = h.liveKeys.filter (· ≠ key) := by
    rw [liveKeys, liveKeys, Hub.modifyView, List.filter_map, List.map_map, List.filter_map,
      List.filter_filter]
    simp only [Function.comp_def, hkey]
    congr 1
    refine List.filter_congr fun v _ => ?_
    by_cases hv : v.key = key <;> simp [hv, View.dead]
  have herase : h.liveKeys.erase key = h.liveKeys.filter (· ≠ key) := by
    have hnodup : h.liveKeys.Nodup := hkeys.sublist (List.filter_sublist.map _)
    rw [hnodup.erase_eq_filter]
    refine List.filter_congr fun k _ => ?_
    by_cases hk : k = key <;> simp [hk]
  rw [hleft, ← herase]
  exact List.perm_cons_erase hlive

/-- **A view whose life ends** leaves its subscription loose. -/
theorem Ledger.dead (hl : h.Ledger loose) {key : Nat} (hlive : key ∈ h.liveKeys) :
    (h.modifyView key View.dead).Ledger (.source key :: loose) where
  source := hl.source
  outputs := forall_modifyView hl.outputs fun _ hv => hv
  keys := keys_modifyView (f := View.dead) h key (fun _ => rfl) ▸ hl.keys
  ahead := forall_modifyView (P := fun v => v.key < h.source.nextId) hl.ahead fun _ hv => hv
  names := hl.names
  accounted := by
    have hkept : (h.kept ++ loose).Perm
        ((h.modifyView key View.dead).kept ++ .source key :: loose) := by
      have hperm := (perm_liveKeys_dead hl.keys hlive).map Handle.source
      rw [kept, kept]
      refine ((hperm.append_left _).append_right _).trans ?_
      rw [List.map_cons, List.append_assoc, List.append_assoc, List.cons_append]
      exact List.Perm.append_left _ List.perm_middle.symm
    rw [numbers, entries_dead]
    exact hl.accounted.trans hkept

/-- **A live view that is dropped** loses its entry. -/
theorem Ledger.dropView (hl : h.Ledger loose) {key : Nat} (hlive : key ∈ h.liveKeys) :
    (h.dropView key).Ledger loose :=
  (hl.dead hlive).release

/-! ### Following views -/

/-- A new follower of a view has an entry of its own. -/
theorem perm_numbers_register (hl : h.Ledger loose) {v : View σ τ} (hv : v ∈ h.views)
    (name : String) : (h.modifyView v.key (·.followed name)).numbers.Perm
      (.view v.key v.output.nextId :: h.numbers) := by
  obtain ⟨before, after, hviews, -, hmodified⟩ := exists_split hl.keys hv
  rw [numbers_eq, numbers_eq, hmodified, hviews, List.flatMap_append, List.flatMap_append,
    List.flatMap_cons, List.flatMap_cons]
  -- the new entry stands in the midst of the others: to count each handle is to forget where
  refine List.perm_iff_count.2 fun other => ?_
  simp [View.followed, Observable.register, Hub.modifyView, ids, List.count_cons,
    List.count_append]
  omega

/-- **A follower of a view** has its own entry. -/
theorem Ledger.subscribeView (hl : h.Ledger loose) (key : Nat) (name : String) :
    (h.subscribeView key name).Ledger loose := by
  unfold Hub.subscribeView
  cases hview : h.view? key with
  | none => exact hl
  | some v =>
      obtain ⟨hmem, rfl⟩ := mem_of_view? hview
      have hnumbers := (perm_numbers_register hl hmem name).trans (hl.accounted.cons _)
      have hfollowed := hl.modifyView (f := (·.followed name)) (fun _ => rfl) (fun _ => rfl)
        (fun _ hv => hv.register name) (hnumbers.trans List.perm_middle.symm)
      exact (hfollowed.still (still_record _ _)).hold name

/-! ### What is lost -/

/-- The later hub lacks one entry of the earlier one, and has all others in the same order. -/
def Loses (h : Hub σ τ κ) (handle : Handle) (h' : Hub σ τ κ) : Prop :=
  ∃ before callback after, h.entries = before ++ (handle, callback) :: after ∧
    h'.entries = before ++ after

/-- **To take out a handle is to lose one entry**, if the handle has any. -/
theorem Ledger.loses (hl : h.Ledger loose) {handle : Handle} (hmem : handle ∈ h.numbers)
    (hleft : h'.entries = h.entries.filter (·.1 ≠ handle)) : h.Loses handle h' := by
  obtain ⟨entry, hentry, rfl⟩ := List.mem_map.1 hmem
  obtain ⟨before, after, hentries⟩ := List.append_of_mem hentry
  refine ⟨before, entry.2, after, hentries, ?_⟩
  have hnodup := hl.nodup
  rw [numbers, hentries, List.map_append, List.map_cons] at hnodup
  have hothers := (List.nodup_cons.1 (List.perm_middle.nodup_iff.1 hnodup)).1
  rw [← List.map_append] at hothers
  have hkept : ∀ part : List (Handle × (Callback κ ⊕ String)), (∀ e ∈ part, e ∈ before ++ after) →
      part.filter (·.1 ≠ entry.1) = part := fun part hpart => List.filter_eq_self.2 fun e he =>
    decide_eq_true fun heq => hothers (heq ▸ List.mem_map_of_mem (hpart e he))
  rw [hleft, hentries, List.filter_append, List.filter_cons_of_neg (by simp),
    hkept before fun e => List.mem_append_left _, hkept after fun e => List.mem_append_right _]

/-- What a name holds has an entry. -/
theorem Ledger.mem_of_held (hl : h.Ledger loose) {name : String} {handle : Handle}
    (hheld : lookup? name h.handles = some handle) : handle ∈ h.numbers := by
  refine hl.accounted.mem_iff.2 (List.mem_append_left _ (List.mem_append_left _ ?_))
  exact List.mem_map.2 ⟨_, mem_of_lookup? hheld, rfl⟩

/-- **A name that unsubscribes or takes another handle** loses the entry of what it held. -/
theorem Ledger.loses_held (hl : h.Ledger loose) {name : String} {handle : Handle}
    (hheld : lookup? name h.handles = some handle) :
    h.Loses handle (h.unsubscribe name) ∧ ∀ other, h.Loses handle (h.hold name other) := by
  have hmem := hl.mem_of_held hheld
  constructor
  · refine hl.loses hmem ?_
    rw [Hub.unsubscribe, hheld]
    exact entries_release _ handle
  · intro other
    refine hl.loses hmem ?_
    rw [Hub.hold, hheld]
    exact entries_release _ handle

theorem entries_dropView (h : Hub σ τ κ) (key : Nat) :
    (h.dropView key).entries = h.entries.filter (·.1 ≠ .source key) := by
  rw [dropView_eq, entries_release, entries_dead]

/-- **A live view that is dropped** loses its entry of the source. -/
theorem Ledger.loses_view (hl : h.Ledger loose) {key : Nat} (hlive : key ∈ h.liveKeys) :
    h.Loses (.source key) (h.dropView key) := by
  refine hl.loses (hl.accounted.mem_iff.2 ?_) (entries_dropView h key)
  exact List.mem_append_left _ (List.mem_append_right _ (List.mem_map_of_mem hlive))

end Hub

/-! ### Counts -/

/-- What a handle is a subscription of. -/
def Handle.target : Handle → Target
  | .source _ => .source
  | .view key _ => .view key

/-- How many of the handles are subscriptions of a target. -/
def countOn (target : Target) (handles : List Handle) : Nat :=
  handles.countP (·.target = target)

theorem countOn_append (target : Target) (first rest : List Handle) :
    countOn target (first ++ rest) = countOn target first + countOn target rest :=
  List.countP_append

/-- Handles of one target all count for it, and for no other one. -/
theorem countOn_eq (target : Target) {handles : List Handle}
    (h : ∀ handle ∈ handles, handle.target = target) (other : Target) :
    countOn other handles = if target = other then handles.length else 0 := by
  by_cases heq : target = other
  · rw [if_pos heq]
    exact List.countP_eq_length.2 fun handle hh => decide_eq_true ((h handle hh).trans heq)
  · rw [if_neg heq]
    refine List.countP_eq_zero.2 fun handle hh ht => heq ?_
    exact (h handle hh).symm.trans (of_decide_eq_true ht)

namespace Hub

variable {h h' : Hub σ τ κ} {loose : List Handle}

theorem countOn_ids (target : Target) (ids : List Nat) :
    countOn target (ids.map .source) = if .source = target then ids.length else 0 := by
  rw [countOn_eq .source (fun handle hh => ?_), List.length_map]
  obtain ⟨_, -, rfl⟩ := List.mem_map.1 hh
  rfl

/-- The entries of followers count for their views only. -/
theorem countOn_followers {views : List (View σ τ)} {target : Target}
    (h : ∀ v ∈ views, .view v.key ≠ target) :
    countOn target
      (views.flatMap fun v => (v.output.registry.map (·.1)).map (.view v.key)) = 0 := by
  refine List.countP_eq_zero.2 fun handle hh ht => ?_
  obtain ⟨v, hv, hfollower⟩ := List.mem_flatMap.1 hh
  obtain ⟨_, -, rfl⟩ := List.mem_map.1 hfollower
  exact h v hv (of_decide_eq_true ht)

/-- Entries count for a target as the subscriptions do that are outstanding. -/
theorem Ledger.countOn_numbers (hl : h.Ledger loose) (target : Target) :
    countOn target h.numbers = countOn target (h.handles.map (·.2)) +
      (if .source = target then h.liveKeys.length else 0) + countOn target loose := by
  rw [countOn, hl.accounted.countP_eq, ← countOn, kept, countOn_append, countOn_append, countOn_ids]

/-- **The source counts** what is kept of it and what is loose. -/
theorem Ledger.source_count (hl : h.Ledger loose) : h.source.count =
    countOn .source (h.handles.map (·.2)) + h.liveKeys.length + countOn .source loose := by
  have hcount : countOn .source h.numbers = h.source.count := by
    rw [numbers_eq, countOn_append, countOn_ids, if_pos rfl, countOn_followers (by simp),
      Nat.add_zero, ids, List.length_map]
    rfl
  rw [← hcount, hl.countOn_numbers, if_pos rfl]

/-- **A view counts** those of its followers that are kept and those that are loose. -/
theorem Ledger.output_count (hl : h.Ledger loose) {v : View σ τ} (hv : v ∈ h.views) :
    v.output.count = countOn (.view v.key) (h.handles.map (·.2)) + countOn (.view v.key) loose := by
  obtain ⟨before, after, hviews, hothers, -⟩ := exists_split hl.keys hv
  have hown : countOn (.view v.key) ((v.output.registry.map (·.1)).map (.view v.key)) =
      v.output.count := by
    rw [countOn_eq (.view v.key) (fun handle hh => ?_), if_pos rfl, List.length_map,
      List.length_map]
    · rfl
    · obtain ⟨_, -, rfl⟩ := List.mem_map.1 hh
      rfl
  have hother : ∀ w ∈ before ++ after, Target.view w.key ≠ .view v.key := fun w hw heq =>
    hothers w hw (Target.view.inj heq)
  have hsource : Target.source ≠ .view v.key := by simp
  have hcount : countOn (.view v.key) h.numbers = v.output.count := by
    rw [numbers_eq, hviews, List.flatMap_append, List.flatMap_cons, countOn_append, countOn_append,
      countOn_append, countOn_ids, if_neg hsource, hown,
      countOn_followers fun w hw => hother w (List.mem_append_left _ hw),
      countOn_followers fun w hw => hother w (List.mem_append_right _ hw)]
    omega
  rw [← hcount, hl.countOn_numbers, if_neg hsource, Nat.add_zero]

end Hub

end ZoneConsole
