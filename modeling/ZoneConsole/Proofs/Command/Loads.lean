import ZoneConsole.Proofs.Command.FailedLoads
import ZoneConsole.Proofs.Command.Precedence

/-!
# What loads show

A list command loads a store that was made for it, and shows what the store holds then.  A view is
made before the load and read after it, and shows what it selects of the page that has arrived.

* **`Surroundings.exists_of_console`** — the parts of a console that can be made.
* **`Store.state_load`**, **`Store.view_load`** — what a first load leaves, and what a view shows
  after it.
* **`Run.run_entities_ok`** — a list of entities gives what the view selects of the page, or all of
  it without a view.
-/

namespace ZoneConsole

/-! ### Consoles -/

/-- **A console that can be made** has a client for an http or https origin, and a new store for
    each collection. -/
theorem Surroundings.exists_of_console {around : Surroundings} {o : GlobalOptions} {c : Console}
    (h : around.console o = .ok c) : ∃ config : ConsoleConfig, WebUrl config.origin ∧
      Client.make config.origin config.apiBase = .ok c.client ∧
      c.zones = .make config.ordering ∧ c.qubes = .make config.ordering := by
  unfold console at h
  split at h
  · cases h
  · rename_i config hconfig
    obtain ⟨-, -, horigin, rfl⟩ := Settings.resolve_eq_ok_iff.1 hconfig
    cases hmake : Console.make (Settings.effective _ o) with
    | error e =>
        rw [hmake] at h
        cases h
    | ok made =>
        rw [hmake] at h
        obtain rfl := Except.ok.inj h
        obtain ⟨client, hclient, rfl⟩ := exists_of_map_ok hmake
        exact ⟨_, horigin, hclient, rfl, rfl⟩

/-- The parts of a client that can be made. -/
theorem Client.origin_of_make {origin setting : String} {c : Client}
    (h : Client.make origin setting = .ok c) : Url.parse origin = .ok c.origin := by
  unfold make at h
  split at h
  · cases h
  · rename_i url hurl
    split at h
    · cases h
    · obtain rfl := Except.ok.inj h
      exact hurl

/-- The origin of a console has a path of segments. -/
theorem Surroundings.origin_hasSegments {around : Surroundings} {o : GlobalOptions} {c : Console}
    (h : around.console o = .ok c) : c.client.origin.HasSegments := by
  obtain ⟨config, ⟨url, hurl, hscheme⟩, hclient, -, -⟩ := around.exists_of_console h
  obtain rfl := Except.ok.inj (hurl.symm.trans (Client.origin_of_make hclient))
  refine Url.parse_hierarchical hurl ?_
  rcases hscheme with h | h
  · rw [h]
    rfl
  · rw [h]
    rfl

/-! ### Stores -/

variable {E : Type}

namespace Collection

/-- The collection of a page that was loaded first. -/
def ofItems (es : List E) : Collection E := ⟨Store.share 0 es, false, none⟩

/-- What a view shows of the collection of a page, or all of it without a view. -/
def selected (view : Option (Collection E → List (Shared E))) (es : List E) : List E :=
  match view with
  | none => es
  | some project => (project (ofItems es)).map (·.value)

/-- Entities that are shared are still the same, in the same order. -/
theorem values_share (tag : Nat) (es : List E) : (Store.share tag es).map (·.value) = es := by
  have hvalue : ((fun item : Shared E => item.value) ∘
      fun p : E × Nat => (⟨p.2, p.1⟩ : Shared E)) = Prod.fst := rfl
  rw [Store.share, List.map_map, hvalue, List.zipIdx_map_fst]

end Collection

namespace Store

/-- **A first load** leaves the collection of the page. -/
theorem state_load (ordering : LoadOrdering) (es : List E) :
    ((make ordering).startLoad.endLoad 1 (.ok es)).state = .ofItems es := by
  cases ordering <;> rfl

/-- A view that was made before it does not change that. -/
theorem state_load_viewed (ordering : LoadOrdering) (project : Collection E → List (Shared E))
    (es : List E) :
    (((make ordering).step (.addView "shown" project)).1.startLoad.endLoad 1 (.ok es)).state =
      .ofItems es := by
  cases ordering <;> rfl

/-- **A view** that was made before a first load shows what it selects of the page. -/
theorem view_load (ordering : LoadOrdering) (project : Collection E → List (Shared E))
    (es : List E) :
    ((((make ordering).step (.addView "shown" project)).1.startLoad.endLoad 1 (.ok es)).step
      (.viewValue "shown")).2 = .view (project (.ofItems es)) := by
  cases ordering <;> rfl

end Store

/-! ### Commands -/

namespace Run

section Entities

variable [Resource E] {client : Client} {options : ListOptions} {t : Transcript}
  {page : Resource.Page E}

/-- **A first load that is given a page** goes on with the store that it leaves. -/
theorem run_load_ok (store : Store E) (hnew : store.issued = 0)
    (h : ((client.list E options).run t.link).1 = .ok page)
    (herror : (store.startLoad.endLoad 1 (.ok (Resource.items page))).state.error = none) :
    (load client store options).run.run t =
      (.ok (store.startLoad.endLoad 1 (.ok (Resource.items page))),
        { t with link := ((client.list E options).run t.link).2 }) := by
  have hstore : (store.perform client (.load options) t.link).1 =
      store.startLoad.endLoad 1 (.ok (Resource.items page)) := by
    have hissued : store.startLoad.issued = 1 := congrArg (· + 1) hnew
    rw [Store.perform_fst]
    show store.startLoad.apply ((Operation.load options).event store.startLoad.issued _) = _
    rw [Operation.event_load, h, hissued]
    rfl
  rw [run_load, hstore, loaded, herror, Store.perform_after, Exchange.run_after]

/-- **A list of entities** that is given a page gives what the view selects of it. -/
theorem run_entities_ok (ordering : LoadOrdering)
    (h : ((client.list E options).run t.link).1 = .ok page)
    (view : Option (Collection E → List (Shared E))) :
    (entities client (.make ordering) options view).run.run t =
      (.ok (Collection.selected view (Resource.items page)),
        { t with link := ((client.list E options).run t.link).2 }) := by
  cases view with
  | none =>
      have hstate := Store.state_load ordering (Resource.items page)
      have hload := run_load_ok (.make ordering) rfl h (congrArg Collection.error hstate)
      rw [entities, run_bind_ok hload, run_pure, hstate]
      exact congrArg (fun es => (Except.ok es, _)) (Collection.values_share 0 (Resource.items page))
  | some project =>
      -- the view is made before the load, and must be told of it to show the page
      have hstate := Store.state_load_viewed ordering project (Resource.items page)
      have hload := run_load_ok ((Store.make ordering).step (.addView "shown" project)).1
        rfl h (congrArg Collection.error hstate)
      rw [entities, run_bind_ok hload, Store.view_load]
      rfl

end Entities

end Run

end ZoneConsole
