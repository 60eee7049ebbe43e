import ZoneConsole.Command.Invoke

/-!
# What the operations of runs do

One equation for each operation, from the transcript before it to its result and the
transcript after it.  Commands are made of these operations alone, so that what a command
does is read off by rewriting with them.

* **`run_bind`** — a run goes on from where the first part of it ended, unless that failed.
* **`Shows`** — a report or a notice changes nothing but what has been printed.
* **`run_exchange`**, **`run_load`** — what is asked of the server changes the link alone.
* **`run_settings`**, **`run_save`** — reading settings changes nothing, and writing them
  changes the file alone.
-/

namespace ZoneConsole.Run

@[simp] theorem run_pure (a : α) (t : Transcript) : (pure a : Run α).run.run t = (.ok a, t) := rfl

@[simp] theorem run_throw (f : Failure) (t : Transcript) :
    (throw f : Run α).run.run t = (.error f, t) := rfl

/-- **The second part of a run** starts where the first one ended, and not at all if that
    failed. -/
theorem run_bind (x : Run α) (f : α → Run β) (t : Transcript) :
    (x >>= f).run.run t = match x.run.run t with
      | (.ok a, next) => (f a).run.run next
      | (.error e, next) => (.error e, next) := by
  unfold ExceptT.run StateT.run
  simp only [bind, ExceptT.bind, ExceptT.mk, StateT.bind]
  cases x t with
  | mk result next => cases result <;> rfl

theorem run_bind_ok {x : Run α} {a : α} {t next : Transcript} (h : x.run.run t = (.ok a, next))
    (f : α → Run β) : (x >>= f).run.run t = (f a).run.run next := by
  rw [run_bind, h]

theorem run_bind_error {x : Run α} {e : Failure} {t next : Transcript}
    (h : x.run.run t = (.error e, next)) (f : α → Run β) :
    (x >>= f).run.run t = (.error e, next) := by
  rw [run_bind, h]

/-- A run fails with its first part, whatever that has left behind. -/
theorem fst_bind_error {x : Run α} {e : Failure} {t : Transcript}
    (h : (x.run.run t).1 = .error e) (f : α → Run β) : ((x >>= f).run.run t).1 = .error e := by
  rw [run_bind_error (Prod.ext h rfl) f]

/-- A line beside the output. -/
@[simp] theorem run_note (line : String) (t : Transcript) :
    (note line).run.run t = (.ok (), { t with notes := t.notes ++ line ++ "\n" }) := rfl

/-- The transcript after a notice. -/
def noticed (o : GlobalOptions) (line : String) (t : Transcript) : Transcript :=
  if o.quiet then t else { t with notes := t.notes ++ line ++ "\n" }

@[simp] theorem run_notify (o : GlobalOptions) (line : String) (t : Transcript) :
    (notify o line).run.run t = (.ok (), noticed o line t) := by
  unfold notify noticed
  split
  · exact run_pure () t
  · exact run_note line t

@[simp] theorem noticed_file (o : GlobalOptions) (line : String) (t : Transcript) :
    (noticed o line t).file = t.file := by
  unfold noticed
  split <;> rfl

@[simp] theorem run_orFail_ok (f : ε → Failure) (a : α) (t : Transcript) :
    (orFail f (.ok a)).run.run t = (.ok a, t) := rfl

@[simp] theorem run_orFail_error (f : ε → Failure) (e : ε) (t : Transcript) :
    (orFail f (.error e) : Run α).run.run t = (.error (f e), t) := rfl

/-- What may be an error is a failure if it is one. -/
theorem run_orFail (f : ε → Failure) (r : Except ε α) (t : Transcript) :
    (orFail f r).run.run t = (r.mapError f, t) := by
  cases r <;> rfl

/-- A text of output. -/
@[simp] theorem run_write (text : String) (t : Transcript) :
    (write text).run.run t = (.ok (), { t with out := t.out ++ text }) := rfl

/-- A line of output. -/
@[simp] theorem run_print (line : String) (t : Transcript) :
    (print line).run.run t = (.ok (), { t with out := t.out ++ line ++ "\n" }) := rfl

/-- The transcript after a result has been reported. -/
def reported (o : GlobalOptions) (text : String) (t : Transcript) : Transcript :=
  if o.quiet || text.isEmpty then t else { t with out := t.out ++ text ++ "\n" }

@[simp] theorem run_report (o : GlobalOptions) (text : String) (t : Transcript) :
    (report o text).run.run t = (.ok (), reported o text t) := by
  unfold report reported
  split
  · exact run_pure () t
  · exact run_print text t

/-- Neither a notice nor a report changes more than what has been printed. -/
@[simp] theorem noticed_link (o : GlobalOptions) (line : String) (t : Transcript) :
    (noticed o line t).link = t.link := by
  unfold noticed
  split <;> rfl

@[simp] theorem reported_file (o : GlobalOptions) (text : String) (t : Transcript) :
    (reported o text t).file = t.file := by
  unfold reported
  split <;> rfl

@[simp] theorem reported_link (o : GlobalOptions) (text : String) (t : Transcript) :
    (reported o text t).link = t.link := by
  unfold reported
  split <;> rfl

/-- The transcripts have the same file and the same link, whatever has been printed. -/
structure SameBehind (t u : Transcript) : Prop where
  file : t.file = u.file
  link : t.link = u.link

/-- The run only prints something. -/
def Shows (x : Run Unit) : Prop :=
  ∀ t, (x.run.run t).1 = .ok () ∧ SameBehind (x.run.run t).2 t

theorem shows_write (text : String) : Shows (write text) := fun _ => ⟨rfl, rfl, rfl⟩

theorem shows_print (line : String) : Shows (print line) := fun _ => ⟨rfl, rfl, rfl⟩

theorem shows_note (line : String) : Shows (note line) := fun _ => ⟨rfl, rfl, rfl⟩

theorem shows_notify (o : GlobalOptions) (line : String) : Shows (notify o line) := by
  intro t
  rw [run_notify]
  exact ⟨rfl, noticed_file o line t, noticed_link o line t⟩

theorem shows_report (o : GlobalOptions) (text : String) : Shows (report o text) := by
  intro t
  rw [run_report]
  exact ⟨rfl, reported_file o text t, reported_link o text t⟩

theorem Shows.bind {x y : Run Unit} (hx : Shows x) (hy : Shows y) : Shows (x >>= fun _ => y) := by
  intro t
  obtain ⟨hok, hbehind⟩ := hx t
  obtain ⟨hok', hbehind'⟩ := hy (x.run.run t).2
  rw [run_bind_ok (Prod.ext hok rfl)]
  exact ⟨hok', hbehind'.file.trans hbehind.file, hbehind'.link.trans hbehind.link⟩

/-- **An exchange** gives what it comes to, and changes the link alone. -/
theorem run_exchange (f : ApiError → Failure) (e : Exchange α) (t : Transcript) :
    (exchange f e).run.run t =
      ((e.run t.link).1.mapError f, { t with link := (e.run t.link).2 }) :=
  run_orFail f (e.run t.link).1 { t with link := (e.run t.link).2 }

/-- A store that a load has left, unless the load failed. -/
def loaded [Resource E] (store : Store E) : Except Failure (Store E) :=
  match store.state.error with
  | some message => .error (.loadFailed (Resource.collection E) message)
  | none => .ok store

/-- **A load** gives the store that it leaves, and changes the link alone. -/
theorem run_load [Resource E] (client : Client) (store : Store E) (options : ListOptions)
    (t : Transcript) :
    (load client store options).run.run t =
      (loaded (store.perform client (.load options) t.link).1,
        { t with link := (store.perform client (.load options) t.link).2.2 }) := by
  have hget : (load client store options).run.run t =
      (match (store.perform client (.load options) t.link).1.state.error with
        | some message =>
          (throw (Failure.loadFailed (Resource.collection E) message) : Run (Store E))
        | none => pure (store.perform client (.load options) t.link).1).run.run
          { t with link := (store.perform client (.load options) t.link).2.2 } := rfl
  rw [hget, loaded]
  cases (store.perform client (.load options) t.link).1.state.error with
  | some message => rfl
  | none => rfl

/-- **Settings are read** from the file as it is. -/
@[simp] theorem run_settings (env : Environment) (t : Transcript) :
    (settings env).run.run t = (.ok (Settings.loadOrUsual t.file.text? env), t) := rfl

/-- **Settings are written** to the file, or not at all. -/
theorem run_save (m : Machine) (s : Settings) (t : Transcript) :
    (save m s).run.run t = match s.save t.file (m.arrange s.profiles) with
      | .ok file => (.ok (), { t with file })
      | .error e => (.error (.ofSettings e), t) := by
  have hget : (save m s).run.run t = (match s.save t.file (m.arrange s.profiles) with
      | .ok file => (set { t with file } : Run Unit)
      | .error e => throw (Failure.ofSettings e)).run.run t := rfl
  rw [hget]
  cases s.save t.file (m.arrange s.profiles) with
  | ok file => rfl
  | error e => exact run_throw _ t

end ZoneConsole.Run

namespace ZoneConsole.Ending

/-- The transcript of an ending without failure. -/
def done? : Ending → Option Transcript
  | ran none t => some t
  | ran (some _) _ | refused _ => none

theorem eq_of_done? {e : Ending} {t : Transcript} (h : e.done? = some t) : e = .ran none t := by
  cases e with
  | refused _ => cases h
  | ran failure _ =>
      cases failure with
      | none => exact congrArg _ (Option.some.inj h)
      | some _ => cases h

theorem exists_of_done {e : Ending} (h : e.done?.isSome) : ∃ t, e = .ran none t := by
  obtain ⟨t, ht⟩ := Option.isSome_iff_exists.1 h
  exact ⟨t, eq_of_done? ht⟩

end ZoneConsole.Ending
