import ZoneConsole.Codec.Record
import ZoneConsole.Proofs.Codec.Recovers

/-!
# Records that read back what they write

A record is read member by member, each name looked up among the fields, and built field by
field, each value looked up among the members.  Both directions meet at the names: if each name
is answered by its own field only, what the members check is what the fields build from.

* **`Record.Each`** — a property of every field and of how its value is got.
* **`Record.Unambiguous`** — no field answers to the name of another one.
* **`Field.Restores`** — a field gives a value back, be it written, left out or null.
* **`Record.recovers`** — an unambiguous record of such fields is recovered.
-/

namespace ZoneConsole

variable {β γ : Type}

/-! ### Fields -/

namespace Field

/-- Does the field say nothing about the value? -/
def Silent (f : Field β) (b : β) : Prop := f.omitted b = true ∨ f.codec.encode b = .null

/-- The field gives a value back: from what shows it, and from nothing if it may be left out. -/
structure Restores (f : Field β) (b : β) : Prop where
  reads : ∀ r : Reading, r.Shows (f.codec.encode b) → f.codec.decode r = .ok b
  plain : (f.codec.encode b).Plain
  absent : f.Silent b → f.absentMember = some b

theorem answersTo_name (f : Field β) : f.answersTo f.name = true := by simp [answersTo]

section Names

/-! A field has the name it is made with, and answers to that name and to those it is given
besides. -/

variable (name other : String) (c : Codec β) (value : β) (f : Field β)

@[simp] theorem name_required : (required name c).name = name := rfl

@[simp] theorem name_defaulted : (defaulted name c value).name = name := rfl

@[simp] theorem name_omittable : (omittable name c).name = name := rfl

@[simp] theorem name_nullable : (nullable name c).name = name := rfl

@[simp] theorem name_orNamed : (f.orNamed name).name = f.name := rfl

@[simp] theorem answersTo_required : (required name c).answersTo other = (name == other) :=
  Bool.or_false _

@[simp] theorem answersTo_defaulted :
    (defaulted name c value).answersTo other = (name == other) :=
  Bool.or_false _

@[simp] theorem answersTo_omittable : (omittable name c).answersTo other = (name == other) :=
  Bool.or_false _

@[simp] theorem answersTo_nullable : (nullable name c).answersTo other = (name == other) :=
  Bool.or_false _

@[simp] theorem answersTo_orNamed :
    (f.orNamed name).answersTo other = (other == name || f.answersTo other) := by
  rw [answersTo, orNamed, List.contains_cons, Bool.or_left_comm, answersTo]

end Names

theorem restores_required {c : Codec β} {b : β} (name : String) (hb : c.Recovers b) :
    (required name c).Restores b where
  reads := hb.reads
  plain := hb.plain
  absent := by
    rintro (h | h)
    · cases h
    · exact absurd h hb.notNull

theorem restores_defaulted {c : Codec β} {b : β} (name : String) (value : β)
    (hb : c.Recovers b) : (defaulted name c value).Restores b where
  reads := hb.reads
  plain := hb.plain
  absent := by
    rintro (h | h)
    · cases h
    · exact absurd h hb.notNull

/-- Only none is written as null. -/
theorem eq_none_of_encode {c : Codec β} {o : Option β} (ho : ∀ b ∈ o, c.Recovers b)
    (hnull : c.optional.encode o = .null) : o = none := by
  cases o with
  | none => rfl
  | some b => exact absurd hnull (ho b rfl).notNull

theorem restores_omittable {c : Codec β} {o : Option β} (name : String)
    (ho : ∀ b ∈ o, c.Recovers b) : (omittable name c).Restores o where
  reads _ hr := Codec.optional_reads ho hr
  plain := Codec.optional_plain ho
  absent := by
    rintro (h | h)
    · rw [Option.isNone_iff_eq_none.1 h]
      rfl
    · rw [eq_none_of_encode ho h]
      rfl

theorem restores_nullable {c : Codec β} {o : Option β} (name : String)
    (ho : ∀ b ∈ o, c.Recovers b) : (nullable name c).Restores o where
  reads _ hr := Codec.optional_reads ho hr
  plain := Codec.optional_plain ho
  absent := by
    rintro (h | h)
    · cases h
    · rw [eq_none_of_encode ho h]
      rfl

theorem Restores.orNamed {f : Field β} {b : β} (hf : f.Restores b) (name : String) :
    (f.orNamed name).Restores b where
  reads := hf.reads
  plain := hf.plain
  absent := hf.absent

end Field

namespace Record

/-- A property of every field together with how its value is got. -/
def Each (P : ∀ {β : Type}, Field β → (γ → β) → Prop) : ∀ {α : Type}, Record γ α → Prop
  | _, done _ => True
  | _, field rest f get => rest.Each P ∧ P f get

/-- No field answers to the name of another one. -/
def Unambiguous : ∀ {α : Type}, Record γ α → Prop
  | _, done _ => True
  | _, field rest f _ =>
    rest.Unambiguous ∧
      rest.Each fun g _ => f.answersTo g.name = false ∧ g.answersTo f.name = false

section Listed

variable {α : Type} {P : ∀ {β : Type}, Field β → (γ → β) → Prop} {a : α}
  {rest : Record γ (β → α)} {f : Field β} {get : γ → β}

@[simp] theorem each_done : (done a : Record γ α).Each P := trivial

@[simp] theorem each_field : (field rest f get).Each P ↔ rest.Each P ∧ P f get := Iff.rfl

@[simp] theorem unambiguous_done : (done a : Record γ α).Unambiguous := trivial

@[simp] theorem unambiguous_field :
    (field rest f get).Unambiguous ↔ rest.Unambiguous ∧
      rest.Each fun g _ => f.answersTo g.name = false ∧ g.answersTo f.name = false :=
  Iff.rfl

end Listed

/-- The value that the fields of a structure build together. -/
def value : ∀ {α : Type}, Record γ α → γ → α
  | _, done a, _ => a
  | _, field rest _ get, c => rest.value c (get c)

variable {α : Type}

theorem Each.imp {P Q : ∀ {β : Type}, Field β → (γ → β) → Prop} {fields : Record γ α}
    (h : fields.Each P) (himp : ∀ {β : Type} (f : Field β) (get : γ → β), P f get → Q f get) :
    fields.Each Q := by
  induction fields with
  | done _ => trivial
  | field rest f get ih => exact ⟨ih h.1, himp f get h.2⟩

theorem Each.and {P Q : ∀ {β : Type}, Field β → (γ → β) → Prop} {fields : Record γ α}
    (hp : fields.Each P) (hq : fields.Each Q) :
    fields.Each fun f get => P f get ∧ Q f get := by
  induction fields with
  | done _ => trivial
  | field rest f get ih => exact ⟨ih hp.1 hq.1, hp.2, hq.2⟩

/-- Every field gives its value back. -/
def Restores (fields : Record γ α) (c : γ) : Prop := fields.Each fun f get => f.Restores (get c)

theorem Restores.done (a : α) (c : γ) : (Record.done a : Record γ α).Restores c := trivial

theorem Restores.field {rest : Record γ (β → α)} {f : Field β} {get : γ → β} {c : γ}
    (hrest : rest.Restores c) (hf : f.Restores (get c)) : (rest.field f get).Restores c :=
  ⟨hrest, hf⟩

/-! ### What is written -/

/-- A property of the members is one of what the fields write. -/
theorem forall_members {P : String × Data → Prop} {fields : Record γ α} {c : γ}
    (h : fields.Each fun f get => P (f.name, f.codec.encode (get c))) :
    ∀ m ∈ fields.members c, P m := by
  induction fields with
  | done _ => nofun
  | field rest f get ih =>
      intro m hm
      rcases List.mem_append.1 hm with hm | hm
      · exact ih h.1 m hm
      · split at hm
        · cases hm
        · rw [List.mem_singleton.1 hm]
          exact h.2

/-- The member of the last field is there unless it is left out. -/
theorem mem_members_field {rest : Record γ (β → α)} {f : Field β} {get : γ → β} {c : γ}
    {m : String × Data} (hm : m ∈ (field rest f get).members c) :
    m ∈ rest.members c ∨ m = (f.name, f.codec.encode (get c)) := by
  rcases List.mem_append.1 hm with hm | hm
  · exact .inl hm
  · split at hm
    · cases hm
    · exact .inr (List.mem_singleton.1 hm)

/-- A field answers to no name that other fields have written. -/
theorem answersTo_of_mem {fields : Record γ α} {f : Field β} {c : γ}
    (hf : fields.Each fun g _ => f.answersTo g.name = false ∧ g.answersTo f.name = false) :
    ∀ m ∈ fields.members c, f.answersTo m.1 = false :=
  forall_members (P := fun m => f.answersTo m.1 = false) (hf.imp fun _ _ h => h.1)

theorem distinct_members {fields : Record γ α} (c : γ) (hfields : fields.Unambiguous) :
    Data.Distinct (fields.members c) := by
  induction fields with
  | done _ => exact List.nodup_nil
  | field rest f get ih =>
      obtain ⟨hrest, hf⟩ := hfields
      rw [Data.Distinct, members, List.map_append]
      refine List.nodup_append.2 ⟨ih hrest, ?_, ?_⟩
      · split
        · exact List.nodup_nil
        · exact List.nodup_singleton _
      · rintro _ ha b hb rfl
        obtain ⟨m, hm, rfl⟩ := List.mem_map.1 ha
        have hname := answersTo_of_mem hf m hm
        split at hb
        · cases hb
        · rw [List.mem_singleton.1 hb, f.answersTo_name] at hname
          cases hname

/-- A field that is not left out has its member. -/
theorem each_mem_members (fields : Record γ α) (c : γ) :
    fields.Each fun f get =>
      f.omitted (get c) = false → (f.name, f.codec.encode (get c)) ∈ fields.members c := by
  induction fields with
  | done _ => trivial
  | field rest f get ih =>
      refine ⟨ih.imp fun g get' h hg => List.mem_append_left _ (h hg), fun hf => ?_⟩
      refine List.mem_append_right _ ?_
      rw [hf]
      exact List.mem_cons_self

/-- A field that answers to the name of a member is the one that wrote it. -/
theorem each_answersTo {fields : Record γ α} (c : γ) (hfields : fields.Unambiguous) :
    fields.Each fun f get => ∀ m ∈ fields.members c, f.answersTo m.1 = true →
      m = (f.name, f.codec.encode (get c)) := by
  induction fields with
  | done _ => trivial
  | field rest f get ih =>
      obtain ⟨hrest, hf⟩ := hfields
      refine ⟨((ih hrest).and hf).imp ?_, ?_⟩
      · rintro _ g get' ⟨hown, -, hg⟩ m hm hans
        rcases mem_members_field hm with hm | rfl
        · exact hown m hm hans
        · exact absurd hans (by simp [hg])
      · intro m hm hans
        rcases mem_members_field hm with hm | rfl
        · have hname := answersTo_of_mem hf m hm
          exact absurd hans (by simp [hname])
        · rfl

/-! ### Checking the members -/

/-- The name of a member is known, and the check of its field passes what shows its value. -/
theorem known?_of_mem {fields : Record γ α} {c : γ} (hfields : fields.Unambiguous)
    (hrestores : fields.Restores c) :
    ∀ m ∈ fields.members c, ∃ check, fields.known? m.1 = some (m.1, check) ∧
      ∀ r : Reading, r.Shows m.2 → check r = .ok () := by
  induction fields with
  | done _ => nofun
  | field rest f get ih =>
      obtain ⟨hrest, hf⟩ := hfields
      intro m hm
      rw [known?]
      rcases mem_members_field hm with hm | rfl
      · have hname := answersTo_of_mem hf m hm
        rw [hname]
        exact ih hrest hrestores.1 m hm
      · rw [f.answersTo_name]
        refine ⟨_, rfl, fun r hr => ?_⟩
        show (f.codec.decode r).map (fun _ => ()) = .ok ()
        rw [hrestores.2.reads r hr]
        rfl

/-- Members with names of their own that show what was written are passed. -/
theorem checkMembers_shows {fields : Record γ α} {c : γ} {stop : MapStop}
    (hstop : stop.asked = none) (hfields : fields.Unambiguous)
    (hrestores : fields.Restores c) :
    ∀ (entries : List (String × Data × Reading)) (seen : List String),
      (∀ e ∈ entries, (e.1, e.2.1) ∈ fields.members c) → (∀ e ∈ entries, e.2.2.Shows e.2.1) →
      (entries.map (·.1)).Nodup → (∀ e ∈ entries, e.1 ∉ seen) →
      fields.checkMembers stop seen (entries.map fun e => (.str e.1, e.2.2)) = .ok () := by
  intro entries
  induction entries with
  | nil =>
      intro seen _ _ _ _
      rw [List.map_nil, checkMembers, hstop]
  | cons e entries ih =>
      intro seen hstated hshown hnames hseen
      obtain ⟨hname, hnames⟩ := List.nodup_cons.1 hnames
      obtain ⟨check, hknown, hcheck⟩ :=
        known?_of_mem hfields hrestores _ (hstated e List.mem_cons_self)
      have hnew : seen.contains e.1 = false := by
        simpa using hseen e List.mem_cons_self
      rw [List.map_cons, checkMembers, Codec.memberName]
      simp only [hknown, hnew, hcheck _ (hshown e List.mem_cons_self), Decoded.under,
        Bool.false_eq_true, if_false]
      refine ih (e.1 :: seen) (fun e he => hstated e (List.mem_cons_of_mem _ he))
        (fun e he => hshown e (List.mem_cons_of_mem _ he)) hnames fun e' he' => ?_
      intro hmem
      rcases List.mem_cons.1 hmem with heq | hmem
      · exact hname (List.mem_map.2 ⟨e', he', heq⟩)
      · exact hseen e' (List.mem_cons_of_mem _ he') hmem

/-! ### Building the value -/

/-- What a field finds among members: what shows its value, or nothing where nothing was said. -/
def Finds (readings : List (Reading × Reading)) (f : Field β) (b : β) : Prop :=
  (∃ r, memberOf f readings = some r ∧ r.Shows (f.codec.encode b)) ∨
    (memberOf f readings = none ∧ f.Silent b)

theorem build_of_finds {fields : Record γ α} {c : γ} {readings : List (Reading × Reading)}
    (hrestores : fields.Restores c)
    (hfinds : fields.Each fun f get => Finds readings f (get c)) :
    fields.build readings = .ok (fields.value c) := by
  induction fields with
  | done _ => rfl
  | field rest f get ih =>
      rw [build, ih hrestores.1 hfinds.1]
      rcases hfinds.2 with ⟨r, hfound, hr⟩ | ⟨hfound, hsilent⟩
      · simp only [hfound, hrestores.2.reads r hr]
        rfl
      · simp only [hfound, hrestores.2.absent hsilent]
        rfl

theorem memberOf_entries {f : Field β} {d : Data} {entries : List (String × Data × Reading)}
    (hanswer : ∀ e ∈ entries, f.answersTo e.1 = true → (e.1, e.2.1) = (f.name, d))
    (hshown : ∀ e ∈ entries, e.2.2.Shows e.2.1) :
    (∃ r, memberOf f (entries.map fun e => (.str e.1, e.2.2)) = some r ∧ r.Shows d) ∨
      (memberOf f (entries.map fun e => (.str e.1, e.2.2)) = none ∧
        ∀ e ∈ entries, e.1 ≠ f.name) := by
  induction entries with
  | nil => exact .inr ⟨rfl, nofun⟩
  | cons e entries ih =>
      rw [List.map_cons, memberOf]
      by_cases hans : f.answersTo e.1 = true
      · obtain ⟨-, hd⟩ := Prod.mk.injEq .. ▸ hanswer e List.mem_cons_self hans
        rw [if_pos hans]
        exact .inl ⟨e.2.2, rfl, hd ▸ hshown e List.mem_cons_self⟩
      · rw [if_neg hans]
        rcases ih (fun e he => hanswer e (List.mem_cons_of_mem _ he))
          (fun e he => hshown e (List.mem_cons_of_mem _ he)) with hfound | ⟨hnone, hne⟩
        · exact .inl hfound
        · refine .inr ⟨hnone, fun e' he' => ?_⟩
          rcases List.mem_cons.1 he' with rfl | he'
          · intro hname
            exact hans (hname ▸ f.answersTo_name)
          · exact hne e' he'

/-- **A record recovers what its fields restore**, if their names are told apart. -/
theorem recovers {fields : Record γ γ} {c : γ} (type : String) (hfields : fields.Unambiguous)
    (hvalue : fields.value c = c)
    (hrestores : fields.Restores c) :
    (fields.codec type).Recovers c where
  reads := by
    rintro _ (_ | _ | _ | _ | _ | _ | ⟨entries, hstop, hnames, hstated, hall, hshown⟩)
    have hfinds : fields.Each fun f get =>
        Finds (entries.map fun e => (.str e.1, e.2.2)) f (get c) := by
      refine ((each_answersTo c hfields).and (each_mem_members fields c)).imp ?_
      rintro _ f get ⟨hown, hmember⟩
      rcases memberOf_entries (fun e he => hown _ (hstated e he)) hshown with
        hfound | ⟨hnone, hne⟩
      · exact .inl hfound
      · refine .inr ⟨hnone, ?_⟩
        -- A member that says something has an entry, which the field would have found.
        by_cases homitted : f.omitted (get c) = true
        · exact .inl homitted
        · refine .inr (Classical.byContradiction fun hnull => ?_)
          obtain ⟨e, he, hname⟩ := hall _ (hmember (Bool.eq_false_iff.2 homitted)) hnull
          exact hne e he hname
    have hchecked := checkMembers_shows hstop hfields hrestores entries [] hstated hshown hnames
      (by simp)
    simp only [codec, decode, hchecked]
    exact (build_of_finds hrestores hfinds).trans (congrArg _ hvalue)
  plain := by
    refine ⟨distinct_members c hfields, Data.plainMembers_iff.2 ?_⟩
    exact forall_members (P := fun m => m.2.Plain) (hrestores.imp fun _ _ h => h.plain)
  notNull := nofun

end Record

end ZoneConsole
