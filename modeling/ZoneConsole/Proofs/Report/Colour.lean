import ZoneConsole.Proofs.Report.Bare
import ZoneConsole.Proofs.Store.History

/-!
# What colours change

A status is painted before the table is drawn, and the sequences that paint it count as text: the
column of statuses is wider with colours than without, and so are the rules.  In a block of fields
nothing is measured but names, and a status changes the text only where it is empty, since paint
keeps an empty field from being left out.  Beside that, nothing is lost and nothing moves to
another line or column.

* **`drawTable_widened`** — a table with a wider column is another one without its sequences too.
* **`renderList_widened`** — a list whose painted cells are wider than all others.
* **`bareCell_zone`**, **`bareCell_qube`** — a painted status shows what the status shows.
* **`uncoloured_health`** — the block of a health with a status differs in the sequences only.
* **`colour_removable_iff`** — all of it, for every list of zones or qubes and every health.
-/

namespace ZoneConsole

open Text

/-! ### Tables that are wider -/

/-- What stands before the first of a mark is told by the text. -/
theorem eq_of_append_mark {mark : Char} {a b x y : List Char} (ha : mark ∉ a) (hb : mark ∉ b)
    (h : a ++ mark :: x = b ++ mark :: y) : a = b := by
  have hbefore : ∀ {cs : List Char}, mark ∉ cs → ∀ rest : List Char,
      (cs ++ mark :: rest).takeWhile (· != mark) = cs := fun hcs rest =>
    takeWhile_stops (fun c hc => bne_iff_ne.2 fun heq => hcs (heq ▸ hc))
      (stops_cons (by simp) rest)
  rw [← hbefore ha x, h, hbefore hb y]

/-- **A table with a wider column** is another one without its sequences as well: the rule above
    it tells the width. -/
theorem drawTable_widened {k bound : Nat} {header : List String} {rows rows' : List (List String)}
    (hbound : 0 < bound) (hheader : columnAt k (header.map cellWidth) < bound)
    (hplain : ∀ row ∈ rows', columnAt k (row.map cellWidth) < bound) {row : List String}
    (hrow : row ∈ rows) (hwide : bound ≤ columnAt k (row.map cellWidth)) :
    uncoloured (drawTable header rows).toList ≠ (drawTable header rows').toList := by
  intro h
  obtain ⟨more, hmore⟩ := exists_drawTable header rows
  obtain ⟨more', hmore'⟩ := exists_drawTable header rows'
  have hbreak : uncoloured ('\n' :: more) = '\n' :: uncoloured more := rfl
  rw [hmore, hmore', uncoloured_append_of_plain
    (notMem_rule _ (by decide) (by decide) (by decide) (by decide)), hbreak] at h
  -- neither rule has a line break, so the texts agree up to their first ones
  have hrules := eq_of_append_mark
    (notMem_rule _ (by decide) (by decide) (by decide) (by decide))
    (notMem_rule _ (by decide) (by decide) (by decide) (by decide)) h
  have hwidths := rule_injective (by decide) (by decide) (by decide) hrules
  have hwider : columnAt k (columnWidths (header :: rows)) ≥ bound :=
    Nat.le_trans hwide (le_columnAt_columnWidths (List.mem_cons_of_mem _ hrow))
  have hnarrow : columnAt k (columnWidths (header :: rows')) < bound := by
    refine columnAt_columnWidths_lt hbound fun other hother => ?_
    rcases List.mem_cons.1 hother with rfl | hother
    · exact hheader
    · exact hplain other hother
  rw [hwidths] at hwider
  exact Nat.not_lt.2 hwider hnarrow

/-- **A list whose painted cells are wider** is shown with another table unless it is empty, and
    with one that differs in blanks and rules only. -/
theorem renderList_widened {α : Type} {d : Display α} {k w : Nat} (hbound : 0 < w)
    (hheader : columnAt k (d.header.map cellWidth) < w)
    (hplain : ∀ a, columnAt k ((d.cells false a).map cellWidth) < w)
    (hpainted : ∀ a, w ≤ columnAt k ((d.cells true a).map cellWidth))
    (hlength : ∀ color a, (d.cells color a).length = d.header.length)
    (hbare : ∀ a, (d.cells true a).map bareCell = (d.cells false a).map bareCell)
    (hempty : escape ∉ (drawTable d.header []).toList) (items : List α) :
    (uncoloured (renderList d .table true items).toList =
      (renderList d .table false items).toList ↔ items = []) ∧
    bare (renderList d .table true items).toList =
      bare (renderList d .table false items).toList := by
  have hrows : ∀ color, ∀ row ∈ items.map (d.cells color), row.length = d.header.length := by
    intro color row hrow
    obtain ⟨a, -, rfl⟩ := List.mem_map.1 hrow
    exact hlength color a
  refine ⟨⟨fun h => ?_, fun h => h ▸ uncoloured_of_plain hempty⟩,
    bare_drawTable (hrows true) (hrows false) ?_⟩
  · cases items with
    | nil => rfl
    | cons a rest =>
        refine absurd h (drawTable_widened hbound hheader (fun row hrow => ?_)
          (List.mem_cons_self (a := d.cells true a)) (hpainted a))
        obtain ⟨b, -, rfl⟩ := List.mem_map.1 hrow
        exact hplain b
  · rw [List.map_map, List.map_map]
    exact List.map_congr_left fun a _ => hbare a

/-! ### Statuses in tables -/

/-- A painted status shows what the status shows, and is wider than every status that is not
    painted. -/
theorem bareCell_zone (s : ZoneStatus) :
    bareCell (paintStatus true s.name) = bareCell s.name ∧
      cellWidth s.name < 13 ∧ 13 ≤ cellWidth (paintStatus true s.name) := by
  cases s <;> decide +kernel

@[inherit_doc bareCell_zone]
theorem bareCell_qube (s : QubeStatus) :
    bareCell (paintStatus true s.name) = bareCell s.name ∧
      cellWidth s.name < 9 ∧ 9 ≤ cellWidth (paintStatus true s.name) := by
  cases s <;> decide +kernel

/-! ### Blocks of fields -/

/-- A field without a value is left out. -/
theorem detailBlock_cons_empty (name : String) (fields : List (String × String)) :
    detailBlock ((name, "") :: fields) = detailBlock fields := rfl

/-- The fields that have a value. -/
def valued (fields : List (String × String)) : List (String × String) :=
  fields.filter fun field => !field.2.isEmpty

/-- The width of the longest name. -/
def nameWidth (fields : List (String × String)) : Nat :=
  (fields.map fun field => field.1.length).foldl max 0

/-- The line of a field, with its name filled up to a width. -/
def fieldLine (width : Nat) (field : String × String) : String :=
  String.ofList (List.replicate (width - field.1.length) ' ') ++ field.1 ++ ": " ++ field.2

theorem detailBlock_eq (fields : List (String × String)) : detailBlock fields =
    joinTexts ((valued fields).map (fieldLine (nameWidth (valued fields)))) := rfl

/-- **A field with a value** stands first with its name, and what is around it does not depend on
    the value. -/
theorem exists_detailBlock (name : String) (fields : List (String × String)) :
    ∃ pad below, Stops inSequence below ∧ ∀ value, value ≠ "" →
      (detailBlock ((name, value) :: fields)).toList =
        List.replicate pad ' ' ++ (name.toList ++ ':' :: ' ' :: (value.toList ++ below)) := by
  let width := nameWidth ((name, "") :: valued fields)
  refine ⟨width - name.length,
    (((valued fields).map (fieldLine width)).map String.toList).flatMap ('\n' :: ·),
    stops_below _, fun value hvalue => ?_⟩
  have hvalued : valued ((name, value) :: fields) = (name, value) :: valued fields := by
    simp [valued, hvalue]
  have hwidth : nameWidth ((name, value) :: valued fields) = width := rfl
  rw [detailBlock_eq, hvalued, hwidth, joinTexts, String.toList_ofList, List.map_cons,
    List.map_cons, joinLines_cons]
  simp [fieldLine]

/-- A block of fields is empty or begins with one of the names. -/
theorem detailBlock_cases (fields : List (String × String)) :
    (detailBlock fields).toList = [] ∨ ∃ field ∈ fields, ∃ pad more,
      (detailBlock fields).toList = List.replicate pad ' ' ++ (field.1.toList ++ more) := by
  induction fields with
  | nil => exact .inl rfl
  | cons field rest ih =>
      obtain ⟨name, value⟩ := field
      by_cases hvalue : value = ""
      · subst hvalue
        rw [detailBlock_cons_empty]
        rcases ih with hempty | ⟨field, hfield, hbegins⟩
        · exact .inl hempty
        · exact .inr ⟨field, List.mem_cons_of_mem _ hfield, hbegins⟩
      · obtain ⟨pad, below, -, hblock⟩ := exists_detailBlock name rest
        exact .inr ⟨(name, value), List.mem_cons_self, pad, _, hblock value hvalue⟩

/-! ### Health -/

/-- The block of a health has its status first, before fields with other names. -/
theorem exists_health (h : Health) : ∃ fields,
    (∀ field ∈ fields, ∃ c more, field.1.toList = c :: more ∧ c ≠ 'S' ∧ c ≠ ' ') ∧
    ∀ color, renderOne Health.display .table color h =
      detailBlock (("Status", paintStatus color h.status) :: fields) := by
  refine ⟨[("Database", h.database), ("Version", h.version.getD ""),
    ("Timestamp", h.timestamp.getD "")], ?_, fun _ => rfl⟩
  simp

/-- **The block of a health with a status** differs in the sequences only. -/
theorem uncoloured_health {h : Health} (hstatus : h.status ≠ "") :
    uncoloured (renderOne Health.display .table true h).toList =
      uncoloured (renderOne Health.display .table false h).toList := by
  obtain ⟨fields, -, hblock⟩ := exists_health h
  obtain ⟨pad, below, hbelow, hfirst⟩ := exists_detailBlock "Status" fields
  have hplain : paintStatus false h.status = h.status := rfl
  have hbegin : ∀ rest : List Char,
      uncoloured (List.replicate pad ' ' ++ ("Status".toList ++ ':' :: ' ' :: rest)) =
        List.replicate pad ' ' ++ "Status: ".toList ++ uncoloured rest := fun rest => by
    rw [← uncoloured_append_of_plain, List.append_assoc]
    · rfl
    · simp [escape]
  rw [hblock, hblock, hplain, hfirst _ (paintStatus_ne_empty _), hfirst _ hstatus, hbegin, hbegin,
    uncoloured_paintStatus, uncoloured_append hbelow]

/-- **Paint keeps an empty status from being left out.** -/
theorem uncoloured_health_ne {h : Health} (hstatus : h.status = "") :
    uncoloured (renderOne Health.display .table true h).toList ≠
      (renderOne Health.display .table false h).toList := by
  obtain ⟨fields, hfields, hblock⟩ := exists_health h
  obtain ⟨pad, below, -, hfirst⟩ := exists_detailBlock "Status" fields
  have hplain : paintStatus false h.status = "" := hstatus
  have hpaint : uncoloured (renderOne Health.display .table true h).toList =
      List.replicate pad ' ' ++ 'S' :: uncoloured ("tatus: ".toList ++
        ((paintStatus true h.status).toList ++ below)) := by
    rw [hblock, hfirst _ (paintStatus_ne_empty _), uncoloured_append_of_plain (by simp [escape])]
    rfl
  rw [hpaint, hblock, hplain, detailBlock_cons_empty]
  -- the plain block is empty or begins with another name, which does not begin with an S
  intro heq
  rcases detailBlock_cases fields with hempty | ⟨field, hfield, pad', more, hbegins⟩
  · simp [hempty] at heq
  · obtain ⟨c, rest, hname, hc, hblank⟩ := hfields field hfield
    rw [hbegins, hname] at heq
    have hrest := (replicate_append_inj (by simp) (by simpa using hblank) heq).2
    exact hc (List.cons.inj hrest).1.symm

/-- The fourth cell of a zone is its status. -/
theorem columnAt_zone (color : Bool) (z : Zone) :
    columnAt 3 ((Zone.display.cells color z).map cellWidth) =
      cellWidth (paintStatus color z.status.name) := rfl

/-- The fifth cell of a qube is its status. -/
theorem columnAt_qube (color : Bool) (q : Qube) :
    columnAt 4 ((Qube.display.cells color q).map cellWidth) =
      cellWidth (paintStatus color q.status.name) := rfl

/-- **What colours do to a list of zones.** -/
theorem zones_widened (zones : List Zone) :
    (uncoloured (renderList Zone.display .table true zones).toList =
      (renderList Zone.display .table false zones).toList ↔ zones = []) ∧
    bare (renderList Zone.display .table true zones).toList =
      bare (renderList Zone.display .table false zones).toList := by
  refine renderList_widened (d := Zone.display) (k := 3) (w := 13) (by decide) (by decide +kernel)
    (fun z => ?_) (fun z => ?_) (fun _ _ => rfl) (fun z => ?_) ?_ zones
  · rw [columnAt_zone]
    exact (bareCell_zone z.status).2.1
  · rw [columnAt_zone]
    exact (bareCell_zone z.status).2.2
  · simp only [Zone.display, List.map_cons, List.map_nil, (bareCell_zone z.status).1]
    rfl
  · rw [toList_drawTable]
    decide +kernel

/-- **What colours do to a list of qubes.** -/
theorem qubes_widened (qubes : List Qube) :
    (uncoloured (renderList Qube.display .table true qubes).toList =
      (renderList Qube.display .table false qubes).toList ↔ qubes = []) ∧
    bare (renderList Qube.display .table true qubes).toList =
      bare (renderList Qube.display .table false qubes).toList := by
  refine renderList_widened (d := Qube.display) (k := 4) (w := 9) (by decide) (by decide +kernel)
    (fun q => ?_) (fun q => ?_) (fun _ _ => rfl) (fun q => ?_) ?_ qubes
  · rw [columnAt_qube]
    exact (bareCell_qube q.status).2.1
  · rw [columnAt_qube]
    exact (bareCell_qube q.status).2.2
  · simp only [Qube.display, List.map_cons, List.map_nil, (bareCell_qube q.status).1]
    rfl
  · rw [toList_drawTable]
    decide +kernel

/-! ### All reports that have colours -/

/-- **What colours change**, for every list of zones or qubes and every health of a server.  Without
    its sequences a coloured table is the plain one exactly if it has no rows: a painted status
    counts as wider than it is.  But for blanks and the dashes of rules the two show the same.  The
    coloured block of a health is the plain one exactly if there is a status, and no sequence of
    the server's own in its texts; and where there is a status they differ in sequences only. -/
theorem colour_removable_iff (zones : List Zone) (qubes : List Qube) (h : Health) :
    ((uncoloured (renderList Zone.display .table ColorMode.always.isOn zones).toList =
        (renderList Zone.display .table ColorMode.never.isOn zones).toList ↔ zones = []) ∧
      bare (renderList Zone.display .table ColorMode.always.isOn zones).toList =
        bare (renderList Zone.display .table ColorMode.never.isOn zones).toList) ∧
    ((uncoloured (renderList Qube.display .table ColorMode.always.isOn qubes).toList =
        (renderList Qube.display .table ColorMode.never.isOn qubes).toList ↔ qubes = []) ∧
      bare (renderList Qube.display .table ColorMode.always.isOn qubes).toList =
        bare (renderList Qube.display .table ColorMode.never.isOn qubes).toList) ∧
    (uncoloured (renderOne Health.display .table ColorMode.always.isOn h).toList =
        (renderOne Health.display .table ColorMode.never.isOn h).toList ↔
      h.status ≠ "" ∧ uncoloured (renderOne Health.display .table ColorMode.never.isOn h).toList =
        (renderOne Health.display .table ColorMode.never.isOn h).toList) ∧
    (h.status ≠ "" → uncoloured (renderOne Health.display .table ColorMode.always.isOn h).toList =
      uncoloured (renderOne Health.display .table ColorMode.never.isOn h).toList) := by
  refine ⟨zones_widened zones, qubes_widened qubes, ⟨fun hsame => ?_, fun hboth => ?_⟩,
    uncoloured_health⟩
  · have hstatus : h.status ≠ "" := fun hempty => uncoloured_health_ne hempty hsame
    exact ⟨hstatus, (uncoloured_health hstatus).symm.trans hsame⟩
  · exact (uncoloured_health hboth.1).trans hboth.2

/-- One zone is enough for a wider column, and paint shows a status that is not there. -/
theorem paint_widens_and_reveals :
    (uncoloured (renderList Zone.display .table ColorMode.always.isOn [.ofId "z1"]).toList ≠
      (renderList Zone.display .table ColorMode.never.isOn [.ofId "z1"]).toList) ∧
    (uncoloured
        (renderOne Health.display .table ColorMode.always.isOn ⟨"", "ok", none, none⟩).toList =
      "  Status: \nDatabase: ok".toList) ∧
    (renderOne Health.display .table ColorMode.never.isOn ⟨"", "ok", none, none⟩).toList =
      "Database: ok".toList := by
  refine ⟨fun h => List.cons_ne_nil _ _ ((zones_widened _).1.1 h), ?_, ?_⟩
  · decide +kernel
  · decide +kernel

end ZoneConsole
