import ZoneConsole.Proofs.Members.Sorted
import ZoneConsole.Proofs.Toml.Tree
import ZoneConsole.Settings.Layer

/-!
# What a layer says over another one

A layer replaces what it states and leaves the rest of the layer below.  So a tree that was
written to a file and read back says all that the tree said, over any layer that states nothing
beyond the tree.

* **`lookup?_membersOver`** — what two joined tables hold under a name.
* **`Covered`** — a layer below states nothing that a tree does not state itself.
* **`shows_overlay`** — over such a layer a tidied tree shows the tree.
-/

namespace ZoneConsole.Data

open Toml

variable {low : List (String × Data)} {members : List (String × Data)}

/-! ### Joined tables -/

theorem sorted_membersOver (hlow : SortedByName low) (members : List (String × Data)) :
    SortedByName (membersOver low members) := by
  induction members generalizing low with
  | nil => exact hlow
  | cons member rest ih =>
      rw [membersOver]
      exact ih hlow.insertMember

/-- What two joined tables hold under a name: what the upper one states, over what the lower
    one has there, or else what the lower one has. -/
theorem lookup?_membersOver (low : List (String × Data)) (hdistinct : Distinct members)
    (name : String) :
    lookup? name (membersOver low members) = match lookup? name members with
      | some value => some (overlay ((lookup? name low).getD null) value)
      | none => lookup? name low := by
  induction members generalizing low with
  | nil => rfl
  | cons member rest ih =>
      obtain ⟨n, value⟩ := member
      obtain ⟨hn, hrest⟩ := List.nodup_cons.1 hdistinct
      rw [membersOver, ih _ hrest, lookup?_insertMember, lookup?]
      by_cases heq : n = name
      · subst heq
        rw [if_pos rfl, if_pos rfl, lookup?_eq_none.2 hn]
      · rw [if_neg heq, if_neg fun h => heq h.symm]

/-! ### Tidied members -/

/-- The members that say something, in the order in which they come back. -/
def spoken (members : List (String × Data)) : List (String × Data) :=
  lineMembers members ++ members.filter fun (_, value) => isTable value

/-- The members of a tidied table. -/
def tidied (members : List (String × Data)) : List (String × Data) :=
  (spoken members).map fun m => (m.1, tidy m.2)

theorem tidy_of_line {d : Data} (hline : isLine d = true) : tidy d = signed d := by
  cases d with
  | map _ => cases hline
  | null | bool | num | str | seq => rfl

theorem tidy_map (members : List (String × Data)) :
    tidy (.map members) = .map (tidied members) := by
  have hlines : (lineMembers members).map (fun (name, value) => (name, signed value))
      = (lineMembers members).map fun m => (m.1, tidy m.2) := by
    refine List.map_congr_left fun m hm => ?_
    have hline : isLine m.2 = true := (List.mem_filter.1 hm).2
    exact congrArg (Prod.mk m.1) (tidy_of_line hline).symm
  have htables (ms : List (String × Data)) : tidyTables ms
      = (ms.filter fun (_, value) => isTable value).map fun m => (m.1, tidy m.2) := by
    induction ms with
    | nil => rfl
    | cons member rest ih =>
        obtain ⟨name, value⟩ := member
        rw [tidyTables, List.filter_cons]
        by_cases htable : isTable value = true
        · rw [if_pos htable, if_pos htable, List.map_cons, ih]
        · rw [if_neg htable, if_neg htable, ih]
  rw [tidy, hlines, htables, tidied, spoken, List.map_append]

theorem mem_spoken {m : String × Data} :
    m ∈ spoken members ↔ m ∈ members ∧ m.2 ≠ .null := by
  rw [spoken, List.mem_append, lineMembers, List.mem_filter, List.mem_filter, ← and_or_left]
  refine and_congr_right fun _ => ?_
  obtain ⟨name, value⟩ := m
  cases value <;> simp [isLine, isTable, isNull]

theorem distinct_spoken (hdistinct : Distinct members) : Distinct (spoken members) := by
  rw [Distinct, spoken, List.map_append]
  refine List.nodup_append.2 ⟨?_, ?_, ?_⟩
  · exact hdistinct.sublist (List.filter_sublist.map _)
  · exact hdistinct.sublist (List.filter_sublist.map _)
  · -- No member is a line and a table at once.
    rintro _ hline _ htable rfl
    obtain ⟨m, hm, rfl⟩ := List.mem_map.1 hline
    obtain ⟨m', hm', hname⟩ := List.mem_map.1 htable
    obtain ⟨hmem, hmline⟩ := List.mem_filter.1 hm
    obtain ⟨hmem', hmtable⟩ := List.mem_filter.1 hm'
    obtain rfl := List.inj_on_of_nodup_map hdistinct hmem' hmem hname
    have hnot : isTable m'.2 = true → isLine m'.2 = false := by simp +contextual [isLine]
    exact absurd hmline (Bool.eq_false_iff.1 (hnot hmtable))

/-- What the members that say something hold under a name. -/
theorem lookup?_spoken (hdistinct : Distinct members) {name : String} {value : Data} :
    lookup? name (spoken members) = some value ↔
      lookup? name members = some value ∧ value ≠ .null := by
  constructor
  · intro h
    obtain ⟨hmem, hvalue⟩ := mem_spoken.1 (mem_of_lookup? h)
    exact ⟨lookup?_of_mem hdistinct hmem, hvalue⟩
  · rintro ⟨h, hvalue⟩
    exact lookup?_of_mem (distinct_spoken hdistinct)
      (mem_spoken.2 ⟨mem_of_lookup? h, hvalue⟩)

theorem distinct_tidied (hdistinct : Distinct members) : Distinct (tidied members) := by
  rw [Distinct, tidied, List.map_map]
  exact distinct_spoken hdistinct

theorem lookup?_tidied (members : List (String × Data)) (name : String) :
    lookup? name (tidied members) = (lookup? name (spoken members)).map tidy := by
  rw [tidied]
  induction spoken members with
  | nil => rfl
  | cons m rest ih =>
      rw [List.map_cons, lookup?, lookup?]
      split
      · rfl
      · exact ih

/-! ### Layers that state nothing more -/

mutual

/-- A layer states nothing that a tree does not state itself, at any depth. -/
def Covered : Data → Data → Prop
  | .map members, low => SortedByName low.members ∧
      (∀ name value, lookup? name low.members = some value →
        ∃ own, lookup? name members = some own ∧ own ≠ .null) ∧
      CoveredMembers low.members members
  | _, _ => True

/-- Every member states what the layer has under its name. -/
def CoveredMembers (low : List (String × Data)) : List (String × Data) → Prop
  | [] => True
  | (name, value) :: rest =>
    Covered value ((lookup? name low).getD null) ∧ CoveredMembers low rest

end

mutual

/-- A layer without members is covered by every tree. -/
theorem covered_of_noMembers {low : Data} (hlow : low.members = []) : ∀ d : Data, Covered d low
  | .map ms => by
      refine ⟨?_, ?_, ?_⟩
      · rw [hlow]
        exact sortedByName_nil
      · rw [hlow]
        exact nofun
      · rw [hlow]
        exact coveredMembers_nil ms
  | .null | .bool _ | .num _ | .str _ | .seq _ => trivial

theorem coveredMembers_nil : ∀ ms : List (String × Data), CoveredMembers [] ms
  | [] => trivial
  | (_, value) :: rest => ⟨covered_of_noMembers rfl value, coveredMembers_nil rest⟩

end

theorem ofSettingMembers_eq (ms : List (String × Data)) :
    Reading.ofSettingMembers ms = ms.map fun m => (.str m.1, .ofSettings m.2) := by
  induction ms with
  | nil => rfl
  | cons m rest ih => rw [Reading.ofSettingMembers, ih]; rfl

/-- A table shows its members if each is shown on its own and no other name is stated. -/
theorem shows_membersOver (hdistinct : Distinct members) (hsorted : SortedByName low)
    (hstates : ∀ name value, lookup? name low = some value →
      ∃ own, lookup? name members = some own ∧ own ≠ .null)
    (hshown : ∀ m ∈ members,
      (Reading.ofSettings (overlay ((lookup? m.1 low).getD null) (tidy m.2))).Shows m.2) :
    (Reading.ofSettings (.map (membersOver low (tidied members)))).Shows (.map members) := by
  have hsortedOver := sorted_membersOver hsorted (tidied members)
  have hover := lookup?_membersOver low (distinct_tidied hdistinct)
  -- Each name of the joined table is one of the tree's, which says something under it.
  have hown : ∀ name d, (name, d) ∈ membersOver low (tidied members) →
      ∃ own, lookup? name members = some own ∧
        d = overlay ((lookup? name low).getD null) (tidy own) := by
    intro name d hd
    have hd := (mem_iff_lookup? hsortedOver).1 hd
    rw [hover, lookup?_tidied] at hd
    cases hspoken : lookup? name (spoken members) with
    | some own =>
        rw [hspoken] at hd
        exact ⟨own, ((lookup?_spoken hdistinct).1 hspoken).1, (Option.some.inj hd).symm⟩
    | none =>
        rw [hspoken] at hd
        obtain ⟨own, hlookup, hnull⟩ := hstates name d hd
        have hsome := (lookup?_spoken hdistinct).2 ⟨hlookup, hnull⟩
        exact absurd (hspoken.symm.trans hsome) (by simp)
  -- So the joined table is read as entries, each with the member of the tree that it shows.
  let entries := (membersOver low (tidied members)).map fun m =>
    (m.1, (lookup? m.1 members).getD null, Reading.ofSettings m.2)
  have hentries : Reading.ofSettings (.map (membersOver low (tidied members)))
      = .map (entries.map fun e => (.str e.1, e.2.2)) .loose := by
    rw [Reading.ofSettings, ofSettingMembers_eq, List.map_map]
    rfl
  rw [hentries]
  refine .map entries rfl ?_ ?_ ?_ ?_
  · rw [List.map_map]
    exact hsortedOver.nodup
  · intro e he
    obtain ⟨⟨name, d⟩, hm, rfl⟩ := List.mem_map.1 he
    obtain ⟨own, hlookup, -⟩ := hown name d hm
    show (name, (lookup? name members).getD null) ∈ members
    rw [hlookup]
    exact mem_of_lookup? hlookup
  · intro m hm hnull
    have hspoken := (lookup?_spoken hdistinct).2 ⟨lookup?_of_mem hdistinct hm, hnull⟩
    have hlookup := hover m.1
    rw [lookup?_tidied, hspoken] at hlookup
    exact ⟨_, List.mem_map_of_mem (mem_of_lookup? hlookup), rfl⟩
  · intro e he
    obtain ⟨⟨name, d⟩, hm, rfl⟩ := List.mem_map.1 he
    obtain ⟨own, hlookup, rfl⟩ := hown name d hm
    show (Reading.ofSettings _).Shows ((lookup? name members).getD null)
    rw [hlookup]
    exact hshown (name, own) (mem_of_lookup? hlookup)

mutual

/-- **A tidied tree shows the tree** over a layer that the tree covers. -/
theorem shows_overlay : ∀ {d low : Data}, d.Tabular → Covered d low →
    (Reading.ofSettings (overlay low (tidy d))).Shows d
  | .null, _, _, _ => .null
  | .bool b, _, _, _ => .bool b
  | .num (.unsigned n), _, _, _ => .signed n
  | .str s, _, _, _ => .str s
  | .map ms, low, htab, hcovered => by
      obtain ⟨hdistinct, htab⟩ := htab
      obtain ⟨hsorted, hstates, hmembers⟩ := hcovered
      rw [tidy_map]
      exact shows_membersOver hdistinct hsorted hstates (shows_overlayMembers htab hmembers)

theorem shows_overlayMembers : ∀ {ms low : List (String × Data)}, TabularMembers ms →
    CoveredMembers low ms → ∀ m ∈ ms,
      (Reading.ofSettings (overlay ((lookup? m.1 low).getD null) (tidy m.2))).Shows m.2
  | (_, _) :: _, _, ⟨hvalue, hrest⟩, ⟨hcovered, hcoveredRest⟩, m, hm => by
      rcases List.mem_cons.1 hm with rfl | hm
      · exact shows_overlay hvalue hcovered
      · exact shows_overlayMembers hrest hcoveredRest m hm

end

end ZoneConsole.Data
