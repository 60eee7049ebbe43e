import Mathlib.Data.List.Basic
import Mathlib.Data.List.Forall2
import Mathlib.Data.List.Nodup
import ZoneConsole.Reading

/-!
# Readings that show a tree

What is written from a tree does not come back as the very same tree: a text of settings leaves
out what is null, its members come back in another order and its whole numbers with a sign.  A
reading *shows* a tree if these are the only differences.

* **`Reading.Shows`** — the relation; what shows a tree has no flaw.
* **`Reading.Shows.perm`**, **`Reading.Shows.exchange`** — the order of members does not matter,
  and neither does that of the members of a member.
* **`Data.Plain`** — the names in each object differ, and numbers are those of 64 bits.
* **`shows_ofData`** — the reading of a plain tree shows it.
-/

namespace ZoneConsole

/-- A reading without flaws says what a tree says. -/
inductive Reading.Shows : Reading → Data → Prop where
  | null : Shows .null .null
  | bool (b : Bool) : Shows (.bool b) (.bool b)
  | str (s : String) : Shows (.str s) (.str s)
  | num (n : Number) : Shows (.num n) (.num n)
  | signed (n : Nat) : Shows (.num (.signed n)) (.num (.unsigned n))
  | seq {readings : List Reading} {items : List Data} {stop : SeqStop}
      (hstop : stop.asked = none) (hshown : List.Forall₂ Shows readings items) :
      Shows (.seq readings stop) (.seq items)
  | map {members : List (String × Data)} {stop : MapStop}
      (entries : List (String × Data × Reading)) (hstop : stop.asked = none)
      (hnames : (entries.map (·.1)).Nodup)
      (hstated : ∀ e ∈ entries, (e.1, e.2.1) ∈ members)
      (hall : ∀ m ∈ members, m.2 ≠ .null → ∃ e ∈ entries, e.1 = m.1)
      (hshown : ∀ e ∈ entries, Shows e.2.2 e.2.1) :
      Shows (.map (entries.map fun e => (.str e.1, e.2.2)) stop) (.map members)

namespace Reading

/-- The order of members does not matter. -/
theorem Shows.perm {r : Reading} {members others : List (String × Data)}
    (hperm : members.Perm others) (h : r.Shows (.map members)) : r.Shows (.map others) := by
  cases h with
  | map entries hstop hnames hstated hall hshown =>
      exact .map entries hstop hnames (fun e he => hperm.mem_iff.1 (hstated e he))
        (fun m hm => hall m (hperm.mem_iff.2 hm)) hshown

/-- What shows a tree shows another one that differs in a member, if the readings of the member
    show the other one as well. -/
theorem Shows.exchange {r : Reading} {members : List (String × Data)} {name : String}
    {d other : Data} (hname : name ∉ members.map (·.1)) (hnull : d ≠ .null)
    (hother : ∀ r : Reading, r.Shows d → r.Shows other)
    (h : r.Shows (.map (members ++ [(name, d)]))) :
    r.Shows (.map (members ++ [(name, other)])) := by
  cases h with
  | map entries hstop hnames hstated hall hshown =>
      -- the entries are the same, but that of the member is now one of the other tree
      let exchanged (e : String × Data × Reading) : String × Data × Reading :=
        if e.1 = name then (e.1, other, e.2.2) else e
      have hnew (e) (hn : e.1 = name) : exchanged e = (e.1, other, e.2.2) := if_pos hn
      have hkept (e) (hn : e.1 ≠ name) : exchanged e = e := if_neg hn
      have hfst (e) : (exchanged e).1 = e.1 := by
        by_cases hn : e.1 = name
        · rw [hnew e hn]
        · rw [hkept e hn]
      have hreading (e) : (exchanged e).2.2 = e.2.2 := by
        by_cases hn : e.1 = name
        · rw [hnew e hn]
        · rw [hkept e hn]
      have hmember (e) (he : e ∈ entries) (hn : e.1 = name) : e.2.1 = d := by
        rcases List.mem_append.1 (hstated e he) with hmem | hmem
        · exact absurd (List.mem_map_of_mem (f := (·.1)) hmem) (hn ▸ hname)
        · exact congrArg Prod.snd (List.mem_singleton.1 hmem)
      have hsame : (entries.map fun e => (Reading.str e.1, e.2.2)) =
          (entries.map exchanged).map fun e => (Reading.str e.1, e.2.2) := by
        rw [List.map_map]
        refine List.map_congr_left fun e _ => ?_
        rw [Function.comp_apply, hfst, hreading]
      rw [hsame]
      refine .map (entries.map exchanged) hstop ?_ ?_ ?_ ?_
      · rw [List.map_map]
        exact (List.map_congr_left fun e _ => hfst e) ▸ hnames
      · rw [List.forall_mem_map]
        intro e he
        by_cases hn : e.1 = name
        · rw [hnew e hn, hn]
          exact List.mem_append_right _ List.mem_cons_self
        · rw [hkept e hn]
          rcases List.mem_append.1 (hstated e he) with hmem | hmem
          · exact List.mem_append_left _ hmem
          · exact absurd (congrArg Prod.fst (List.mem_singleton.1 hmem)) hn
      · intro m hm hvalue
        have hfound : ∃ e ∈ entries, e.1 = m.1 := by
          rcases List.mem_append.1 hm with hmem | hmem
          · exact hall m (List.mem_append_left _ hmem) hvalue
          · obtain rfl := List.mem_singleton.1 hmem
            exact hall (name, d) (List.mem_append_right _ List.mem_cons_self) hnull
        obtain ⟨e, he, hn⟩ := hfound
        exact ⟨exchanged e, List.mem_map_of_mem he, (hfst e).trans hn⟩
      · rw [List.forall_mem_map]
        intro e he
        rw [hreading]
        by_cases hn : e.1 = name
        · have hshows := hshown e he
          rw [hmember e he hn] at hshows
          rw [hnew e hn]
          exact hother _ hshows
        · rw [hkept e hn]
          exact hshown e he

end Reading

namespace Data

/-- The names of members differ. -/
def Distinct (members : List (String × α)) : Prop := (members.map (·.1)).Nodup

mutual

/-- The names in each object differ, and numbers are natural numbers of 64 bits. -/
def Plain : Data → Prop
  | .num (.unsigned n) => n < UInt64.size
  | .num _ => False
  | .seq items => PlainItems items
  | .map members => Distinct members ∧ PlainMembers members
  | .null | .bool _ | .str _ => True

/-- Every item is plain. -/
def PlainItems : List Data → Prop
  | [] => True
  | item :: rest => Plain item ∧ PlainItems rest

/-- Every member is plain. -/
def PlainMembers : List (String × Data) → Prop
  | [] => True
  | (_, value) :: rest => Plain value ∧ PlainMembers rest

end

theorem plainItems_iff {items : List Data} : PlainItems items ↔ ∀ d ∈ items, d.Plain := by
  induction items with
  | nil => simp [PlainItems]
  | cons item rest ih => simp [PlainItems, ih]

theorem plainMembers_iff {members : List (String × Data)} :
    PlainMembers members ↔ ∀ m ∈ members, m.2.Plain := by
  induction members with
  | nil => simp [PlainMembers]
  | cons member rest ih => simp [PlainMembers, ih]

end Data

namespace Reading

mutual

/-- The reading of a tree that is written without flaws shows the tree. -/
theorem shows_ofData : ∀ {d : Data}, d.Plain → (ofData d).Shows d
  | .null, _ => .null
  | .bool b, _ => .bool b
  | .num n, _ => .num n
  | .str s, _ => .str s
  | .seq items, hplain => .seq rfl (shows_ofItems hplain)
  | .map members, hplain => by
      obtain ⟨entries, hread, hmembers, hshown⟩ := shows_ofMembers hplain.2
      have hnames : entries.map (·.1) = members.map (·.1) := by
        rw [← hmembers, List.map_map]
        rfl
      rw [ofData, hread]
      refine .map entries rfl (hnames ▸ hplain.1) ?_ ?_ hshown
      · intro e he
        rw [← hmembers]
        exact List.mem_map_of_mem (f := fun e => (e.1, e.2.1)) he
      · intro m hm _
        have hname : m.1 ∈ entries.map (·.1) := hnames ▸ List.mem_map_of_mem hm
        obtain ⟨e, he, heq⟩ := List.mem_map.1 hname
        exact ⟨e, he, heq⟩

theorem shows_ofItems : ∀ {items : List Data}, Data.PlainItems items →
    List.Forall₂ Shows (ofItems items) items
  | [], _ => .nil
  | _ :: _, ⟨hitem, hrest⟩ => .cons (shows_ofData hitem) (shows_ofItems hrest)

theorem shows_ofMembers : ∀ {members : List (String × Data)}, Data.PlainMembers members →
    ∃ entries : List (String × Data × Reading),
      ofMembers members = entries.map (fun e => (.str e.1, e.2.2)) ∧
      entries.map (fun e => (e.1, e.2.1)) = members ∧ ∀ e ∈ entries, e.2.2.Shows e.2.1
  | [], _ => ⟨[], rfl, rfl, nofun⟩
  | (name, value) :: _, ⟨hvalue, hrest⟩ => by
      obtain ⟨entries, hread, hmembers, hshown⟩ := shows_ofMembers hrest
      refine ⟨(name, value, ofData value) :: entries, ?_, ?_, ?_⟩
      · rw [ofMembers, hread]
        rfl
      · rw [List.map_cons, hmembers]
      · rintro e (_ | ⟨_, he⟩)
        · exact shows_ofData hvalue
        · exact hshown e he

end

end Reading

end ZoneConsole
