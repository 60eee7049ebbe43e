import ZoneConsole.Codec
import ZoneConsole.Proofs.Members.Sorted
import ZoneConsole.Proofs.Reading.Shows

/-!
# Codecs that read back what they write

A codec recovers a value if every reading that shows its tree is decoded to the value.  The tree
itself has to be plain, so that a text can hold it, and not null, so that the value can stand in
a field that may be absent.

* **`Codec.Recovers`** — the property, of one codec and one value.
* **`recovers_text`**, **`recovers_word64`**, **`recovers_variant`** … — single values.
* **`recovers_list`**, **`recovers_dictionary`** — collections, if the codec of what they hold
  recovers all of it.
-/

namespace ZoneConsole.Codec

variable {α : Type}

/-- A codec reads a value back from every reading that shows its tree. -/
structure Recovers (c : Codec α) (a : α) : Prop where
  reads : ∀ r : Reading, r.Shows (c.encode a) → c.decode r = .ok a
  plain : (c.encode a).Plain
  notNull : c.encode a ≠ .null

theorem recovers_text (s : String) : text.Recovers s where
  reads := by
    rintro _ ⟨⟩
    rfl
  plain := trivial
  notNull := nofun

theorem recovers_flag (b : Bool) : flag.Recovers b where
  reads := by
    rintro _ ⟨⟩
    rfl
  plain := trivial
  notNull := nofun

/-- A natural number below a bound, with a sign or without. -/
theorem decodeBelow_shows {bound n : Nat} {r : Reading} (kind : String)
    (hn : n < bound) (hr : r.Shows (.nat n)) : decodeBelow bound kind r = .ok n := by
  cases hr with
  | num _ => exact if_pos hn
  | signed _ =>
      have hrange : 0 ≤ (n : Int) ∧ (n : Int) < bound := ⟨Int.natCast_nonneg n, by omega⟩
      rw [decodeBelow, if_pos hrange, Int.toNat_natCast]

theorem recovers_word32 (n : UInt32) : word32.Recovers n where
  reads := by
    intro r hr
    show (decodeBelow UInt32.size "u32" r).map UInt32.ofNat = .ok n
    rw [decodeBelow_shows _ n.toNat_lt hr, Except.map, UInt32.ofNat_toNat]
  plain := Nat.lt_trans n.toNat_lt (by decide)
  notNull := nofun

theorem recovers_word64 (n : UInt64) : word64.Recovers n where
  reads := by
    intro r hr
    show (decodeBelow UInt64.size "u64" r).map UInt64.ofNat = .ok n
    rw [decodeBelow_shows _ n.toNat_lt hr, Except.map, UInt64.ofNat_toNat]
  plain := n.toNat_lt
  notNull := nofun

/-! ### One of finitely many values -/

theorem variantOf_name {values : List α} {name : α → String} {a : α} (ha : a ∈ values)
    (hname : ∀ b ∈ values, name b = name a → b = a) :
    variantOf values name (name a) = .ok a := by
  obtain ⟨b, hfind⟩ : ∃ b, values.find? (fun b => name b == name a) = some b :=
    Option.isSome_iff_exists.1 (List.find?_isSome.2 ⟨a, ha, beq_self_eq_true _⟩)
  have hb : b = a := hname b (List.mem_of_find?_eq_some hfind)
    (eq_of_beq (List.find?_some (p := fun b => name b == name a) hfind))
  rw [variantOf, hfind, hb]

theorem recovers_variant {type : String} {values : List α} {name : α → String} {a : α}
    (ha : a ∈ values) (hname : ∀ b ∈ values, name b = name a → b = a) :
    (variant type values name).Recovers a where
  reads := by
    rintro _ ⟨⟩
    exact variantOf_name ha hname
  plain := trivial
  notNull := nofun

/-! ### Values that may be absent -/

/-- What shows a value that is not null is neither null nor a flaw. -/
theorem optional_decode_shows {c : Codec α} {r : Reading} {d : Data} (hd : d ≠ .null)
    (hr : r.Shows d) : c.optional.decode r = (c.decode r).map some := by
  cases hr with
  | null => exact absurd rfl hd
  | bool | str | num | signed | seq | map => rfl

/-- A value that may be absent is recovered, and null is what stands for none. -/
theorem optional_reads {c : Codec α} {o : Option α} (ho : ∀ a ∈ o, c.Recovers a) {r : Reading}
    (hr : r.Shows (c.optional.encode o)) : c.optional.decode r = .ok o := by
  cases o with
  | none =>
      cases hr
      rfl
  | some a =>
      have ha := ho a rfl
      rw [optional_decode_shows ha.notNull hr, ha.reads r hr]
      rfl

theorem optional_plain {c : Codec α} {o : Option α} (ho : ∀ a ∈ o, c.Recovers a) :
    (c.optional.encode o).Plain := by
  cases o with
  | none => trivial
  | some a => exact (ho a rfl).plain

/-! ### Collections -/

theorem decodeItems_shows {c : Codec α} {stop : SeqStop} (hstop : stop.asked = none) :
    ∀ {as : List α} {readings : List Reading} (i : Nat), (∀ a ∈ as, c.Recovers a) →
      List.Forall₂ Reading.Shows readings (as.map c.encode) →
      decodeItems c stop i readings = .ok as := by
  intro as
  induction as with
  | nil =>
      rintro _ i - ⟨⟩
      rw [decodeItems, hstop]
  | cons a as ih =>
      rintro _ i has (_ | ⟨hitem, hrest⟩)
      rw [decodeItems, (has a List.mem_cons_self).reads _ hitem]
      simp only [Decoded.under, ih (i + 1) (fun b hb => has b (List.mem_cons_of_mem _ hb)) hrest]

theorem recovers_list {c : Codec α} {as : List α} (has : ∀ a ∈ as, c.Recovers a) :
    c.list.Recovers as where
  reads := by
    rintro _ (_ | _ | _ | _ | _ | ⟨hstop, hshown⟩)
    exact decodeItems_shows hstop 0 has hshown
  plain := by
    refine Data.plainItems_iff.2 fun d hd => ?_
    obtain ⟨a, ha, rfl⟩ := List.mem_map.1 hd
    exact (has a ha).plain
  notNull := nofun

theorem recovers_listOrNull {c : Codec α} {as : List α} (has : ∀ a ∈ as, c.Recovers a) :
    c.listOrNull.Recovers as where
  reads := by
    intro r hr
    have hlist := recovers_list has
    show (c.list.optional.decode r).map (·.getD []) = .ok as
    rw [optional_decode_shows hlist.notNull hr, hlist.reads r hr]
    rfl
  plain := (recovers_list has).plain
  notNull := nofun

/-- What the members of a collection say when they are read in some order: each comes into the
    table under its name, and the table stays sorted. -/
theorem decodeMembers_shows {c : Codec α} {stop : MapStop} (hstop : stop.asked = none)
    {members : List (String × α)} (hsorted : SortedByName members)
    (hmembers : ∀ m ∈ members, c.Recovers m.2) :
    ∀ (entries : List (String × Data × Reading)) (acc : List (String × α)),
      (∀ e ∈ entries, (e.1, e.2.1) ∈ members.map fun (n, a) => (n, c.encode a)) →
      (∀ e ∈ entries, e.2.2.Shows e.2.1) → SortedByName acc →
      ∃ table, decodeMembers c stop acc (entries.map fun e => (.str e.1, e.2.2)) = .ok table ∧
        SortedByName table ∧ ∀ name, lookup? name table
          = if name ∈ entries.map (·.1) then lookup? name members else lookup? name acc := by
  intro entries
  induction entries with
  | nil =>
      intro acc _ _ hacc
      exact ⟨acc, by rw [List.map_nil, decodeMembers, hstop], hacc, fun _ => rfl⟩
  | cons e entries ih =>
      intro acc hstated hshown hacc
      obtain ⟨⟨name, a⟩, ha, heq⟩ := List.mem_map.1 (hstated e List.mem_cons_self)
      obtain ⟨hname, hencode⟩ := Prod.mk.injEq .. ▸ heq
      have hread : c.decode e.2.2 = .ok a :=
        (hmembers _ ha).reads _ (hencode ▸ hshown e List.mem_cons_self)
      obtain ⟨table, htable, hsorted', hlookup⟩ := ih (insertMember e.1 a acc)
        (fun e he => hstated e (List.mem_cons_of_mem _ he))
        (fun e he => hshown e (List.mem_cons_of_mem _ he)) hacc.insertMember
      refine ⟨table, ?_, hsorted', fun other => ?_⟩
      · rw [List.map_cons, decodeMembers, memberName]
        simp only [hread, Decoded.under]
        exact htable
      · rw [hlookup, lookup?_insertMember, List.map_cons]
        -- a later entry under the name wins, and says the same
        by_cases hrest : other ∈ entries.map (·.1)
        · rw [if_pos hrest, if_pos (List.mem_cons_of_mem _ hrest)]
        · rw [if_neg hrest]
          by_cases ho : other = e.1
          · subst ho
            rw [if_pos rfl, if_pos List.mem_cons_self, ← hname]
            exact ((mem_iff_lookup? hsorted).1 ha).symm
          · rw [if_neg ho, if_neg fun h => (List.mem_cons.1 h).elim ho hrest]

theorem recovers_dictionary {c : Codec α} {members : List (String × α)}
    (hsorted : SortedByName members) (hmembers : ∀ m ∈ members, c.Recovers m.2) :
    c.dictionary.Recovers members where
  reads := by
    rintro _ (_ | _ | _ | _ | _ | _ | ⟨entries, hstop, -, hstated, hall, hshown⟩)
    obtain ⟨table, htable, hsorted', hlookup⟩ :=
      decodeMembers_shows hstop hsorted hmembers entries [] hstated hshown sortedByName_nil
    have heq : table = members := by
      refine eq_of_lookup? hsorted' hsorted fun name => ?_
      rw [hlookup]
      by_cases hname : name ∈ entries.map (·.1)
      · rw [if_pos hname]
      · rw [if_neg hname]
        refine (lookup?_eq_none.2 fun hmem => hname ?_).symm
        -- No value of the collection is written as null, so each has its entry.
        obtain ⟨m, hm, rfl⟩ := List.mem_map.1 hmem
        obtain ⟨e, he, hname⟩ :=
          hall (m.1, c.encode m.2) (List.mem_map_of_mem hm) (hmembers m hm).notNull
        exact hname ▸ List.mem_map_of_mem (f := (·.1)) he
    rw [← heq]
    exact htable
  plain := by
    refine ⟨?_, Data.plainMembers_iff.2 fun m hm => ?_⟩
    · rw [Data.Distinct, List.map_map]
      exact hsorted.nodup
    · obtain ⟨⟨name, a⟩, ha, rfl⟩ := List.mem_map.1 hm
      exact (hmembers _ ha).plain
  notNull := nofun

end ZoneConsole.Codec
