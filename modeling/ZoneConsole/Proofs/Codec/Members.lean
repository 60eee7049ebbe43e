import ZoneConsole.Json
import ZoneConsole.Proofs.Codec.Record
import ZoneConsole.Proofs.Except

/-!
# Records read from the members of a text

The members of an object stand in a text in some order, some of them unknown and some repeated.
A record is read from them if each known one is read by its field, no field is met twice and every
other member can be passed over.  A tree is made of them with the last member of each name.

* **`Reading.named`** — members with names that can be read.
* **`Record.checkMembers_named_iff`** — which members pass.
* **`Record.build_omittable`** — what an omittable field gets of them.
* **`Reading.exists_of_tree_map`**, **`lookup?_trees`** — the tree of an object, name by name.
-/

namespace ZoneConsole

variable {α β γ : Type}

/-- Members with names that can be read, in the order of a text. -/
def Reading.named (members : List (String × Reading)) : List (Reading × Reading) :=
  members.map fun m => (.str m.1, m.2)

theorem Reading.ofMembers_eq_named (members : List (String × Data)) :
    ofMembers members = named (members.map fun (n, d) => (n, ofData d)) := by
  induction members with
  | nil => rfl
  | cons m rest ih =>
      rw [ofMembers, ih]
      rfl

/-! ### Records -/

namespace Record

/-- A field is given the first member of its name. -/
theorem memberOf_named {f : Field β} (haliases : f.aliases = [])
    (members : List (String × Reading)) :
    memberOf f (Reading.named members) = lookup? f.name members := by
  induction members with
  | nil => rfl
  | cons m rest ih =>
      have hanswers : f.answersTo m.1 = true ↔ m.1 = f.name := by
        rw [Field.answersTo, haliases, List.contains_nil, Bool.or_false, beq_iff_eq, eq_comm]
      rw [Reading.named, List.map_cons, memberOf, lookup?]
      exact if_congr hanswers rfl ih

/-- A member passes if its field reads it, or if no field knows it and it can be passed over. -/
def Passes (fields : Record γ α) (m : String × Reading) : Prop :=
  match fields.known? m.1 with
  | none => m.2.passOver = none
  | some (_, check) => check m.2 = .ok ()

/-- The names of the fields that know the members. -/
def owners (fields : Record γ α) (members : List (String × Reading)) : List String :=
  members.filterMap fun m => (fields.known? m.1).map (·.1)

/-- Fields that know members under their own names only are told apart by these. -/
theorem owners_sublist {fields : Record γ α} {members : List (String × Reading)}
    (hown : ∀ m ∈ members, ∀ own check, fields.known? m.1 = some (own, check) → own = m.1) :
    (fields.owners members).Sublist (members.map (·.1)) := by
  induction members with
  | nil => exact .slnil
  | cons m rest ih =>
      have hrest := ih fun m hm => hown m (List.mem_cons_of_mem _ hm)
      rw [owners, List.filterMap_cons, List.map_cons]
      cases hknown : fields.known? m.1 with
      | none => exact hrest.cons _
      | some found =>
          obtain ⟨own, check⟩ := found
          obtain rfl := hown m List.mem_cons_self own check hknown
          exact hrest.cons_cons _

section Cons

variable {fields : Record γ α} {stop : MapStop} {m : String × Reading}

/-- A member that nobody knows is passed over. -/
theorem checkMembers_unknown (hknown : fields.known? m.1 = none)
    (rest : List (String × Reading)) (seen : List String) :
    fields.checkMembers stop seen (Reading.named (m :: rest)) = .ok () ↔
      m.2.passOver = none ∧ fields.checkMembers stop seen (Reading.named rest) = .ok () := by
  rw [Reading.named, List.map_cons, checkMembers, Codec.memberName]
  simp only [hknown]
  cases m.2.passOver with
  | none => exact (and_iff_right rfl).symm
  | some f => exact iff_of_false (fun h => by cases h) fun h => by cases h.1

/-- A member that a field knows is read by it, if the field has not been met. -/
theorem checkMembers_known {own : String} {check : Reading → Decoded Unit}
    (hknown : fields.known? m.1 = some (own, check)) (rest : List (String × Reading))
    (seen : List String) :
    fields.checkMembers stop seen (Reading.named (m :: rest)) = .ok () ↔
      own ∉ seen ∧ check m.2 = .ok () ∧
        fields.checkMembers stop (own :: seen) (Reading.named rest) = .ok () := by
  rw [Reading.named, List.map_cons, checkMembers, Codec.memberName]
  simp only [hknown, List.contains_iff_mem]
  by_cases hseen : own ∈ seen
  · rw [if_pos hseen]
    exact iff_of_false (fun h => by cases h) fun h => h.1 hseen
  · rw [if_neg hseen]
    cases check m.2 with
    | ok _ => exact ⟨fun h => ⟨hseen, rfl, h⟩, fun h => h.2.2⟩
    | error e => exact iff_of_false (fun h => by cases h) fun h => by cases h.2.1

end Cons

/-- **Which members pass**: each by itself, and no field is met twice. -/
theorem checkMembers_named_iff {fields : Record γ α} {stop : MapStop} (hstop : stop.asked = none)
    (members : List (String × Reading)) (seen : List String) :
    fields.checkMembers stop seen (Reading.named members) = .ok () ↔
      (∀ m ∈ members, fields.Passes m) ∧ (fields.owners members).Nodup ∧
        ∀ own ∈ fields.owners members, own ∉ seen := by
  induction members generalizing seen with
  | nil =>
      rw [Reading.named, List.map_nil, checkMembers, hstop]
      exact iff_of_true rfl ⟨List.forall_mem_nil _, List.nodup_nil, List.forall_mem_nil _⟩
  | cons m rest ih =>
      rw [List.forall_mem_cons, owners, List.filterMap_cons]
      cases hknown : fields.known? m.1 with
      | none =>
          have hpasses : fields.Passes m ↔ m.2.passOver = none := by rw [Passes, hknown]
          rw [checkMembers_unknown hknown, ih, hpasses, and_assoc]
          rfl
      | some found =>
          obtain ⟨own, check⟩ := found
          have hpasses : fields.Passes m ↔ check m.2 = .ok () := by rw [Passes, hknown]
          rw [checkMembers_known hknown, ih, hpasses]
          show _ ↔ _ ∧ (own :: fields.owners rest).Nodup ∧ ∀ o ∈ own :: fields.owners rest, o ∉ seen
          rw [List.nodup_cons, List.forall_mem_cons]
          simp only [List.mem_cons, not_or]
          grind

/-- A field that may be left out gets what it reads of the first member of its name. -/
theorem build_omittable (get : γ → Option β) {rest : Record γ (Option β → α)} {name : String}
    {c : Codec β} {members : List (String × Reading)} {h : Option β → α}
    {value : Reading → Option β} (hrest : rest.build (Reading.named members) = .ok h)
    (hvalue : ∀ r, lookup? name members = some r → c.optional.decode r = .ok (value r)) :
    (rest.field (.omittable name c) get).build (Reading.named members) =
      .ok (h ((lookup? name members).bind value)) := by
  rw [build, hrest, memberOf_named rfl, Field.name_omittable]
  cases hfound : lookup? name members with
  | none => rfl
  | some r =>
      show (c.optional.decode r).map h = _
      rw [hvalue r hfound]
      rfl

end Record

/-! ### Trees -/

namespace Reading

/-- The trees of members have names that can be read. -/
theorem exists_of_treeMembers {depth : Nat} {readings : List (Reading × Reading)}
    {ds : List (String × Data)} (h : treeMembers depth readings = .ok ds) :
    ∃ members, readings = named members ∧
      List.Forall₂ (fun m d => m.1 = d.1 ∧ m.2.tree depth = .ok d.2) members ds := by
  induction readings generalizing ds with
  | nil =>
      obtain rfl := Except.ok.inj h
      exact ⟨[], rfl, .nil⟩
  | cons member rest ih =>
      obtain ⟨key, value⟩ := member
      unfold treeMembers at h
      split at h
      · rename_i heq
        cases heq
      · rename_i name value' rest' heq
        obtain ⟨hmember, rfl⟩ := List.cons.inj heq
        obtain ⟨rfl, rfl⟩ := Prod.mk.inj hmember
        cases htree : value.tree depth with
        | error f =>
            rw [htree] at h
            cases h
        | ok d =>
            rw [htree] at h
            obtain ⟨ds, hrest, rfl⟩ := exists_of_map_ok h
            obtain ⟨members, rfl, hmembers⟩ := ih hrest
            exact ⟨(name, value) :: members, rfl, .cons ⟨rfl, htree⟩ hmembers⟩
      · cases h
      · cases h

/-- The tree of an object is one of its members, sorted. -/
theorem exists_of_tree_map {depth : Nat} {readings : List (Reading × Reading)} {stop : MapStop}
    {d : Data} (h : (map readings stop).tree (depth + 1) = .ok d) :
    ∃ ds, treeMembers depth readings = .ok ds ∧ d = .map (sortMembers ds) := by
  rw [tree] at h
  cases hmembers : treeMembers depth readings with
  | error f =>
      simp only [hmembers] at h
      cases h
  | ok ds =>
      simp only [hmembers] at h
      cases hstop : stop.asked with
      | some f =>
          rw [hstop] at h
          cases h
      | none =>
          rw [hstop] at h
          exact ⟨ds, rfl, (Except.ok.inj h).symm⟩

/-- What has the tree of an object is one. -/
theorem exists_map_of_tree {depth : Nat} {r : Reading} {ms : List (String × Data)}
    (h : r.tree depth = .ok (.map ms)) : ∃ readings stop, r = .map readings stop := by
  cases r with
  | map readings stop => exact ⟨readings, stop, rfl⟩
  | null | bool _ | num _ | str _ | flawed _ _ _ => cases h
  | seq items stop =>
      cases depth with
      | zero => cases h
      | succ depth =>
          rw [tree] at h
          split at h
          · cases h
          · split at h <;> cases h

/-- What has the tree of a text is one. -/
theorem eq_str_of_tree {depth : Nat} {r : Reading} {s : String} (h : r.tree depth = .ok (.str s)) :
    r = .str s := by
  cases r with
  | str t => exact congrArg Reading.str (Data.str.inj (Except.ok.inj h))
  | null | bool _ | num _ | flawed _ _ _ => cases h
  | seq items stop =>
      cases depth with
      | zero => cases h
      | succ depth =>
          rw [tree] at h
          split at h
          · cases h
          · split at h <;> cases h
  | map readings stop =>
      cases depth with
      | zero => cases h
      | succ depth =>
          obtain ⟨ds, -, hd⟩ := exists_of_tree_map h
          cases hd

end Reading

/-- What is found under a name among trees is the tree of what is found there among readings. -/
theorem lookup?_trees {depth : Nat} {members : List (String × Reading)} {ds : List (String × Data)}
    (h : List.Forall₂ (fun m d => m.1 = d.1 ∧ m.2.tree depth = .ok d.2) members ds)
    (name : String) (d : Data) : lookup? name ds = some d ↔
      ∃ r, lookup? name members = some r ∧ r.tree depth = .ok d := by
  induction h with
  | nil => simp [lookup?]
  | @cons m e members ds hfirst _ ih =>
      rw [lookup?, lookup?, ← hfirst.1]
      by_cases hname : m.1 = name
      · simp [hname, hfirst.2]
      · simpa [hname] using ih

/-- Trees have the names of their readings. -/
theorem names_trees {depth : Nat} {members : List (String × Reading)} {ds : List (String × Data)}
    (h : List.Forall₂ (fun m d => m.1 = d.1 ∧ m.2.tree depth = .ok d.2) members ds) :
    ds.map (·.1) = members.map (·.1) := by
  induction h with
  | nil => rfl
  | cons hfirst _ ih => rw [List.map_cons, List.map_cons, hfirst.1, ih]

end ZoneConsole
