import ZoneConsole.Proofs.Toml.Tree

/-!
# What a TOML document states is something

There is no word for null in a TOML document.  So whatever a document holds under a name is a
value, a table or a list, and a layer that is made of it never takes away what is usual.

* **`Data.Stated`** — a table whose members are not null.
* **`Node.Sound`** — the same of a tree under construction, which every statement keeps.
* **`read_stated`** — a document states what it holds.
-/

namespace ZoneConsole

/-- A table in which something stands under every name. -/
def Data.Stated : Data → Prop
  | .map members => ∀ m ∈ members, m.2 ≠ .null
  | _ => False

namespace Toml

open Text

/-! ### Trees under construction -/

namespace Node

/-- A table in which no value is null. -/
def Sound : Node → Prop
  | table _ _ entries => ∀ e ∈ entries, e.2 ≠ .value .null
  | _ => False

variable {name : String} {node : Node} {entries : List (String × Node)}

theorem IsTable.ne_null (h : node.IsTable) : node ≠ .value .null := by
  rintro rfl
  exact h

theorem forall_append_ne_null (hentries : ∀ e ∈ entries, e.2 ≠ .value .null)
    (hnode : node ≠ .value .null) : ∀ e ∈ entries ++ [(name, node)], e.2 ≠ .value .null := by
  intro e he
  rcases List.mem_append.1 he with he | he
  · exact hentries e he
  · rw [List.mem_singleton.1 he]
    exact hnode

theorem forall_replace_ne_null (hentries : ∀ e ∈ entries, e.2 ≠ .value .null)
    (hnode : node ≠ .value .null) : ∀ e ∈ replace name node entries, e.2 ≠ .value .null := by
  intro e he
  obtain ⟨⟨n, old⟩, hold, rfl⟩ := List.mem_map.1 he
  by_cases hn : n = name
  · simpa only [if_pos hn] using hnode
  · simpa only [if_neg hn] using hentries _ hold

/-- A change that leaves a table, and a sound one where it found a sound one. -/
structure Keeps (f : Node → Option Node) : Prop where
  isTable : ∀ n m, f n = some m → m.IsTable
  sound : ∀ n m, f n = some m → n.Sound → m.Sound

/-- A change at the end of a path changes the entries of the root by a table or a list. -/
theorem Keeps.change {f : Node → Option Node} (hf : Keeps f) (dotted : Bool)
    (path : List String) : Keeps (change dotted f path) where
  isTable _ _ h := change_isTable hf.isTable h
  sound := by
    intro root result h hroot
    cases path with
    | nil => exact hf.sound _ _ h hroot
    | cons name rest =>
        cases root with
        | value | tables => cases h
        | table l d entries =>
            rw [Node.change] at h
            split at h
            · obtain ⟨n, hn, rfl⟩ := Option.map_eq_some_iff.1 h
              exact forall_append_ne_null hroot (change_isTable hf.isTable hn).ne_null
            · cases h
            · split at h
              · cases h
              · obtain ⟨n, -, rfl⟩ := Option.map_eq_some_iff.1 h
                exact forall_replace_ne_null hroot (by simp)
            · split at h
              · cases h
              · obtain ⟨n, hn, rfl⟩ := Option.map_eq_some_iff.1 h
                exact forall_replace_ne_null hroot (change_isTable hf.isTable hn).ne_null

/-! ### What each statement does -/

theorem keeps_stateTable (name : String) : Keeps (stateTable name) := by
  constructor <;> intro n m h <;> unfold stateTable at h <;> split at h
  · split at h <;> cases h <;> trivial
  · cases h
  · intro hn
    split at h <;> cases h
    · exact forall_append_ne_null hn (by simp)
    · exact forall_replace_ne_null hn (by simp)
  · cases h

theorem keeps_addTable (name : String) : Keeps (addTable name) := by
  constructor <;> intro n m h <;> unfold addTable at h <;> split at h
  · split at h <;> cases h <;> trivial
  · cases h
  · intro hn
    split at h <;> cases h
    · exact forall_append_ne_null hn (by simp)
    · exact forall_replace_ne_null hn (by simp)
  · cases h

variable {d : Data}

theorem assign_isTable (throughDots : Bool) (name : String) (d : Data) (n m : Node)
    (h : assign throughDots name d n = some m) : m.IsTable := by
  unfold assign at h
  split at h
  · split at h
    · cases h
    · split at h <;> cases h
      trivial
  · cases h

theorem keeps_assign (throughDots : Bool) (name : String) (hd : d ≠ .null) :
    Keeps (assign throughDots name d) where
  isTable := assign_isTable throughDots name d
  sound := by
    intro n m h hn
    unfold assign at h
    split at h
    · split at h
      · cases h
      · split at h <;> cases h
        exact forall_append_ne_null hn fun heq => hd (Node.value.inj heq)
    · cases h

theorem assignAt_isTable (path : List String) (d : Data) (n m : Node)
    (h : assignAt path d n = some m) : m.IsTable := by
  unfold assignAt at h
  split at h
  · cases h
  · exact change_isTable (assign_isTable _ _ d) h

theorem keeps_assignAt (path : List String) (hd : d ≠ .null) : Keeps (assignAt path d) := by
  unfold assignAt
  cases path.getLast? with
  | none => exact ⟨by simp, by simp⟩
  | some name => exact (keeps_assign _ name hd).change true path.dropLast

theorem entriesData_eq (entries : List (String × Node)) :
    entriesData entries = entries.map fun e => (e.1, e.2.toData) := by
  induction entries with
  | nil => rfl
  | cons e rest ih => rw [entriesData, ih]; rfl

theorem Sound.toData (h : node.Sound) : node.toData.Stated := by
  cases node with
  | value | tables => exact h.elim
  | table l d entries =>
      intro m hm
      rw [entriesData_eq] at hm
      obtain ⟨⟨n, child⟩, he, rfl⟩ := List.mem_map.1 hm
      cases child with
      | value data =>
          intro hnull
          exact h _ he (congrArg Node.value hnull)
      | table | tables => simp [toData]

end Node

/-! ### Values -/

/-- Whatever is read is not null. -/
def Speaks (p : Parsed Data) : Prop := ∀ found ∈ p, found.1 ≠ .null

theorem speaks_none : Speaks none := nofun

theorem speaks_some {d : Data} {r : List Char} (hd : d ≠ .null) : Speaks (some (d, r)) := by
  rintro _ ⟨⟩
  exact hd

theorem speaks_map {α : Type} {o : Option α} {f : α → Data × List Char}
    (hf : ∀ a, (f a).1 ≠ .null) : Speaks (o.map f) := by
  intro found hfound
  obtain ⟨a, -, rfl⟩ := Option.map_eq_some_iff.1 hfound
  exact hf a

theorem Speaks.or {p q : Parsed Data} (hp : Speaks p) (hq : Speaks q) : Speaks (p.or q) := by
  cases p with
  | none => exact hq
  | some _ => exact hp

theorem speaks_wholeNumber (i : Int) (r : List Char) : Speaks (wholeNumber i r) := by
  unfold wholeNumber
  split
  · exact speaks_some (by simp)
  · exact speaks_none

theorem speaks_decimalNumber (negative : Bool) (cs : List Char) :
    Speaks (decimalNumber negative cs) := by
  unfold decimalNumber
  split
  · exact speaks_none
  · simp only
    split
    · exact speaks_none
    · split
      · exact speaks_none
      · split
        · exact speaks_wholeNumber _ _
        · split
          · exact speaks_none
          · exact speaks_some (by simp)

theorem speaks_wordNumber (negative : Bool) (cs : List Char) :
    Speaks (wordNumber negative cs) := by
  unfold wordNumber
  split
  · exact speaks_some (by simp)
  · exact speaks_some (by simp)
  · exact speaks_none

theorem speaks_prefixed (base : Nat) (isDigit : Char → Bool) (cs : List Char) :
    Speaks (prefixed base isDigit cs) := by
  unfold prefixed
  split
  · exact speaks_none
  · exact speaks_wholeNumber _ _

theorem speaks_readNumber (cs : List Char) : Speaks (readNumber cs) := by
  unfold readNumber
  split
  · exact speaks_prefixed _ _ _
  · exact speaks_prefixed _ _ _
  · exact speaks_prefixed _ _ _
  all_goals exact (speaks_wordNumber _ _).or (speaks_decimalNumber _ _)

theorem speaks_readDate (cs : List Char) : Speaks (readDate cs) := by
  unfold readDate
  split
  · exact speaks_map (by simp)
  · split
    · split
      · split
        · exact speaks_none
        · exact speaks_map (by simp)
      · exact speaks_some (by simp)
    · exact speaks_some (by simp)

/-! ### Values in lists and tables -/

/-- Values put into a table leave a table, whatever they are. -/
theorem foldl_assignAt_isTable (members : List (List String × Data)) :
    ∀ start : Option Node, (∀ n ∈ start, n.IsTable) →
      ∀ n ∈ members.foldl (fun node (path, value) => node.bind (Node.assignAt path value)) start,
        n.IsTable := by
  induction members with
  | nil => exact fun _ hstart => hstart
  | cons m rest ih =>
      intro start hstart
      refine ih _ fun n hn => ?_
      obtain ⟨n', -, hn⟩ := Option.bind_eq_some_iff.1 hn
      exact Node.assignAt_isTable _ _ _ _ hn

theorem inlineTable_ne_null {members : List (List String × Data)} {d : Data}
    (h : inlineTable members = some d) : d ≠ .null := by
  obtain ⟨node, hnode, rfl⟩ := Option.map_eq_some_iff.1 h
  have htable := foldl_assignAt_isTable members (some (.table false false []))
    (by rintro _ ⟨⟩; trivial) node hnode
  cases node with
  | value | tables => exact htable.elim
  | table l d entries => simp [Node.toData]

theorem speaks_readValue (fuel : Nat) (cs : List Char) : Speaks (readValue fuel cs) := by
  cases fuel with
  | zero =>
      rw [readValue]
      exact speaks_none
  | succ fuel =>
      unfold readValue
      split
      · exact speaks_none
      · exact speaks_some (by simp)
      · exact speaks_some (by simp)
      · split
        · exact speaks_none
        · exact speaks_some (by simp)
        · exact speaks_map (by simp)
      · split
        · exact speaks_some (by simp)
        · split
          · exact speaks_none
          · rintro found hfound
            obtain ⟨d, hd, rfl⟩ := Option.map_eq_some_iff.1 hfound
            exact inlineTable_ne_null hd
      · split
        · exact speaks_map (by simp)
        · split
          · exact speaks_readDate _
          · exact speaks_readNumber _

/-! ### Documents -/

/-- A statement does not state null. -/
def Statement.Speaks : Statement → Prop
  | .assign _ value => value ≠ .null
  | .table _ | .listTable _ => True

theorem speaks_readStatement {cs r : List Char} {statement : Statement}
    (h : readStatement cs = some (statement, r)) : statement.Speaks := by
  unfold readStatement at h
  simp only at h
  split at h
  · split at h <;> cases h
    trivial
  · split at h <;> cases h
    trivial
  · split at h
    · obtain ⟨⟨d, r⟩, hd, heq⟩ := Option.map_eq_some_iff.1 h
      cases heq
      exact speaks_readValue _ _ _ hd
    · cases h

theorem speaks_readStatements {fuel : Nat} {cs : List Char} {statements : List Statement}
    (h : readStatements fuel cs = some statements) : ∀ s ∈ statements, s.Speaks := by
  induction fuel generalizing cs statements with
  | zero => cases h
  | succ fuel ih =>
      rw [readStatements] at h
      split at h
      · cases h
      · cases h
        simp
      · split at h
        · cases h
        · rename_i statement _ hstatement
          split at h
          · cases h
          · obtain ⟨rest, hrest, rfl⟩ := Option.map_eq_some_iff.1 h
            rintro s (_ | ⟨_, hs⟩)
            · exact speaks_readStatement hstatement
            · exact ih hrest s hs

/-- Statements put into a sound tree leave it sound. -/
theorem assemble_sound {statements : List Statement} (hspeaks : ∀ s ∈ statements, s.Speaks) :
    ∀ {header : List String} {root result : Node}, root.Sound →
      assemble header root statements = some result → result.Sound := by
  -- Each statement is a change that keeps trees sound, wherever the last header left the path.
  induction statements with
  | nil =>
      rintro _ root _ hroot ⟨⟩
      exact hroot
  | cons statement rest ih =>
      intro header root result hroot h
      have hrest := fun s hs => hspeaks s (List.mem_cons_of_mem _ hs)
      have hkeeps {f : Node → Option Node} (hf : Node.Keeps f) (path : List String) {next : Node}
          (hchange : root.change false f path = some next) : next.Sound :=
        (hf.change false path).sound _ _ hchange hroot
      cases statement with
      | table path =>
          rw [assemble] at h
          split at h
          · cases h
          · split at h
            · cases h
            · exact ih hrest (hkeeps (Node.keeps_stateTable _) _ ‹_›) h
      | listTable path =>
          rw [assemble] at h
          split at h
          · cases h
          · split at h
            · cases h
            · exact ih hrest (hkeeps (Node.keeps_addTable _) _ ‹_›) h
      | assign path value =>
          rw [assemble] at h
          split at h
          · cases h
          · have hvalue : value ≠ .null := hspeaks _ List.mem_cons_self
            exact ih hrest (hkeeps (Node.keeps_assignAt path hvalue) _ ‹_›) h

/-- **A document states what it holds.** -/
theorem read_stated {text : String} {d : Data} (h : read text = some d) : d.Stated := by
  unfold read at h
  obtain ⟨statements, hstatements, h⟩ := Option.bind_eq_some_iff.1 h
  obtain ⟨root, hroot, rfl⟩ := Option.map_eq_some_iff.1 h
  have hempty : (Node.table false false []).Sound := List.forall_mem_nil _
  exact (assemble_sound (speaks_readStatements hstatements) hempty hroot).toData

end Toml

end ZoneConsole
