import ZoneConsole.Proofs.Members.Sorted
import ZoneConsole.Proofs.Toml.Blocks

/-!
# Trees come back from their TOML document

The statements of a tree, put into a tree under construction one after the other, make the tree
again: in each table first the values and then the tables, without what was null, and with a sign
at each number.  The proof says what the tree under construction is by what stands at the path
that is being filled, which every statement changes by one entry.

* **`Node.change_bind`** — two changes at one place are one change.
* **`Put`** — a tree in which something was put at a path.
* **`assembles`** — the statements of a table put the table there.
* **`read_write`** — a tabular tree in which all numbers fit comes back, tidied.
-/

namespace ZoneConsole.Toml

namespace Node

/-! ### Entries -/

variable {name : String} {node other : Node} {entries : List (String × Node)}

theorem find_eq_lookup? (name : String) (entries : List (String × Node)) :
    find name entries = lookup? name entries := by
  induction entries with
  | nil => rfl
  | cons entry rest ih =>
      obtain ⟨n, old⟩ := entry
      rw [find, lookup?, ih]

theorem find_eq_none : find name entries = none ↔ name ∉ entries.map (·.1) := by
  rw [find_eq_lookup?, lookup?_eq_none]

theorem find_append (h : find name entries = none) :
    find name (entries ++ [(name, node)]) = some node := by
  induction entries with
  | nil => exact if_pos rfl
  | cons entry rest ih =>
      obtain ⟨n, old⟩ := entry
      rw [find] at h
      rw [List.cons_append, find]
      split at h
      · cases h
      · rename_i hn
        rw [if_neg hn]
        exact ih h

theorem find_append_eq_none {other : String} (h : find other entries = none)
    (hne : other ≠ name) : find other (entries ++ [(name, node)]) = none := by
  rw [find_eq_none, List.map_append, List.mem_append, not_or]
  exact ⟨find_eq_none.1 h, fun hmem => hne (List.mem_singleton.1 hmem)⟩

theorem replace_of_none (other : Node) (h : find name entries = none) :
    replace name other entries = entries := by
  rw [find_eq_none] at h
  induction entries with
  | nil => rfl
  | cons entry rest ih =>
      obtain ⟨n, old⟩ := entry
      rw [List.map_cons, List.mem_cons, not_or] at h
      have hrest := ih h.2
      rw [replace] at hrest ⊢
      rw [List.map_cons, hrest]
      exact congrArg (· :: rest) (if_neg fun hn => h.1 hn.symm)

theorem replace_append (h : find name entries = none) :
    replace name other (entries ++ [(name, node)]) = entries ++ [(name, other)] := by
  have hentries := replace_of_none other h
  rw [replace] at hentries ⊢
  rw [List.map_append, hentries]
  simp

theorem find_replace {old : Node} (h : find name entries = some old) :
    find name (replace name node entries) = some node := by
  induction entries with
  | nil => cases h
  | cons entry rest ih =>
      obtain ⟨n, old⟩ := entry
      rw [find] at h
      rw [replace, List.map_cons]
      by_cases hn : n = name
      · simp only [if_pos hn, find]
      · rw [if_neg hn] at h
        simp only [if_neg hn, find]
        exact ih h

theorem replace_replace : replace name other (replace name node entries)
    = replace name other entries := by
  simp only [replace, List.map_map]
  congr 1
  funext ⟨n, old⟩
  by_cases hn : n = name <;> simp [hn]

/-! ### Changes -/

/-- Is the node a table? -/
def IsTable : Node → Prop
  | table _ _ _ => True
  | _ => False

variable {f g : Node → Option Node}

theorem change_isTable {dotted : Bool} (hf : ∀ n m, f n = some m → m.IsTable)
    {path : List String} {root result : Node} (h : root.change dotted f path = some result) :
    result.IsTable := by
  cases path with
  | nil => exact hf _ _ h
  | cons name rest =>
      cases root with
      | value | tables => cases h
      | table l d entries =>
          rw [change] at h
          split at h
          · obtain ⟨n, -, rfl⟩ := Option.map_eq_some_iff.1 h
            trivial
          · cases h
          · split at h
            · cases h
            · obtain ⟨n, -, rfl⟩ := Option.map_eq_some_iff.1 h
              trivial
          · split at h
            · cases h
            · obtain ⟨n, -, rfl⟩ := Option.map_eq_some_iff.1 h
              trivial

/-- **Two changes at one place** are one change, if the first one leaves a table there. -/
theorem change_bind (hf : ∀ n m, f n = some m → m.IsTable) (path : List String) (root : Node) :
    root.change false (fun n => (f n).bind g) path
      = (root.change false f path).bind fun r => r.change false g path := by
  induction path generalizing root with
  | nil => rfl
  | cons name rest ih =>
      cases root with
      | value | tables => rfl
      | table l d entries =>
          rw [change, change]
          cases hfind : find name entries with
          | none =>
              -- The first change makes the table, and the second one finds it.
              simp only [ih]
              cases hfirst : change false f rest (table true false []) with
              | none => rfl
              | some node =>
                  have htable := change_isTable hf hfirst
                  cases node with
                  | value | tables => exact htable.elim
                  | table l' d' entries' =>
                      simp only [Option.bind_some, Option.map_some, change, find_append hfind,
                        replace_append hfind, Bool.false_and, Bool.false_eq_true, if_false]
          | some node =>
              cases node with
              | value data => rfl
              | tables elements =>
                  -- Of a list of tables both change the last one.
                  cases hlast : elements.getLast? with
                  | none => simp only [hlast, Option.bind_none]
                  | some last =>
                      simp only [hlast, ih]
                      cases change false f rest last with
                      | none => rfl
                      | some node =>
                          simp only [Option.bind_some, Option.map_some, change,
                            find_replace hfind, List.getLast?_concat,
                            List.dropLast_concat, replace_replace]
              | table l' d' entries' =>
                  simp only [ih, Bool.false_and, Bool.false_eq_true, if_false]
                  cases hfirst : change false f rest (table l' d' entries') with
                  | none => rfl
                  | some node =>
                      have htable := change_isTable hf hfirst
                      cases node with
                      | value | tables => exact htable.elim
                      | table l'' d'' entries'' =>
                          simp only [Option.bind_some, Option.map_some, change,
                            find_replace hfind, replace_replace, Bool.false_and,
                            Bool.false_eq_true, if_false]

/-- A change at the end of a path is a change at the end of its first part. -/
theorem change_append (dotted : Bool) (path more : List String) (root : Node) :
    root.change dotted f (path ++ more) = root.change dotted (change dotted f more) path := by
  induction path generalizing root with
  | nil => rfl
  | cons name rest ih =>
      cases root with
      | value | tables => rfl
      | table l d entries => simp only [List.cons_append, change, ih]

/-- What is put at a path can be put there in place of something else. -/
theorem change_const {path : List String} {root node result : Node}
    (h : root.change false (fun _ => some node) path = some result) (other : Node) :
    ∃ result', root.change false (fun _ => some other) path = some result' := by
  induction path generalizing root result with
  | nil => exact ⟨other, rfl⟩
  | cons name rest ih =>
      cases root with
      | value | tables => cases h
      | table l d entries =>
          rw [change] at h ⊢
          split at h
          · obtain ⟨n, hn, -⟩ := Option.map_eq_some_iff.1 h
            obtain ⟨n', hn'⟩ := ih hn
            simp only [hn', Option.map_some]
            exact ⟨_, rfl⟩
          · cases h
          · split at h
            · cases h
            · obtain ⟨n, hn, -⟩ := Option.map_eq_some_iff.1 h
              obtain ⟨n', hn'⟩ := ih hn
              simp only [hn', Option.map_some]
              exact ⟨_, rfl⟩
          · split at h
            · cases h
            · obtain ⟨n, hn, -⟩ := Option.map_eq_some_iff.1 h
              obtain ⟨n', hn'⟩ := ih hn
              simp only [hn', Option.map_some, Bool.false_and, Bool.false_eq_true, if_false]
              exact ⟨_, rfl⟩

end Node

/-! ### Trees in which something was put -/

/-- The tree with a table put at a path. -/
def Put (root : Node) (path : List String) (node result : Node) : Prop :=
  root.change false (fun _ => some node) path = some result

variable {root node result : Node} {path : List String}

/-- A change where something was put is a change of what was put. -/
theorem Put.change (h : Put root path node result) (hnode : node.IsTable)
    (f : Node → Option Node) :
    result.change false f path = root.change false (fun _ => f node) path := by
  have hbind := Node.change_bind (f := fun _ => some node) (g := f)
    (by rintro _ _ heq; exact Option.some.inj heq ▸ hnode) path root
  rw [h] at hbind
  exact hbind.symm

/-- A change of what was put puts its outcome there. -/
theorem Put.change_some (h : Put root path node result) (hnode : node.IsTable)
    {f : Node → Option Node} {node' : Node} (hf : f node = some node') :
    ∃ result', result.change false f path = some result' ∧ Put root path node' result' := by
  obtain ⟨result', hresult⟩ := Node.change_const h node'
  refine ⟨result', ?_, hresult⟩
  rw [h.change hnode, hf]
  exact hresult

variable {l d : Bool} {name : String} {entries : List (String × Node)}

/-- Under a new name a change finds an empty table, as if a header had led to it. -/
theorem change_new (hname : Node.find name entries = none) (f : Node → Option Node) :
    Node.change false f [name] (.table l d entries)
      = (f (.table true false [])).map fun node => .table l d (entries ++ [(name, node)]) := by
  rw [Node.change]
  simp only [hname]
  rfl

/-- Put under a new name of a table is put into the tree that has the table. -/
theorem put_snoc (h : Put root path (.table l d entries) result)
    (hname : Node.find name entries = none) {node result' : Node} :
    Put result (path ++ [name]) node result' ↔
      Put root path (.table l d (entries ++ [(name, node)])) result' := by
  have hchange : Node.change false (fun _ => some node) [name] (.table l d entries)
      = some (.table l d (entries ++ [(name, node)])) := change_new hname _
  rw [Put, Node.change_append, h.change trivial, hchange, Put]

/-- The first change under a new name is one of the tree that has an empty table there. -/
theorem change_snoc (h : Put root path (.table l d entries) result)
    (hname : Node.find name entries = none) {result' : Node}
    (hnew : Put result (path ++ [name]) (.table true false []) result') (f : Node → Option Node) :
    result.change false f (path ++ [name]) = result'.change false f (path ++ [name]) := by
  rw [hnew.change trivial, Node.change_append, Node.change_append, h.change trivial,
    h.change trivial, change_new hname, change_new hname]

/-! ### Trees that statements make -/

/-- The lines of a table as entries. -/
def lineNodes (members : List (String × Data)) : List (String × Node) :=
  (lineMembers members).map fun (name, value) => (name, .value (signed value))

mutual

/-- A tree as its statements make it. -/
def toNode : Data → Node
  | .map members => .table (isHeaderless members) false (lineNodes members ++ tableNodes members)
  | d => .value (signed d)

/-- The tables among members as entries. -/
def tableNodes : List (String × Data) → List (String × Node)
  | [] => []
  | (name, value) :: rest =>
    if isTable value then (name, toNode value) :: tableNodes rest else tableNodes rest

end

/-- Statements of values put them into the table that was stated last, under new names. -/
theorem assemble_lines (members : List (String × Data)) (rest : List Statement) :
    ∀ {result : Node} {entries : List (String × Node)},
      Put root path (.table l false entries) result → Data.Distinct members →
      (∀ m ∈ members, Node.find m.1 entries = none) →
      ∃ result', Put root path (.table l false (entries ++ lineNodes members)) result' ∧
        assemble path result (lineStatements members ++ rest) = assemble path result' rest := by
  induction members with
  | nil =>
      intro result entries h _ _
      refine ⟨result, ?_, rfl⟩
      rw [show lineNodes [] = [] from rfl, List.append_nil]
      exact h
  | cons member members ih =>
      obtain ⟨name, value⟩ := member
      intro result entries h hdistinct hnew
      obtain ⟨hname, hdistinct⟩ := List.nodup_cons.1 hdistinct
      rw [lineNodes, lineStatements]
      cases hline : isLine value with
      | false =>
          rw [lineMembers_of_not hline]
          exact ih h hdistinct fun m hm => hnew m (List.mem_cons_of_mem _ hm)
      | true =>
          have hassign : Node.assignAt [name] (signed value) (.table l false entries)
              = some (.table l false (entries ++ [(name, .value (signed value))])) := by
            have hfind := hnew _ List.mem_cons_self
            simp only at hfind
            show Node.assign false name (signed value) (.table l false entries) = _
            rw [Node.assign]
            simp only [hfind]
            rfl
          obtain ⟨next, hchange, hnext⟩ := h.change_some trivial hassign
          obtain ⟨result', hresult, hrest⟩ := ih hnext hdistinct fun m hm =>
            Node.find_append_eq_none (hnew m (List.mem_cons_of_mem _ hm))
              (ne_of_mem_of_not_mem (List.mem_map_of_mem hm) hname)
          -- The entry is one more at the end, so the names that are left are still new.
          refine ⟨result', ?_, ?_⟩
          · rw [lineMembers_of_line hline]
            rw [List.append_assoc] at hresult
            exact hresult
          · rw [lineMembers_of_line hline, List.map_cons, List.cons_append, assemble, hchange]
            exact hrest

theorem tableStatements_of_not {d : Data} (htable : isTable d = false) (path : List String) :
    tableStatements path d = [] := by
  cases d with
  | map _ => cases htable
  | null | bool | num | str | seq => rfl

mutual

/-- A table with tables in it states one of them first, or itself. -/
theorem exists_tableStatement : ∀ (d : Data) (path : List String), isTable d = true →
    path ≠ [] → ∃ more rest, (tableStatements path d).flatten = .table (path ++ more) :: rest
  | .map members, path, _, hpath => by
      rw [tableStatements, ownStatements, if_neg (by simpa using hpath)]
      by_cases hheader : isHeaderless members = true
      · obtain ⟨more, rest, -, hfirst⟩ := exists_memberStatement members path
          (by simp only [isHeaderless, Bool.and_eq_true] at hheader; exact hheader.2)
        rw [if_pos hheader, List.nil_append]
        exact ⟨more, rest, hfirst⟩
      · rw [if_neg hheader]
        exact ⟨[], _, by rw [List.append_nil]; rfl⟩

/-- Tables among members state something below their path first. -/
theorem exists_memberStatement : ∀ (members : List (String × Data)) (path : List String),
    members.any (fun (_, value) => isTable value) →
    ∃ more rest, more ≠ [] ∧ (memberStatements path members).flatten
      = .table (path ++ more) :: rest
  | (name, value) :: rest, path, h => by
      by_cases htable : isTable value = true
      · obtain ⟨more, rest', hfirst⟩ :=
          exists_tableStatement value (path ++ [name]) htable (by simp)
        refine ⟨name :: more, rest' ++ (memberStatements path rest).flatten, by simp, ?_⟩
        rw [memberStatements, List.flatten_append, hfirst, List.append_assoc]
        rfl
      · have hrest : rest.any (fun (_, value) => isTable value) = true := by
          simpa [htable] using h
        rw [memberStatements, tableStatements_of_not (Bool.eq_false_iff.2 htable)]
        exact exists_memberStatement rest path hrest

end

/-- The lines of a headerless table are none. -/
theorem lineNodes_of_headerless {members : List (String × Data)}
    (h : isHeaderless members = true) : lineNodes members = [] := by
  simp only [isHeaderless, Bool.and_eq_true, List.isEmpty_iff] at h
  rw [lineNodes, h.1]
  rfl

/-- A table among members has another name than every line. -/
theorem find_lineNodes {members : List (String × Data)} (hdistinct : Data.Distinct members)
    {m : String × Data} (hm : m ∈ members) (htable : isTable m.2 = true) :
    Node.find m.1 (lineNodes members) = none := by
  rw [Node.find_eq_none, lineNodes, List.map_map]
  intro hmem
  obtain ⟨m', hm', hname⟩ := List.mem_map.1 hmem
  obtain rfl : m' = m :=
    List.inj_on_of_nodup_map hdistinct (mem_of_mem_lineMembers hm') hm hname
  have hline : isLine m'.2 = true := (List.mem_filter.1 hm').2
  simp [isLine, htable] at hline

/-- A statement of a table below a new name finds an empty table under the name. -/
theorem assemble_below {next : Node} (h : Put root path (.table l d entries) result)
    (hname : Node.find name entries = none)
    (hnext : Put result (path ++ [name]) (.table true false []) next) (header : List String)
    {more : List String} (hmore : more ≠ []) (rest : List Statement) :
    assemble header result (.table (path ++ [name] ++ more) :: rest)
      = assemble header next (.table (path ++ [name] ++ more) :: rest) := by
  obtain ⟨init, last, rfl⟩ : ∃ init last, more = init ++ [last] :=
    ⟨more.dropLast, more.getLast hmore, (List.dropLast_append_getLast hmore).symm⟩
  rw [assemble, assemble]
  simp only [← List.append_assoc, List.getLast?_concat, List.dropLast_concat]
  rw [Node.change_append, Node.change_append false (path ++ [name]) init next,
    change_snoc h hname hnext]

/-- The statements of a tree put it under a new name of the table at a path. -/
def Assembles (d : Data) : Prop :=
  ∀ ⦃root result : Node⦄ ⦃path : List String⦄ ⦃l : Bool⦄ ⦃entries : List (String × Node)⦄
    ⦃name : String⦄ (header : List String) (rest : List Statement),
    Put root path (.table l false entries) result → Node.find name entries = none →
    ∃ header' result', Put root path (.table l false (entries ++ [(name, toNode d)])) result' ∧
      assemble header result ((tableStatements (path ++ [name]) d).flatten ++ rest)
        = assemble header' result' rest

/-- The statements of the tables among members put them under names that are new. -/
def AssemblesMembers (members : List (String × Data)) : Prop :=
  ∀ ⦃root result : Node⦄ ⦃path : List String⦄ ⦃l : Bool⦄ ⦃entries : List (String × Node)⦄
    (header : List String) (rest : List Statement),
    Put root path (.table l false entries) result →
    (∀ m ∈ members, isTable m.2 = true → Node.find m.1 entries = none) →
    ∃ header' result', Put root path (.table l false (entries ++ tableNodes members)) result' ∧
      assemble header result ((memberStatements path members).flatten ++ rest)
        = assemble header' result' rest

variable {members : List (String × Data)}

/-- A table is put by its own lines and by the tables in it, if it has a header. -/
theorem assembles_of_header (hheader : isHeaderless members = false)
    (hdistinct : Data.Distinct members) (hmembers : AssemblesMembers members) :
    Assembles (.map members) := by
  intro root result path l entries name header rest h hname
  -- The header states an empty table, which the lines fill before the tables below do.
  have hstate : Node.stateTable name (.table l false entries)
      = some (.table l false (entries ++ [(name, .table false false [])])) := by
    rw [Node.stateTable]
    simp only [hname]
  obtain ⟨stated, hstated, hput⟩ := h.change_some trivial hstate
  obtain ⟨lined, hlined, hlines⟩ := assemble_lines members
    ((memberStatements (path ++ [name]) members).flatten ++ rest)
    ((put_snoc h hname).2 hput) hdistinct (fun _ _ => rfl)
  obtain ⟨header', result', hresult, hrest⟩ := hmembers (path ++ [name]) rest hlined
    (fun m hm htable => find_lineNodes hdistinct hm htable)
  refine ⟨header', result', (put_snoc h hname).1 ?_, ?_⟩
  · rw [toNode, hheader]
    exact hresult
  · rw [tableStatements, ownStatements, if_neg (by simp), hheader, if_neg Bool.false_ne_true,
      ← hrest, ← hlines, List.flatten_append, List.flatten_singleton, List.append_assoc,
      List.cons_append, assemble, List.getLast?_concat, List.dropLast_concat]
    simp only [hstated]

/-- A table without a header is put by the first table in it, which leads to it: it is as good
    as empty before. -/
theorem assembles_of_headerless (hheader : isHeaderless members = true)
    (hmembers : AssemblesMembers members) : Assembles (.map members) := by
  intro root result path l entries name header rest h hname
  -- Until the first table below is stated, an empty table might as well stand there.
  obtain ⟨next, hnext⟩ : ∃ next, Put result (path ++ [name]) (.table true false []) next := by
    obtain ⟨next, hnext⟩ := Node.change_const h
      (.table l false (entries ++ [(name, .table true false [])]))
    exact ⟨next, (put_snoc h hname).2 hnext⟩
  obtain ⟨header', result', hresult, hrest⟩ := hmembers header rest hnext (fun _ _ _ => rfl)
  refine ⟨header', result', (put_snoc h hname).1 ?_, ?_⟩
  · rw [toNode, lineNodes_of_headerless hheader, hheader]
    exact hresult
  · obtain ⟨more, stated, hmore, hfirst⟩ := exists_memberStatement members (path ++ [name])
      (by simp only [isHeaderless, Bool.and_eq_true] at hheader; exact hheader.2)
    rw [tableStatements, ownStatements, if_neg (by simp), if_pos hheader, List.nil_append,
      ← hrest, hfirst, List.cons_append]
    exact assemble_below h hname hnext header hmore (stated ++ rest)

/-- A member is put before the rest, if it is a table, and else there is nothing to put. -/
theorem assemblesMembers_cons {name : String} {value : Data}
    (hname : name ∉ members.map (·.1)) (hvalue : isTable value = true → Assembles value)
    (hmembers : AssemblesMembers members) : AssemblesMembers ((name, value) :: members) := by
  intro root result path l entries header rest h hnew
  by_cases htable : isTable value = true
  · obtain ⟨header', next, hnext, hfirst⟩ := hvalue htable header
      ((memberStatements path members).flatten ++ rest) h (hnew _ List.mem_cons_self htable)
    obtain ⟨header'', result', hresult, hrest⟩ := hmembers header' rest hnext fun m hm hm' =>
      Node.find_append_eq_none (hnew m (List.mem_cons_of_mem _ hm) hm')
        (ne_of_mem_of_not_mem (List.mem_map_of_mem hm) hname)
    refine ⟨header'', result', ?_, ?_⟩
    · rw [tableNodes, if_pos htable]
      rw [List.append_assoc] at hresult
      exact hresult
    · rw [memberStatements, List.flatten_append, List.append_assoc, hfirst, hrest]
  · obtain ⟨header', result', hresult, hrest⟩ := hmembers header rest h
      (fun m hm => hnew m (List.mem_cons_of_mem _ hm))
    refine ⟨header', result', ?_, ?_⟩
    · rw [tableNodes, if_neg htable]
      exact hresult
    · rw [memberStatements, tableStatements_of_not (Bool.eq_false_iff.2 htable)]
      exact hrest

mutual

/-- **The statements of a table** put it under a new name of the table at the path. -/
theorem assembles : ∀ d : Data, isTable d = true → d.Tabular → Assembles d
  | .map members, _, ⟨hdistinct, htab⟩ => by
      have hmembers := assemblesMembers members hdistinct htab
      cases hheader : isHeaderless members with
      | true => exact assembles_of_headerless hheader hmembers
      | false => exact assembles_of_header hheader hdistinct hmembers

theorem assemblesMembers : ∀ members : List (String × Data), Data.Distinct members →
    Data.TabularMembers members → AssemblesMembers members
  | [], _, _ => by
      intro root result path l entries header rest h _
      refine ⟨header, result, ?_, rfl⟩
      rw [tableNodes, List.append_nil]
      exact h
  | (name, value) :: members, hdistinct, ⟨hvalue, hrest⟩ => by
      obtain ⟨hname, hdistinct⟩ := List.nodup_cons.1 hdistinct
      exact assemblesMembers_cons hname (fun htable => assembles value htable hvalue)
        (assemblesMembers members hdistinct hrest)

end

/-! ### The tree that comes back -/

mutual

/-- A tree as it comes back: the lines of each table before its tables, without what is null. -/
def tidy : Data → Data
  | .map members =>
    .map ((lineMembers members).map (fun (name, value) => (name, signed value)) ++
      tidyTables members)
  | d => signed d

/-- The tables among members as they come back. -/
def tidyTables : List (String × Data) → List (String × Data)
  | [] => []
  | (name, value) :: rest =>
    if isTable value then (name, tidy value) :: tidyTables rest else tidyTables rest

end

theorem entriesData_append (entries more : List (String × Node)) :
    Node.entriesData (entries ++ more) = Node.entriesData entries ++ Node.entriesData more := by
  induction entries with
  | nil => rfl
  | cons entry rest ih => rw [List.cons_append, Node.entriesData, ih, Node.entriesData]; rfl

theorem entriesData_lineNodes (members : List (String × Data)) :
    Node.entriesData (lineNodes members)
      = (lineMembers members).map fun (name, value) => (name, signed value) := by
  rw [lineNodes]
  induction lineMembers members with
  | nil => rfl
  | cons member rest ih => rw [List.map_cons, Node.entriesData, ih]; rfl

mutual

theorem toData_toNode : ∀ d : Data, (toNode d).toData = tidy d
  | .map members => by
      rw [toNode, Node.toData, entriesData_append, entriesData_lineNodes,
        entriesData_tableNodes members, tidy]
  | .null => rfl
  | .bool _ => rfl
  | .num (.unsigned _) => rfl
  | .num (.signed _) => rfl
  | .num (.real _) => rfl
  | .str _ => rfl
  | .seq _ => rfl

theorem entriesData_tableNodes : ∀ members : List (String × Data),
    Node.entriesData (tableNodes members) = tidyTables members
  | [] => rfl
  | (name, value) :: rest => by
      rw [tableNodes, tidyTables]
      split
      · rw [Node.entriesData, toData_toNode value, entriesData_tableNodes rest]
      · exact entriesData_tableNodes rest

end

/-- The statements of a whole document make its tree. -/
theorem assemble_document {members : List (String × Data)} (htab : (Data.map members).Tabular) :
    assemble [] (.table false false []) (tableStatements [] (.map members)).flatten
      = some (.table false false (lineNodes members ++ tableNodes members)) := by
  have hroot : Put (.table false false []) [] (.table false false []) (.table false false []) := rfl
  obtain ⟨lined, hlined, hlines⟩ := assemble_lines members (memberStatements [] members).flatten
    hroot htab.1 (fun _ _ => rfl)
  obtain ⟨header, result, hresult, hrest⟩ := assemblesMembers members htab.1 htab.2 [] []
    hlined (fun m hm htable => find_lineNodes htab.1 hm htable)
  have hown : (ownStatements [] members).flatten = lineStatements members := by
    rw [ownStatements, lineStatements]
    cases lineMembers members with
    | nil => rfl
    | cons m rest => exact List.append_nil _
  rw [List.append_nil] at hrest
  rw [tableStatements, List.flatten_append, hown, hlines, hrest]
  exact hresult.symm

theorem read_eq_assemble {text : List Char} {statements : List Statement}
    (h : Says text statements) :
    read (String.ofList text)
      = (assemble [] (.table false false []) statements).map Node.toData := by
  have hread := readStatements_of_says h (text.length + 1) (Nat.lt_succ_self _)
  unfold read
  rw [String.toList_ofList]
  split
  · exact absurd rfl h.head?_ne
  · simp only [hread, Option.bind_some]

/-- **A tree comes back from its document**, tidied, if it has one. -/
theorem read_write {members : List (String × Data)} (htab : (Data.map members).Tabular)
    (hfits : (Data.map members).Fits) :
    ∃ text, write (.map members) = .ok text ∧ read text = some (tidy (.map members)) := by
  obtain ⟨blocks, hblocks, hsays⟩ := tableBlocks_says (.map members) [] htab hfits
  have htext := says_intersperse hsays
  refine ⟨String.ofList (blocks.intersperse ['\n']).flatten, ?_, ?_⟩
  · rw [write, if_pos (show isTable (.map members) = true from rfl), hblocks]
    rfl
  · rw [read_eq_assemble htext, assemble_document htab, Option.map_some, Node.toData,
      entriesData_append, entriesData_lineNodes, entriesData_tableNodes, tidy]

/-- **A tree in which a number does not fit has no document.** -/
theorem write_outOfRange {members : List (String × Data)} (htab : (Data.map members).Tabular)
    (hfits : ¬ (Data.map members).Fits) : write (.map members) = .error .outOfRange := by
  rw [write, if_pos (show isTable (.map members) = true from rfl),
    tableBlocks_outOfRange _ [] rfl htab hfits]
  rfl

end ZoneConsole.Toml
