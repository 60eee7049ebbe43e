import Mathlib.Data.List.Forall2
import ZoneConsole.Proofs.Toml.Line

/-!
# What the blocks of a TOML document state

The writer goes through a tree and writes blocks of lines, and the reader makes statements of
lines.  Here the same walk through the tree makes statements, and each block that is written says
just the statements of its table.

* **`Says`** — a text is lines that are read as statements, with empty lines between them.
* **`tableStatements`** — what a table and the tables in it state, block by block.
* **`tableBlocks_says`** — the blocks that are written say it, if every number fits.
* **`tableBlocks_outOfRange`** — and else nothing is written.
-/

namespace ZoneConsole.Toml

open Text

/-! ### Texts of lines -/

/-- A text says statements: one on each line, and nothing on an empty one. -/
inductive Says : List Char → List Statement → Prop where
  | nil : Says [] []
  | line {text more : List Char} {statement : Statement} {rest : List Statement}
      (hline : Line text statement) (hrest : Says more rest) :
      Says (text ++ '\n' :: more) (statement :: rest)
  | blank {more : List Char} {rest : List Statement} (hrest : Says more rest) :
      Says ('\n' :: more) rest

theorem Says.append {text more : List Char} {first rest : List Statement} (h : Says text first)
    (hrest : Says more rest) : Says (text ++ more) (first ++ rest) := by
  induction h with
  | nil => exact hrest
  | line hline _ ih =>
      rw [List.append_assoc, List.cons_append, List.cons_append]
      exact .line hline ih
  | blank _ ih => exact .blank ih

/-- Blocks with an empty line between them say what they say one after the other. -/
theorem says_intersperse {blocks : List (List Char)} {statements : List (List Statement)}
    (h : List.Forall₂ Says blocks statements) :
    Says (blocks.intersperse ['\n']).flatten statements.flatten := by
  induction h with
  | nil => exact .nil
  | @cons block first blocks rest hblock hblocks ih =>
      cases blocks with
      | nil =>
          cases hblocks
          simpa using hblock
      | cons next blocks =>
          have hmore := hblock.append ih.blank
          simpa using hmore

theorem skipComment_opens {c : Char} (hc : Opens c) (more : List Char) :
    skipComment (skipSpaces (c :: more)) = some (c :: more) := by
  have hspaces : skipSpaces (c :: more) = c :: more :=
    dropWhile_of_stops (stops_cons hc.notSpace more)
  rw [hspaces, skipComment]
  rintro r heq
  exact hc.ne rfl (by decide) (by decide) (by decide) (List.cons.inj heq).1

/-- Nothing is skipped where a line begins that states something. -/
theorem skipLines_opens {c : Char} (hc : Opens c) (fuel : Nat) (more : List Char) :
    skipLines (fuel + 1) (c :: more) = some (c :: more) := by
  have hnew : newLine? (c :: more) = none := by
    rw [newLine?]
    · rintro r heq
      exact hc.ne rfl (by decide) (by decide) (by decide) (List.cons.inj heq).1
    · rintro r heq
      exact hc.ne rfl (by decide) (by decide) (by decide) (List.cons.inj heq).1
  rw [skipLines, skipComment_opens hc]
  simp only [hnew]

theorem skipLines_newLine (fuel : Nat) (more : List Char) :
    skipLines (fuel + 1) ('\n' :: more) = skipLines fuel more := rfl

/-- **The statements that a text says are read from it.** -/
theorem readStatements_of_says {text : List Char} {statements : List Statement}
    (h : Says text statements) :
    ∀ fuel, text.length < fuel → readStatements fuel text = some statements := by
  induction h with
  | nil =>
      intro fuel hfuel
      obtain ⟨fuel, rfl⟩ := Nat.exists_eq_succ_of_ne_zero (Nat.ne_of_gt hfuel)
      rfl
  | @line text more statement rest hline _ ih =>
      intro fuel hfuel
      obtain ⟨fuel, rfl⟩ := Nat.exists_eq_succ_of_ne_zero (Nat.ne_of_gt (Nat.zero_lt_of_lt hfuel))
      obtain ⟨⟨c, cs, rfl, hc⟩, hreads⟩ := hline
      have hstatement := hreads more
      have hend : endLine ('\n' :: more) = some more := rfl
      have hrest := ih fuel (by simp only [List.length_append, List.length_cons] at hfuel; omega)
      rw [List.cons_append] at hstatement ⊢
      rw [readStatements, skipLines_opens hc]
      simp only [hstatement, hend, hrest, Option.map_some]
  | @blank more rest _ ih =>
      intro fuel hfuel
      obtain ⟨fuel, rfl⟩ := Nat.exists_eq_succ_of_ne_zero (Nat.ne_of_gt (Nat.zero_lt_of_lt hfuel))
      have hrest := ih (fuel + 1) (by simp only [List.length_cons] at hfuel; omega)
      rw [readStatements, List.length_cons, skipLines_newLine]
      rw [readStatements] at hrest
      exact hrest

/-- A text that says something begins with no mark of the byte order. -/
theorem Says.head?_ne {text : List Char} {statements : List Statement} (h : Says text statements) :
    text.head? ≠ some '\ufeff' := by
  cases h with
  | nil => exact nofun
  | blank => exact fun h => absurd (Option.some.inj h) (by decide)
  | line hline =>
      obtain ⟨⟨c, cs, rfl, hc⟩, -⟩ := hline
      intro heq
      exact hc.ne rfl (by decide) (by decide) (by decide) (Option.some.inj heq)

/-! ### Statements of a tree -/

/-- The members of a table that are written on lines of their own. -/
def lineMembers (members : List (String × Data)) : List (String × Data) :=
  members.filter fun (_, value) => isLine value

/-- What the lines of a table state. -/
def lineStatements (members : List (String × Data)) : List Statement :=
  (lineMembers members).map fun (name, value) => .assign [name] (signed value)

/-- Is a table written without a header of its own? -/
def isHeaderless (members : List (String × Data)) : Bool :=
  (lineMembers members).isEmpty && members.any fun (_, value) => isTable value

/-- What the block of a table itself states: one block or none. -/
def ownStatements (path : List String) (members : List (String × Data)) :
    List (List Statement) :=
  if path.isEmpty then (if (lineMembers members).isEmpty then [] else [lineStatements members])
  else if isHeaderless members then []
  else [.table path :: lineStatements members]

mutual

/-- What the blocks of a table and of the tables in it state. -/
def tableStatements (path : List String) : Data → List (List Statement)
  | .map members => ownStatements path members ++ memberStatements path members
  | _ => []

/-- What the blocks of the tables among members state. -/
def memberStatements (path : List String) : List (String × Data) → List (List Statement)
  | [] => []
  | (name, value) :: rest =>
    tableStatements (path ++ [name]) value ++ memberStatements path rest

end

/-! ### What is written -/

variable {members : List (String × Data)}

theorem writeValue_of_fits {d : Data} (htab : d.Tabular) (hline : isLine d) (hfits : d.Fits) :
    writeValue d = .ok (valueText d) := by
  cases d with
  | null => cases hline
  | map _ => cases hline
  | seq _ => exact htab.elim
  | bool _ => rfl
  | str _ => rfl
  | num n =>
      cases n with
      | unsigned n => exact if_pos hfits
      | signed => exact htab.elim
      | real => exact htab.elim

theorem writeValue_outOfRange {d : Data} (htab : d.Tabular) (hline : isLine d)
    (hfits : ¬ d.Fits) : writeValue d = .error .outOfRange := by
  cases d with
  | null => cases hline
  | map _ => cases hline
  | seq _ => exact htab.elim
  | bool _ => exact absurd trivial hfits
  | str _ => exact absurd trivial hfits
  | num n =>
      cases n with
      | unsigned n => exact if_neg hfits
      | signed => exact htab.elim
      | real => exact htab.elim

/-- The line of a member. -/
def lineText (member : String × Data) : List Char :=
  writeName member.1 ++ " = ".toList ++ valueText member.2

theorem lineMembers_of_line {name : String} {value : Data} (hline : isLine value = true) :
    lineMembers ((name, value) :: members) = (name, value) :: lineMembers members :=
  List.filter_cons_of_pos hline

theorem lineMembers_of_not {name : String} {value : Data} (hline : isLine value = false) :
    lineMembers ((name, value) :: members) = lineMembers members :=
  List.filter_cons_of_neg (by simp [hline])

/-- The members of a table before the tables in it. -/
def ownMembers (members : List (String × Data)) : List (String × Data) :=
  members.filter fun (_, value) => !isTable value

/-- A table is written elsewhere, and null is not written at all. -/
theorem writePairs_of_not {name : String} {value : Data} (hline : isLine value = false) :
    writePairs (ownMembers ((name, value) :: members)) = writePairs (ownMembers members) := by
  rw [ownMembers]
  cases htable : isTable value with
  | true =>
      rw [List.filter_cons_of_neg (by simp [htable])]
      rfl
  | false =>
      have hnull : isNull value = true := by simpa [isLine, htable] using hline
      rw [List.filter_cons_of_pos (by simp [htable]), writePairs, if_pos hnull]
      rfl

theorem writePairs_of_line {name : String} {value : Data} (hline : isLine value = true) :
    writePairs (ownMembers ((name, value) :: members)) = match writeValue value with
      | .error e => .error e
      | .ok t =>
        (writePairs (ownMembers members)).map ((writeName name ++ " = ".toList ++ t) :: ·) := by
  obtain ⟨htable, hnull⟩ : isTable value = false ∧ isNull value = false := by
    simpa [isLine] using hline
  rw [ownMembers, List.filter_cons_of_pos (by simp [htable]), writePairs, if_neg (by simp [hnull])]
  rfl

/-- Each member has its line, except tables and what is null. -/
theorem writePairs_of_fits (htab : ∀ m ∈ members, m.2.Tabular)
    (hfits : ∀ m ∈ lineMembers members, m.2.Fits) :
    writePairs (ownMembers members) = .ok ((lineMembers members).map lineText) := by
  induction members with
  | nil => rfl
  | cons member rest ih =>
      obtain ⟨name, value⟩ := member
      have hrest := ih fun m hm => htab m (List.mem_cons_of_mem _ hm)
      cases hline : isLine value with
      | false =>
          rw [lineMembers_of_not hline] at hfits ⊢
          rw [writePairs_of_not hline]
          exact hrest hfits
      | true =>
          rw [lineMembers_of_line hline] at hfits ⊢
          rw [writePairs_of_line hline,
            writeValue_of_fits (htab _ List.mem_cons_self) hline (hfits _ List.mem_cons_self)]
          simp only [hrest fun m hm => hfits m (List.mem_cons_of_mem _ hm)]
          rfl

/-- A number without its place in a line spoils them all. -/
theorem writePairs_outOfRange (htab : ∀ m ∈ members, m.2.Tabular)
    (hfits : ∃ m ∈ lineMembers members, ¬ m.2.Fits) :
    writePairs (ownMembers members) = .error .outOfRange := by
  induction members with
  | nil =>
      obtain ⟨m, hm, -⟩ := hfits
      cases hm
  | cons member rest ih =>
      obtain ⟨name, value⟩ := member
      have hrest := ih fun m hm => htab m (List.mem_cons_of_mem _ hm)
      have hvalue := htab _ List.mem_cons_self
      cases hline : isLine value with
      | false =>
          rw [lineMembers_of_not hline] at hfits
          rw [writePairs_of_not hline]
          exact hrest hfits
      | true =>
          rw [lineMembers_of_line hline] at hfits
          rw [writePairs_of_line hline]
          -- The first number that does not fit is this one, or it is further on.
          by_cases hfit : value.Fits
          · obtain ⟨m, hm, hm'⟩ := hfits
            rcases List.mem_cons.1 hm with rfl | hm
            · exact absurd hfit hm'
            · rw [writeValue_of_fits hvalue hline hfit]
              simp only [hrest ⟨m, hm, hm'⟩]
              rfl
          · rw [writeValue_outOfRange hvalue hline hfit]

/-- The lines of a table say what they state. -/
theorem says_lines {members : List (String × Data)} (htab : ∀ m ∈ members, m.2.Tabular)
    (hfits : ∀ m ∈ lineMembers members, m.2.Fits) :
    Says (((lineMembers members).map lineText).flatMap (· ++ ['\n'])) (lineStatements members) := by
  induction members with
  | nil => exact .nil
  | cons member rest ih =>
      obtain ⟨name, value⟩ := member
      have hrest := ih fun m hm => htab m (List.mem_cons_of_mem _ hm)
      rw [lineStatements]
      cases hline : isLine value with
      | false =>
          rw [lineMembers_of_not hline] at hfits ⊢
          exact hrest hfits
      | true =>
          rw [lineMembers_of_line hline] at hfits ⊢
          have hfirst := line_assign name (htab _ List.mem_cons_self)
            (hfits _ List.mem_cons_self) hline
          have hsays := Says.line hfirst (hrest fun m hm => hfits m (List.mem_cons_of_mem _ hm))
          rw [List.map_cons, List.flatMap_cons, List.append_assoc, List.singleton_append]
          exact hsays

/-- **The block of a table itself** says what it states. -/
theorem ownBlock_says (path : List String) (htab : ∀ m ∈ members, m.2.Tabular)
    (hfits : ∀ m ∈ lineMembers members, m.2.Fits) :
    ∃ blocks, ownBlock path members = .ok blocks ∧
      List.Forall₂ Says blocks (ownStatements path members) := by
  have hpairs := writePairs_of_fits htab hfits
  have hlines := says_lines htab hfits
  have hempty : ((lineMembers members).map lineText).isEmpty = (lineMembers members).isEmpty := by
    cases lineMembers members <;> rfl
  rw [ownMembers] at hpairs
  rw [ownBlock, hpairs, ownStatements, isHeaderless]
  simp only [hempty]
  by_cases hpath : path.isEmpty = true
  · rw [if_pos hpath, if_pos hpath]
    refine ⟨_, rfl, ?_⟩
    split
    · exact .nil
    · exact .cons hlines .nil
  · have hne : path ≠ [] := by simpa using hpath
    rw [if_neg hpath, if_neg hpath]
    split
    · exact ⟨_, rfl, .nil⟩
    · exact ⟨_, rfl, .cons (.line (line_header hne) hlines) .nil⟩

theorem ownBlock_outOfRange {path : List String} (htab : ∀ m ∈ members, m.2.Tabular)
    (hfits : ∃ m ∈ lineMembers members, ¬ m.2.Fits) :
    ownBlock path members = .error .outOfRange := by
  have hpairs := writePairs_outOfRange htab hfits
  rw [ownMembers] at hpairs
  rw [ownBlock, hpairs]

theorem mem_of_mem_lineMembers {m : String × Data} (h : m ∈ lineMembers members) :
    m ∈ members := List.mem_of_mem_filter h

mutual

/-- **The blocks of a table and of the tables in it** say what they state. -/
theorem tableBlocks_says : ∀ (d : Data) (path : List String), d.Tabular → d.Fits →
    ∃ blocks, tableBlocks path d = .ok blocks ∧
      List.Forall₂ Says blocks (tableStatements path d)
  | .map members, path, htab, hfits => by
      obtain ⟨own, hown, hsays⟩ := ownBlock_says path
        (Data.tabularMembers_iff.1 htab.2)
        fun m hm => Data.fitsMembers_iff.1 hfits m (mem_of_mem_lineMembers hm)
      obtain ⟨blocks, hblocks, hrest⟩ := memberBlocks_says members path htab.2 hfits
      refine ⟨own ++ blocks, ?_, List.rel_append hsays hrest⟩
      rw [tableBlocks, hown]
      simp only [hblocks]
      rfl
  | .null, _, _, _ => ⟨[], rfl, .nil⟩
  | .bool _, _, _, _ => ⟨[], rfl, .nil⟩
  | .num _, _, _, _ => ⟨[], rfl, .nil⟩
  | .str _, _, _, _ => ⟨[], rfl, .nil⟩
  | .seq _, _, _, _ => ⟨[], rfl, .nil⟩

theorem memberBlocks_says : ∀ (members : List (String × Data)) (path : List String),
    Data.TabularMembers members → Data.FitsMembers members →
    ∃ blocks, memberBlocks path members = .ok blocks ∧
      List.Forall₂ Says blocks (memberStatements path members)
  | [], _, _, _ => ⟨[], rfl, .nil⟩
  | (name, value) :: rest, path, htab, hfits => by
      obtain ⟨first, hfirst, hsays⟩ := tableBlocks_says value (path ++ [name]) htab.1 hfits.1
      obtain ⟨blocks, hblocks, hrest⟩ := memberBlocks_says rest path htab.2 hfits.2
      refine ⟨first ++ blocks, ?_, List.rel_append hsays hrest⟩
      rw [memberBlocks, hfirst]
      simp only [hblocks]
      rfl

end

theorem tableBlocks_of_not {d : Data} (htable : isTable d = false) (path : List String) :
    tableBlocks path d = .ok [] := by
  cases d with
  | map _ => cases htable
  | null | bool | num | str | seq => rfl

theorem isNull_of_not_fits {d : Data} (h : ¬ d.Fits) : isNull d = false := by
  cases d with
  | null => exact absurd trivial h
  | bool | num | str | seq | map => rfl

mutual

/-- A table in which a number does not fit has no blocks. -/
theorem tableBlocks_outOfRange : ∀ (d : Data) (path : List String), isTable d → d.Tabular →
    ¬ d.Fits → tableBlocks path d = .error .outOfRange
  | .map members, path, _, htab, hfits => by
      have hmembers := Data.tabularMembers_iff.1 htab.2
      by_cases hlines : ∃ m ∈ lineMembers members, ¬ m.2.Fits
      · rw [tableBlocks, ownBlock_outOfRange hmembers hlines]
      · have hlines' : ∀ m ∈ lineMembers members, m.2.Fits := by
          intro m hm
          exact Classical.byContradiction fun h => hlines ⟨m, hm, h⟩
        obtain ⟨own, hown, -⟩ := ownBlock_says path hmembers hlines'
        have htables : ∃ m ∈ members, isTable m.2 ∧ ¬ m.2.Fits := by
          obtain ⟨m, hm, hfit⟩ : ∃ m ∈ members, ¬ m.2.Fits := by
            simpa using fun h => hfits (Data.fitsMembers_iff.2 h)
          refine ⟨m, hm, Classical.byContradiction fun htable => ?_, hfit⟩
          -- What is no table is on a line, or it is null, and both fit.
          have hnull : isNull m.2 = false := isNull_of_not_fits hfit
          have hline : isLine m.2 = true := by simp [isLine, hnull, htable]
          exact hfit (hlines' m (List.mem_filter.2 ⟨hm, hline⟩))
        rw [tableBlocks, hown]
        simp only [memberBlocks_outOfRange members path htab.2 htables]
        rfl

theorem memberBlocks_outOfRange : ∀ (members : List (String × Data)) (path : List String),
    Data.TabularMembers members → (∃ m ∈ members, isTable m.2 ∧ ¬ m.2.Fits) →
    memberBlocks path members = .error .outOfRange
  | [], _, _, h => by
      obtain ⟨m, hm, -⟩ := h
      cases hm
  | (name, value) :: rest, path, htab, h => by
      by_cases hfirst : isTable value ∧ ¬ value.Fits
      · rw [memberBlocks, tableBlocks_outOfRange value (path ++ [name]) hfirst.1 htab.1 hfirst.2]
      · obtain ⟨m, hm, hm'⟩ := h
        have hmem : m ∈ rest := by
          rcases List.mem_cons.1 hm with rfl | hm
          · exact absurd hm' hfirst
          · exact hm
        obtain ⟨blocks, hblocks⟩ : ∃ blocks, tableBlocks (path ++ [name]) value = .ok blocks := by
          by_cases htable : isTable value = true
          · have hfits := Classical.byContradiction fun h => hfirst ⟨htable, h⟩
            obtain ⟨blocks, hblocks, -⟩ := tableBlocks_says value (path ++ [name]) htab.1 hfits
            exact ⟨blocks, hblocks⟩
          · exact ⟨[], tableBlocks_of_not (Bool.eq_false_iff.2 htable) _⟩
        rw [memberBlocks, hblocks]
        simp only [memberBlocks_outOfRange rest path htab.2 ⟨m, hmem, hm'⟩]
        rfl

end

end ZoneConsole.Toml
