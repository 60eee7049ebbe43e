import ZoneConsole.Proofs.Url.Percent
import ZoneConsole.Url.Edit

/-!
# What appending a segment does

A segment is plain if appending it adds one segment that is read back as the text given.
The others are the texts `.` and `..`, which are left out, and those with a tab or a line
break, which are appended without it, or not at all if `.` or `..` is what remains.

* **`push?_base`** — below a base that ends in one slash, appending starts at the segments
  before that slash.
* **`appendSegments_plain`** — plain segments are added as they are, each encoded.
* **`segmentText_encodeSegment`** — what an encoded segment is read back as.
* **`appendSegments_below`** — whatever is appended below a directory, the directory is not left.
-/

namespace ZoneConsole.Url

/-- The text that a segment of a path stands for. -/
def segmentText (segment : String) : String :=
  String.ofList (Text.readUtf8 (percentDecode segment.toList))

/-- A text that stands for itself in a path: it has neither tabs nor line breaks, and is
    not the name of a directory. -/
def IsPlain (s : String) : Prop := (∀ c ∈ s.toList, isDropped c = false) ∧ s ≠ "." ∧ s ≠ ".."

instance (s : String) : Decidable (IsPlain s) :=
  @instDecidableAnd _ _ (List.decidableBAll _ s.toList) inferInstance

/-- The segments below which a path is continued: the path `/` has none. -/
def dirOf (path : List String) : List String := if path = [""] then [] else path

theorem dirOf_of_ne {path : List String} (h : path ≠ [""]) : dirOf path = path := if_neg h

/-- A path with a last segment is not `/`, unless that segment is empty and the only one. -/
theorem concat_ne_root {path : List String} {s : String} (h : path ≠ [] ∨ s ≠ "") :
    path ++ [s] ≠ [""] := by
  intro heq
  have heq' : path ++ [s] = [] ++ [""] := heq
  obtain ⟨hpath, hs⟩ := List.append_inj' heq' rfl
  rcases h with h | h
  · exact h hpath
  · exact h (List.head_eq_of_cons_eq hs)

/-! ### Encoded segments -/

/-- **An encoded segment is read back** as its text without tabs and line breaks. -/
theorem segmentText_encodeSegment (special : Bool) (s : String) :
    segmentText (encodeSegment special s) = String.ofList (s.toList.filter (!isDropped ·)) := by
  have hset : (if special then specialSegmentSet else segmentSet) '%' = true := by
    cases special <;> rfl
  rw [segmentText, encodeSegment, String.toList_ofList, readUtf8_percentDecode hset]

/-- A plain text is read back as it is. -/
theorem segmentText_plain (special : Bool) {s : String} (h : IsPlain s) :
    segmentText (encodeSegment special s) = s := by
  rw [segmentText_encodeSegment, List.filter_eq_self.2, String.ofList_toList]
  intro c hc
  rw [h.1 c hc]
  rfl

/-- The encoded form of a plain text is not the name of a directory. -/
theorem encodeSegment_ne_dots (special : Bool) {s : String} (h : IsPlain s) :
    encodeSegment special s ≠ "." ∧ encodeSegment special s ≠ ".." := by
  have hback := segmentText_plain special h
  have hdot : segmentText "." = "." := segmentText_encodeSegment true "."
  have hdots : segmentText ".." = ".." := segmentText_encodeSegment true ".."
  constructor
  · intro heq
    rw [heq, hdot] at hback
    exact h.2.1 hback.symm
  · intro heq
    rw [heq, hdots] at hback
    exact h.2.2 hback.symm

/-- Different plain texts have different encoded forms. -/
theorem encodeSegment_injective (special : Bool) {s t : String} (hs : IsPlain s) (ht : IsPlain t)
    (h : encodeSegment special s = encodeSegment special t) : s = t := by
  rw [← segmentText_plain special hs, h, segmentText_plain special ht]

/-! ### Appended segments -/

/-- A plain segment is added, below the path. -/
theorem appendSegment_plain (special : Bool) (path : List String) {s : String} (h : IsPlain s) :
    appendSegment path (encodeSegment special s) = dirOf path ++ [encodeSegment special s] := by
  obtain ⟨hdot, hdots⟩ := encodeSegment_ne_dots special h
  simp only [appendSegment, hdot, hdots, if_false]
  rfl

/-- A text without tabs and line breaks is the text that remains. -/
theorem filter_isDropped_eq_self {s : String} :
    String.ofList (s.toList.filter (!isDropped ·)) = s ↔ ∀ c ∈ s.toList, isDropped c = false := by
  rw [← String.toList_inj, String.toList_ofList, List.filter_eq_self]
  simp

/-- A text with a tab or a line break is added as a segment that stands for another text, or
    leads to the directory above. -/
theorem appendSegment_dropped (special : Bool) (path : List String) {s : String}
    (h : ¬ ∀ c ∈ s.toList, isDropped c = false) :
    appendSegment path (encodeSegment special s) = (dirOf path).dropLast ++ [""] ∨
      ∃ segment, segmentText segment ≠ s ∧
        appendSegment path (encodeSegment special s) = dirOf path ++ [segment] := by
  have hempty : s ≠ "" := by
    rintro rfl
    exact h (fun c hc => nomatch hc)
  by_cases hdots : encodeSegment special s = ".."
  · -- only tabs and line breaks kept this from being left out
    left
    rw [appendSegment, if_pos hdots]
    rfl
  right
  by_cases hdot : encodeSegment special s = "."
  · have hback : segmentText "" = "" := segmentText_encodeSegment true ""
    refine ⟨"", fun heq => hempty (heq.symm.trans hback), ?_⟩
    rw [appendSegment, if_neg hdots, if_pos hdot]
    rfl
  · refine ⟨encodeSegment special s, fun heq => h ?_, ?_⟩
    · rw [segmentText_encodeSegment] at heq
      exact filter_isDropped_eq_self.1 heq
    · rw [appendSegment, if_neg hdots, if_neg hdot]
      rfl

/-- Segments are appended one by one, those that name a directory left out. -/
theorem appendSegments_cons (special : Bool) (path : List String) (s : String)
    (rest : List String) :
    appendSegments special path (s :: rest) =
      if s = "." ∨ s = ".." then appendSegments special path rest
      else appendSegments special (appendSegment path (encodeSegment special s)) rest := by
  by_cases h : s = "." ∨ s = ".."
  · rcases h with rfl | rfl <;> rfl
  · rw [if_neg h]
    rw [not_or] at h
    rw [appendSegments, List.filter_cons_of_pos (by simp [h.1, h.2])]
    rfl

/-- A segment makes a path longer by one at most. -/
theorem length_appendSegment_le (path : List String) (segment : String) :
    (appendSegment path segment).length ≤ path.length + 1 := by
  have hdir : (if path = [""] then [] else path).length ≤ path.length := by
    split
    · exact Nat.zero_le _
    · exact Nat.le_refl _
  unfold appendSegment
  simp only
  split
  · rw [List.length_append, List.length_dropLast, List.length_singleton]
    omega
  · split <;>
    · rw [List.length_append, List.length_singleton]
      omega

/-- Segments make a path longer by their number at most. -/
theorem length_appendSegments_le (special : Bool) (path segments : List String) :
    (appendSegments special path segments).length ≤ path.length + segments.length := by
  induction segments generalizing path with
  | nil => exact Nat.le_refl _
  | cons s rest ih =>
      rw [appendSegments_cons, List.length_cons]
      split
      · have := ih path
        omega
      · have := ih (appendSegment path (encodeSegment special s))
        have := length_appendSegment_le path (encodeSegment special s)
        omega

/-- A plain segment in front is added first. -/
theorem appendSegments_plain_cons (special : Bool) (path : List String) {s : String}
    (hs : IsPlain s) (rest : List String) :
    appendSegments special path (s :: rest) =
      appendSegments special (dirOf path ++ [encodeSegment special s]) rest := by
  rw [appendSegments_cons, if_neg (not_or.2 hs.2), appendSegment_plain special path hs]

/-- **Plain segments are added as they are**, below a path that is neither empty nor `/`. -/
theorem appendSegments_plain (special : Bool) {path : List String} (hne : path ≠ [])
    (hroot : path ≠ [""]) {segments : List String} (h : ∀ s ∈ segments, IsPlain s) :
    appendSegments special path segments = path ++ segments.map (encodeSegment special) := by
  induction segments generalizing path with
  | nil => exact (List.append_nil path).symm
  | cons s rest ih =>
      -- with a segment more the path is still not `/`, so the next one goes below it
      rw [appendSegments_plain_cons special path (h s (List.mem_cons_self ..)), dirOf_of_ne hroot,
        ih (List.concat_ne_nil _ _) (concat_ne_root (.inl hne))
          (fun t ht => h t (List.mem_cons_of_mem _ ht)),
        List.map_cons, List.append_assoc]
      rfl

/-! ### What stays below a directory -/

/-- What a segment does to the segments that a path is continued below. -/
theorem appendSegment_eq (path : List String) (segment : String) :
    appendSegment path segment =
      if segment = ".." then (dirOf path).dropLast ++ [""]
      else if segment = "." then dirOf path ++ [""]
      else dirOf path ++ [segment] := rfl

/-- A segment takes one segment away at most, and leaves one behind. -/
theorem appendSegment_below (dir : List String) {rest : List String} (hrest : rest ≠ [])
    (segment : String) :
    ∃ more, more ≠ [] ∧ appendSegment (dir ++ rest) segment = dir ++ more := by
  rw [appendSegment_eq]
  by_cases hroot : dir ++ rest = [""]
  · -- the directory is that of the path `/`, and every path is below it
    have hdir : dir = [] := by
      rcases List.append_eq_singleton_iff.1 hroot with ⟨hdir, -⟩ | ⟨-, hnil⟩
      · exact hdir
      · exact absurd hnil hrest
    subst hdir
    refine ⟨_, ?_, (List.nil_append _).symm⟩
    split
    · exact List.concat_ne_nil _ _
    · split <;> exact List.concat_ne_nil _ _
  · rw [dirOf_of_ne hroot]
    split
    · refine ⟨rest.dropLast ++ [""], List.concat_ne_nil _ _, ?_⟩
      rw [List.dropLast_append_of_ne_nil hrest, List.append_assoc]
    · split
      · exact ⟨rest ++ [""], List.concat_ne_nil _ _, List.append_assoc ..⟩
      · exact ⟨rest ++ [segment], List.concat_ne_nil _ _, List.append_assoc ..⟩

/-- **Whatever is appended below a directory**, the directory is not left. -/
theorem appendSegments_below (special : Bool) (dir : List String) {rest : List String}
    (hrest : rest ≠ []) (segments : List String) :
    ∃ more, more ≠ [] ∧ appendSegments special (dir ++ rest) segments = dir ++ more := by
  induction segments generalizing rest with
  | nil => exact ⟨rest, hrest, rfl⟩
  | cons s segments ih =>
      rw [appendSegments_cons]
      split
      · exact ih hrest
      · obtain ⟨more, hmore, happend⟩ :=
          appendSegment_below dir hrest (encodeSegment special s)
        rw [happend]
        exact ih hmore

/-- The text of a path below a directory begins with that of the directory and its slash. -/
theorem writePath_below (dir : List String) {more : List String} (hmore : more ≠ []) :
    writePath (.segments (dir ++ [""])) <+: writePath (.segments (dir ++ more)) := by
  obtain ⟨first, rest, rfl⟩ := List.exists_cons_of_ne_nil hmore
  refine ⟨first.toList ++ writeSegments rest, ?_⟩
  simp [writePath, writeSegments]

/-! ### Bases -/

/-- A list without empty texts at its end does not end in one. -/
theorem getLast?_dropEmptyEnd (list : List String) : (dropEmptyEnd list).getLast? ≠ some "" := by
  intro h
  rw [dropEmptyEnd, List.getLast?_reverse] at h
  have hkept := List.head?_dropWhile_not (·.isEmpty) list.reverse
  rw [h] at hkept
  exact absurd hkept (by decide)

/-- Appending to a path of segments and one slash starts at these segments. -/
theorem dirOf_popEmpty {dir : List String} (h : dir.getLast? ≠ some "") :
    dirOf (popEmpty (dir ++ [""])) = dir := by
  by_cases hdir : dir = []
  · -- the base is `/`, which keeps its slash until a segment is appended
    subst hdir
    rfl
  · have hroot : dir ++ [""] ≠ [""] := concat_ne_root (.inl hdir)
    have hpop : popEmpty (dir ++ [""]) = dir := by
      rw [popEmpty, if_pos ⟨hroot, List.getLast?_concat ..⟩, List.dropLast_concat]
    have hne : dir ≠ [""] := by
      rintro rfl
      exact h rfl
    rw [hpop, dirOf_of_ne hne]

/-- **A plain segment below a base** is added to the segments before its last slash, and
    what else is appended is appended there. -/
theorem push?_base {u : Url} {dir : List String} (hpath : u.path = .segments (dir ++ [""]))
    (hdir : dir.getLast? ≠ some "") {s : String} (hs : IsPlain s) (rest : List String) :
    u.push? (s :: rest) =
      some { u with
        path := .segments (appendSegments (isSpecial u.scheme)
          (dir ++ [encodeSegment (isSpecial u.scheme) s]) rest) } := by
  rw [push?, hpath]
  show some _ = _
  rw [appendSegments_plain_cons _ _ hs, dirOf_popEmpty hdir]

end ZoneConsole.Url
