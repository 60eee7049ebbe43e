import ZoneConsole.Proofs.Url.Encoded

/-!
# Paths are read back

The path of a special URL that is not a file is kept as segments which are encoded, hold no slash
and name no directory.  Whatever is read below such segments gives such segments, at least one of
them; and the text of such segments is read as the segments again.

* **`IsSegment`** — a segment as it is kept; `isSegment_readSegments`, `isSegment_readPath`.
* **`readPath_writeSegments`** — segments are read back from their text.
-/

namespace ZoneConsole.Url

/-- A segment of a path as it is kept: encoded, without slashes, and naming no directory. -/
structure IsSegment (s : String) : Prop where
  encoded : IsEncoded pathSet s.toList
  whole : ∀ c ∈ s.toList, isSlash true c = false
  dot : isDot s.toList = false
  dots : isDotDot s.toList = false

theorem isSegment_empty : IsSegment "" where
  encoded := fun _ hc => absurd hc List.not_mem_nil
  whole := fun _ hc => absurd hc List.not_mem_nil
  dot := rfl
  dots := rfl

/-- A part between slashes that names no directory is a segment when it is encoded. -/
theorem isSegment_encodeInPath {part : List Char} (hwhole : ∀ c ∈ part, isSlash true c = false)
    (hdot : ¬ isDot part = true) (hdots : ¬ isDotDot part = true) :
    IsSegment (encodeInPath part) := by
  have hkept : (encodeInPath part).toList = percentEncode pathSet part := String.toList_ofList
  refine ⟨?_, fun c hc => ?_, ?_, ?_⟩
  · exact isEncoded_ofList encodes_pathSet part
  · rw [hkept] at hc
    rcases mem_percentEncode hc with ⟨hc, -⟩ | rfl | ⟨n, hn, rfl⟩
    · exact hwhole c hc
    · rfl
    · have hdigits : ∀ n < 16, isSlash true (Text.hexDigitUpper n) = false := by decide
      exact hdigits n hn
  · rw [hkept, Bool.eq_false_iff]
    intro h
    exact hdot ((isDot_iff part).2
      (isDots_of_percentEncode encodes_pathSet ((isDot_iff _).1 h) rfl))
  · rw [hkept, Bool.eq_false_iff]
    intro h
    exact hdots ((isDotDot_iff part).2
      (isDots_of_percentEncode encodes_pathSet ((isDotDot_iff _).1 h) rfl))

/-- A segment is encoded already. -/
theorem encodeInPath_toList {s : String} (h : IsSegment s) : encodeInPath s.toList = s :=
  ofList_percentEncode h.encoded

/-! ### Segments below a directory -/

section Resolve

variable {encode : List Char → String} {dir list : List String} {parts : List (List Char)}

/-- Of the parts of a path the first is resolved first; after the last one that names a directory
    the path ends in a slash. -/
theorem resolveSegments_cons (encode : List Char → String) (dir : List String) (part : List Char)
    (parts : List (List Char)) :
    resolveSegments encode dir (part :: parts) =
      if isDotDot part then
        if parts = [] then parent dir ++ [""] else resolveSegments encode (parent dir) parts
      else if isDot part then
        if parts = [] then dir ++ [""] else resolveSegments encode dir parts
      else resolveSegments encode (dir ++ [encode part]) parts := by
  cases parts with
  | nil => rfl
  | cons next parts => rfl

/-- The directory above has fewer segments. -/
theorem mem_of_mem_parent {s : String} (h : s ∈ parent dir) : s ∈ dir := by
  unfold parent at h
  split at h
  · split at h
    · exact h
    · exact List.dropLast_subset dir h
  · cases h

/-- **What is resolved below segments gives segments.** -/
theorem isSegment_resolveSegments (hdir : ∀ s ∈ dir, IsSegment s)
    (hparts : ∀ part ∈ parts, ∀ c ∈ part, isSlash true c = false) :
    ∀ s ∈ resolveSegments encodeInPath dir parts, IsSegment s := by
  induction parts generalizing dir with
  | nil => exact hdir
  | cons part parts ih =>
      obtain ⟨hpart, hparts⟩ := List.forall_mem_cons.1 hparts
      have hparent : ∀ s ∈ parent dir, IsSegment s := fun s hs => hdir s (mem_of_mem_parent hs)
      have hslash : ∀ {dir : List String}, (∀ s ∈ dir, IsSegment s) →
          ∀ s ∈ dir ++ [""], IsSegment s := by
        intro dir hdir s hs
        rcases List.mem_append.1 hs with hs | hs
        · exact hdir s hs
        · rw [List.mem_singleton.1 hs]
          exact isSegment_empty
      rw [resolveSegments_cons]
      split
      · split
        · exact hslash hparent
        · exact ih hparent hparts
      · split
        · split
          · exact hslash hdir
          · exact ih hdir hparts
        · refine ih (fun s hs => ?_) hparts
          rcases List.mem_append.1 hs with hs | hs
          · exact hdir s hs
          · rw [List.mem_singleton.1 hs]
            exact isSegment_encodeInPath hpart ‹_› ‹_›

/-- Every part but the names of directories leaves a segment, and so does the last one. -/
theorem resolveSegments_ne_nil (hparts : parts ≠ []) : resolveSegments encode dir parts ≠ [] := by
  -- Going up may leave no directory, but then there is a part left, and the last one leaves
  -- something whatever it is.
  have hmore : ∀ {parts : List (List Char)} {dir : List String}, dir ≠ [] ∨ parts ≠ [] →
      resolveSegments encode dir parts ≠ [] := by
    intro parts
    induction parts with
    | nil => exact fun h => h.resolve_right (fun h => h rfl)
    | cons part parts ih =>
        intro dir _
        rw [resolveSegments_cons]
        split
        · split
          · exact List.concat_ne_nil _ _
          · exact ih (.inr ‹_›)
        · split
          · split
            · exact List.concat_ne_nil _ _
            · exact ih (.inr ‹_›)
          · exact ih (.inl (List.concat_ne_nil _ _))
  exact hmore (.inr hparts)

/-- Segments are resolved to themselves. -/
theorem resolveSegments_toList (h : ∀ s ∈ list, IsSegment s) :
    resolveSegments encodeInPath dir (list.map String.toList) = dir ++ list := by
  induction list generalizing dir with
  | nil => exact (List.append_nil dir).symm
  | cons s list ih =>
      obtain ⟨hs, hlist⟩ := List.forall_mem_cons.1 h
      rw [List.map_cons, resolveSegments_cons, hs.dots, hs.dot, encodeInPath_toList hs,
        if_neg Bool.false_ne_true, if_neg Bool.false_ne_true, ih hlist, List.append_assoc]
      rfl

end Resolve

/-! ### Paths -/

variable {scheme : String} {cs : List Char} {list : List String}

/-- Outside files there are no letters of drives. -/
theorem readSegments_eq (hs : isSpecial scheme = true) (hfile : scheme ≠ "file")
    (dir : List String) (cs : List Char) :
    readSegments scheme dir cs = resolveSegments encodeInPath dir (splitOn (isSlash true) cs) := by
  have hmark : ∀ parts, markDrive scheme parts = parts := by
    intro parts
    unfold markDrive
    split
    · rw [decide_eq_false hfile, Bool.false_and, if_neg Bool.false_ne_true]
    · rfl
  simp only [readSegments, hmark, hs, ite_self, trimFile, if_neg hfile]

/-- **What is read below segments gives segments.** -/
theorem isSegment_readSegments (hs : isSpecial scheme = true) (hfile : scheme ≠ "file")
    {dir : List String} (hdir : ∀ s ∈ dir, IsSegment s) (cs : List Char) :
    (∀ s ∈ readSegments scheme dir cs, IsSegment s) ∧ readSegments scheme dir cs ≠ [] := by
  rw [readSegments_eq hs hfile]
  exact ⟨isSegment_resolveSegments hdir fun part hpart c hc => (mem_splitOn hpart hc).2,
    resolveSegments_ne_nil (splitOn_ne_nil _ _)⟩

/-- **A path that is read** is made of segments, at least one. -/
theorem isSegment_readPath (hs : isSpecial scheme = true) (hfile : scheme ≠ "file")
    (cs : List Char) :
    (∀ s ∈ readPath scheme cs, IsSegment s) ∧ readPath scheme cs ≠ [] := by
  cases cs with
  | nil =>
      rw [readPath, if_pos hs]
      refine ⟨fun s h => ?_, List.cons_ne_nil _ _⟩
      rw [List.mem_singleton.1 h]
      exact isSegment_empty
  | cons c rest => exact isSegment_readSegments hs hfile (fun _ h => absurd h List.not_mem_nil) _

/-- The text of segments is parted at the slashes in front of them. -/
theorem splitOn_writeSegments (hlist : ∀ s ∈ list, IsSegment s) {s : String} (h : IsSegment s) :
    splitOn (isSlash true) (s.toList ++ writeSegments list) =
      (s :: list).map String.toList := by
  induction list generalizing s with
  | nil =>
      rw [writeSegments, List.flatMap_nil, List.append_nil, splitOn_of_none h.whole]
      rfl
  | cons next list ih =>
      obtain ⟨hnext, hlist⟩ := List.forall_mem_cons.1 hlist
      rw [writeSegments, List.flatMap_cons, List.cons_append, splitOn_append h.whole rfl,
        List.map_cons]
      exact congrArg (s.toList :: ·) (ih hlist hnext)

/-- **Segments are read back** from their text. -/
theorem readPath_writeSegments (hs : isSpecial scheme = true) (hfile : scheme ≠ "file")
    (hlist : ∀ s ∈ list, IsSegment s) (hne : list ≠ []) :
    readPath scheme (writeSegments list) = list := by
  obtain ⟨s, list, rfl⟩ := List.exists_cons_of_ne_nil hne
  obtain ⟨hfirst, hrest⟩ := List.forall_mem_cons.1 hlist
  have hpath : readPath scheme (writeSegments (s :: list)) =
      readSegments scheme [] (s.toList ++ writeSegments list) := rfl
  rw [hpath, readSegments_eq hs hfile, splitOn_writeSegments hrest hfirst,
    resolveSegments_toList hlist]
  rfl

/-- The characters of the text of segments. -/
theorem mem_writeSegments (hlist : ∀ s ∈ list, IsSegment s) {c : Char}
    (h : c ∈ writeSegments list) :
    (0x20 < c.toNat ∧ c.toNat ≤ 0x7e) ∧ endsPath c = false := by
  obtain ⟨s, hs, hc⟩ := List.mem_flatMap.1 h
  rcases List.mem_cons.1 hc with rfl | hc
  · exact ⟨by decide, rfl⟩
  · have hencoded := (hlist s hs).encoded
    refine ⟨encodes_pathSet.shown hencoded c hc, Bool.eq_false_iff.2 fun hend => ?_⟩
    have hset := hencoded c hc
    simp only [endsPath, Bool.or_eq_true, decide_eq_true_eq] at hend
    rcases hend with rfl | rfl
    · exact absurd hset (by decide)
    · exact absurd hset (by decide)

end ZoneConsole.Url
