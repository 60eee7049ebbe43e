import ZoneConsole.Proofs.Except
import ZoneConsole.Url.Parser

/-!
# The paths of special URLs

Whatever is read as a URL of a special scheme has a path of segments, never an opaque one.
The reader has one function for each kind of reference; each of them either builds a path
of segments, or keeps the path of a URL that has one, or reads a scheme that is not special.

* **`read_hierarchical`** — the reader keeps to this, if the URL it resolves against does.
-/

namespace ZoneConsole.Url

/-- The path is a list of segments. -/
def HasSegments (u : Url) : Prop := ∃ list, u.path = .segments list

/-- A URL of a special scheme has a path of segments. -/
def Hierarchical (u : Url) : Prop := isSpecial u.scheme = true → u.HasSegments

theorem HasSegments.hierarchical {u : Url} (h : u.HasSegments) : u.Hierarchical := fun _ => h

/-- After two slashes there is a path of segments. -/
theorem readAuthority_segments {scheme : String} {cs : List Char} {u : Url}
    (h : readAuthority scheme cs = .ok u) : u.HasSegments := by
  unfold readAuthority at h
  obtain ⟨⟨user, password, hasUser, after⟩, -, h⟩ := exists_of_bind_ok h
  obtain ⟨host, -, h⟩ := exists_of_bind_ok h
  obtain ⟨⟨port, rest⟩, -, h⟩ := exists_of_bind_ok h
  simp only at h
  split at h
  · cases h
  · cases h
    exact ⟨_, rfl⟩

/-- So it is in the URL of a file. -/
theorem readFileHost_segments {cs : List Char} {u : Url} (h : readFileHost cs = .ok u) :
    u.HasSegments := by
  unfold readFileHost at h
  obtain ⟨host, -, h⟩ := exists_of_bind_ok h
  cases h
  exact ⟨_, rfl⟩

/-- A reference below a file with segments has segments. -/
theorem readFile_relative_segments {start u : Url} {dir : List String}
    {pathText tail : List Char} {c : Char} (hs : start.HasSegments)
    (h : readFile.relative start dir pathText tail c = .ok u) : u.HasSegments := by
  unfold readFile.relative at h
  split at h
  · cases h
    exact hs
  · split at h
    · cases h
      exact hs
    · cases h
      exact ⟨_, rfl⟩

/-- What is read after the scheme of a file has segments. -/
theorem readFile_segments {base : Option Url} {cs : List Char} {u : Url}
    (hb : ∀ b, base = some b → b.HasSegments) (h : readFile base cs = .ok u) :
    u.HasSegments := by
  unfold readFile at h
  generalize cutAt endsPath cs = parts at h
  obtain ⟨pathText, tail⟩ := parts
  extract_lets source empty start list dir at h
  have hempty : empty.HasSegments := ⟨_, rfl⟩
  have hstart : start.HasSegments := by
    show HasSegments (if startsWithDrive cs then empty else base.getD empty)
    split
    · exact hempty
    · cases base with
      | none => exact hempty
      | some b => exact hb b rfl
  -- what the path is made of does not matter, only that it is made of segments
  clear_value source empty start list dir
  simp only at h
  split at h
  · split at h
    · exact readFileHost_segments h
    · split at h
      · repeat' split at h
        all_goals
          cases h
          exact ⟨_, rfl⟩
      · exact readFile_relative_segments hstart h
  · split at h
    · cases h
      exact ⟨_, rfl⟩
    · exact readFile_relative_segments hstart h
  · split at h
    · rename_i b
      cases h
      exact hb b rfl
    · cases h
      exact hempty

/-- A scheme that is not special may have an opaque path, and keeps being what it is. -/
theorem readPlain_hierarchical {scheme : String} {cs : List Char} {u : Url}
    (hs : isSpecial scheme = false) (h : readPlain scheme cs = .ok u) : u.Hierarchical := by
  unfold readPlain at h
  split at h
  · exact (readAuthority_segments h).hierarchical
  · intro hu
    have hscheme : u.scheme = scheme := by
      cases h
      rfl
    rw [hscheme, hs] at hu
    cases hu

/-- A reference resolved against a URL with segments has segments. -/
theorem readRelative_segments {base u : Url} {list : List String} {cs : List Char}
    (hb : base.HasSegments) (h : readRelative base list cs = .ok u) : u.HasSegments := by
  unfold readRelative at h
  simp only at h
  split at h
  · cases h
    exact hb
  · cases h
    exact hb
  · cases h
    exact hb
  · split at h
    · split at h
      · split at h
        · exact readAuthority_segments h
        · exact readAuthority_segments h
      · cases h
        exact ⟨_, rfl⟩
    · cases h
      exact ⟨_, rfl⟩

/-- **What is read is hierarchical**, if what it is resolved against is. -/
theorem read_hierarchical {base : Option Url} {s : String} {u : Url}
    (hb : ∀ b, base = some b → b.Hierarchical) (h : read base s = .ok u) : u.Hierarchical := by
  unfold read at h
  simp only at h
  split at h
  · -- with a scheme of its own: that of a file, a special one, or another one
    split at h
    · refine (readFile_segments (fun b hfilter => ?_) h).hierarchical
      obtain ⟨hbase, hfile⟩ := Option.filter_eq_some_iff.1 hfilter
      refine hb b hbase ?_
      rw [eq_of_beq hfile]
      rfl
    · split at h
      · split at h
        · split at h
          · split at h
            · exact (readRelative_segments ⟨_, ‹_›⟩ h).hierarchical
            · exact (readAuthority_segments h).hierarchical
          · exact (readAuthority_segments h).hierarchical
        · exact (readAuthority_segments h).hierarchical
      · exact readPlain_hierarchical (Bool.eq_false_iff.2 ‹_›) h
  · -- a reference, which keeps the scheme of what it is resolved against
    split at h
    · cases h
    · rename_i b
      split at h
      · cases h
        exact hb b rfl
      · cases h
      · split at h
        · refine (readFile_segments (fun b' hb' => ?_) h).hierarchical
          cases hb'
          exact ⟨_, ‹_›⟩
        · exact (readRelative_segments ⟨_, ‹_›⟩ h).hierarchical

/-- An absolute URL is hierarchical. -/
theorem parse_hierarchical {s : String} {u : Url} (h : parse s = .ok u) : u.Hierarchical := by
  refine read_hierarchical (fun b hb => ?_) h
  cases hb

/-- A reference resolved against a hierarchical URL is hierarchical. -/
theorem join_hierarchical {base u : Url} {s : String} (hb : base.Hierarchical)
    (h : join base s = .ok u) : u.Hierarchical := by
  refine read_hierarchical (fun b hb' => ?_) h
  cases hb'
  exact hb

end ZoneConsole.Url
