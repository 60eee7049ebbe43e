import ZoneConsole.Proofs.Except
import ZoneConsole.Proofs.Url.Host
import ZoneConsole.Proofs.Url.Segments

/-!
# What is read is in normal form

The parts of a URL are kept as they are written: encoded each by its own set, the port only if
it is not the usual one, the path as segments that name no directory.  Every function of the
reader that gives a URL of the web gives one of this form, if what it resolves against has it;
the others give URLs of their own schemes.

* **`IsWeb`** — the schemes of the web.
* **`IsNormal`** — the form; `isNormal_read`, `isNormal_parse`, `isNormal_join`.
-/

namespace ZoneConsole.Url

/-! ### The form -/

/-- The scheme is one of the web. -/
def IsWeb (scheme : String) : Prop := scheme = "http" ∨ scheme = "https"

theorem IsWeb.special {scheme : String} (h : IsWeb scheme) : isSpecial scheme = true := by
  rcases h with rfl | rfl
  · rfl
  · rfl

theorem IsWeb.ne_file {scheme : String} (h : IsWeb scheme) : scheme ≠ "file" := by
  rcases h with rfl | rfl
  · decide
  · decide

/-- All parts of a URL of the web are as the reader keeps them. -/
structure IsNormal (u : Url) : Prop where
  web : IsWeb u.scheme
  user : IsEncoded userSet u.user.toList
  password : ∀ p, u.password = some p → p ≠ "" ∧ IsEncoded userSet p.toList
  host : ∃ host, u.host = some host ∧ host.IsNormal
  port : ∀ p, u.port = some p → p ≤ 65535 ∧ defaultPort? u.scheme ≠ some p
  path : ∃ list, u.path = .segments list ∧ (∀ s ∈ list, IsSegment s) ∧ list ≠ []
  query : ∀ q, u.query = some q → IsEncoded specialQuerySet q.toList
  fragment : ∀ f, u.fragment = some f → IsEncoded fragmentSet f.toList

variable {u base : Url} {scheme : String} {cs tail : List Char} {list : List String}

/-- Another path of segments leaves the form. -/
theorem IsNormal.withSegments (h : u.IsNormal) (hlist : ∀ s ∈ list, IsSegment s) (hne : list ≠ []) :
    ({ u with path := .segments list }).IsNormal :=
  { h with path := ⟨list, rfl, hlist, hne⟩ }

/-- The directory of a path is made of segments. -/
theorem IsNormal.dropLast (h : u.IsNormal) (hpath : u.path = .segments list) :
    ∀ s ∈ list.dropLast, IsSegment s := by
  obtain ⟨list', hlist', hsegments, -⟩ := h.path
  obtain rfl := UrlPath.segments.inj (hpath.symm.trans hlist')
  exact fun s hs => hsegments s (List.dropLast_subset _ hs)

/-! ### Query and fragment -/

/-- A query and a fragment are encoded as they are read. -/
theorem IsNormal.readTail (h : u.IsNormal) (cs : List Char) :
    (readTail u.scheme u cs).IsNormal := by
  refine { h with query := fun q hq => ?_, fragment := fun f hf => ?_ }
  · unfold Url.readTail at hq
    simp only [h.web.special, if_true] at hq
    split at hq
    · rw [← Option.some.inj hq]
      exact isEncoded_ofList encodes_querySet _
    · cases hq
  · unfold Url.readTail at hf
    simp only at hf
    split at hf
    · rw [← Option.some.inj hf]
      exact isEncoded_ofList encodes_fragmentSet _
    · cases hf

/-! ### What follows two slashes -/

/-- The user and the password are encoded as they are read. -/
theorem isEncoded_of_readUser {special : Bool} {user : String} {password : Option String}
    {hasUser : Bool} {after : List Char}
    (h : readUser special cs = .ok (user, password, hasUser, after)) :
    IsEncoded userSet user.toList ∧
      ∀ p, password = some p → p ≠ "" ∧ IsEncoded userSet p.toList := by
  have hencoded := isEncoded_ofList encodes_userSet
  have hnone : IsEncoded userSet "".toList := fun _ hc => absurd hc List.not_mem_nil
  unfold readUser at h
  simp only at h
  split at h
  · cases h
    exact ⟨hnone, by simp⟩
  · split at h
    · repeat' split at h
      · cases h
      · cases h
        exact ⟨hnone, by simp⟩
      · cases h
        exact ⟨hnone, by simp⟩
    · split at h
      · cases h
        exact ⟨hencoded _, by simp⟩
      · -- a password is kept only if it is not empty
        rename_i hne _
        cases h
        refine ⟨hencoded _, fun p hp => ?_⟩
        obtain rfl := Option.some.inj hp
        refine ⟨fun hempty => ?_, hencoded _⟩
        have hnil := congrArg String.toList hempty
        rw [String.toList_ofList] at hnil
        exact percentEncode_ne_nil hne hnil
      · cases h
        exact ⟨hencoded _, by simp⟩

/-- A port that is read is in range, and not the usual one. -/
theorem port_of_readPort {port : Option Nat} {after : List Char}
    (h : readPort scheme cs = .ok (port, after)) :
    ∀ p, port = some p → p ≤ 65535 ∧ defaultPort? scheme ≠ some p := by
  unfold readPort at h
  extract_lets digits rest n ends at h
  clear_value digits rest n ends
  split at h
  · cases h
  · rename_i hrange
    rw [Bool.or_eq_true, not_or, decide_eq_true_eq, Nat.not_lt] at hrange
    obtain ⟨rfl, -⟩ := Prod.mk.inj (Except.ok.inj h)
    intro p hp
    split at hp
    · cases hp
    · rename_i husual
      rw [Bool.or_eq_true, not_or, decide_eq_true_eq] at husual
      obtain rfl := Option.some.inj hp
      exact ⟨hrange.1, husual.2⟩

/-- What follows two slashes is read in normal form. -/
theorem isNormal_readAuthority (hweb : IsWeb scheme) (h : readAuthority scheme cs = .ok u) :
    u.IsNormal := by
  unfold readAuthority at h
  obtain ⟨⟨user, password, hasUser, after⟩, huser, h⟩ := exists_of_bind_ok h
  obtain ⟨host, hhost, h⟩ := exists_of_bind_ok h
  obtain ⟨⟨port, rest⟩, hport, h⟩ := exists_of_bind_ok h
  simp only [hweb.special, if_true] at hhost hport h
  split at h
  · cases h
  obtain ⟨huser, hpassword⟩ := isEncoded_of_readUser huser
  obtain ⟨hsegments, hne⟩ := isSegment_readPath hweb.special hweb.ne_file (cutAt endsPath rest).1
  have hhost : host.IsNormal := by
    split at hhost
    · cases hhost
    · exact Host.isNormal_of_readSpecial hhost
  have hport : ∀ p, port = some p → p ≤ 65535 ∧ defaultPort? scheme ≠ some p := by
    split at hport
    · split at hport
      · cases hport
      · exact port_of_readPort hport
    · cases hport
      simp
  obtain rfl := Except.ok.inj h
  have hbody : IsNormal ⟨scheme, user, password, some host, port,
      .segments (readPath scheme (cutAt endsPath rest).1), none, none⟩ :=
    ⟨hweb, huser, hpassword, ⟨host, rfl, hhost⟩, hport, ⟨_, rfl, hsegments, hne⟩, by simp, by simp⟩
  exact hbody.readTail _

/-! ### References -/

/-- A reference resolved against a URL in normal form is read in normal form. -/
theorem isNormal_readRelative (hb : base.IsNormal) (hpath : base.path = .segments list)
    (h : readRelative base list cs = .ok u) : u.IsNormal := by
  have hbelow : ∀ {dir : List String}, (∀ s ∈ dir, IsSegment s) → ∀ pathText,
      ({ base with path := .segments (readSegments base.scheme dir pathText) }).IsNormal :=
    fun hdir pathText =>
      hb.withSegments (isSegment_readSegments hb.web.special hb.web.ne_file hdir pathText).1
        (isSegment_readSegments hb.web.special hb.web.ne_file hdir pathText).2
  unfold readRelative at h
  simp only at h
  split at h
  · cases h
    exact { hb with fragment := by simp [withoutFragment] }
  · cases h
    exact hb.readTail _
  · rename_i rest
    cases h
    exact { hb.readTail ('#' :: rest) with query := hb.query }
  · split at h
    · split at h
      · split at h
        · exact isNormal_readAuthority hb.web h
        · exact isNormal_readAuthority hb.web h
      · cases h
        exact (hbelow (fun _ h => absurd h List.not_mem_nil) _).readTail _
    · cases h
      exact (hbelow (hb.dropLast hpath) _).readTail _

/-! ### Schemes -/

/-- What follows two slashes has the scheme before them. -/
theorem scheme_readAuthority (h : readAuthority scheme cs = .ok u) : u.scheme = scheme := by
  unfold readAuthority at h
  obtain ⟨⟨user, password, hasUser, after⟩, -, h⟩ := exists_of_bind_ok h
  obtain ⟨host, -, h⟩ := exists_of_bind_ok h
  obtain ⟨⟨port, rest⟩, -, h⟩ := exists_of_bind_ok h
  simp only at h
  split at h
  · cases h
  · cases h
    rfl

/-- A scheme that is not special stays. -/
theorem scheme_readPlain (h : readPlain scheme cs = .ok u) : u.scheme = scheme := by
  unfold readPlain at h
  split at h
  · exact scheme_readAuthority h
  · cases h
    rfl

/-- A reference below a file is a file. -/
theorem scheme_readFile_relative {start : Url} {dir : List String} {pathText : List Char} {c : Char}
    (hs : start.scheme = "file") (h : readFile.relative start dir pathText tail c = .ok u) :
    u.scheme = "file" := by
  unfold readFile.relative at h
  repeat' split at h
  all_goals
    cases h
    exact hs

/-- What is read after the scheme of a file is a file. -/
theorem scheme_readFile (h : readFile none cs = .ok u) : u.scheme = "file" := by
  unfold readFile at h
  generalize cutAt endsPath cs = parts at h
  obtain ⟨pathText, tail⟩ := parts
  extract_lets source empty start list dir at h
  have hempty : empty.scheme = "file" := rfl
  have hstart : start.scheme = "file" := by
    show (if startsWithDrive cs then empty else empty).scheme = "file"
    rw [ite_self, hempty]
  clear_value source empty start list dir
  simp only at h
  split at h
  · split at h
    · unfold readFileHost at h
      obtain ⟨host, -, h⟩ := exists_of_bind_ok h
      cases h
      rfl
    · split at h
      · repeat' split at h
        all_goals
          cases h
          first | exact hempty | exact hstart
      · exact scheme_readFile_relative hstart h
  · split at h
    · cases h
      exact hstart
    · exact scheme_readFile_relative hstart h
  · cases h
    exact hempty

/-- **What is read as a URL of the web is in normal form**, if what it is resolved against is. -/
theorem isNormal_read {base : Option Url} {s : String} (hb : ∀ b, base = some b → b.IsNormal)
    (h : read base s = .ok u) (hweb : IsWeb u.scheme) : u.IsNormal := by
  unfold read at h
  simp only at h
  split at h
  · -- with a scheme of its own: that of a file, a special one, or another one
    rename_i scheme rest _
    split at h
    · -- No base in normal form is a file.
      have hnone : base.filter (·.scheme == "file") = none := by
        rw [Option.filter_eq_none_iff]
        intro b hbase
        simpa using (hb b hbase).web.ne_file
      rw [hnone] at h
      exact absurd (scheme_readFile h) hweb.ne_file
    · have hauthority : ∀ {cs}, readAuthority scheme cs = .ok u → u.IsNormal := fun h =>
        isNormal_readAuthority (scheme_readAuthority h ▸ hweb) h
      split at h
      · split at h
        · rename_i b
          split at h
          · split at h
            · exact isNormal_readRelative (hb b rfl) ‹_› h
            · exact hauthority h
          · exact hauthority h
        · exact hauthority h
      · rename_i hspecial
        rw [← scheme_readPlain h] at hspecial
        exact absurd hweb.special hspecial
  · -- a reference, which keeps the scheme of what it is resolved against
    split at h
    · cases h
    · rename_i b
      have hnormal := hb b rfl
      split at h
      · cases h
        exact { hnormal.readTail _ with query := hnormal.query }
      · cases h
      · rw [if_neg hnormal.web.ne_file] at h
        exact isNormal_readRelative hnormal ‹_› h

/-- An absolute URL of the web is in normal form. -/
theorem isNormal_parse {s : String} (h : parse s = .ok u) (hweb : IsWeb u.scheme) : u.IsNormal := by
  refine isNormal_read (fun b hb => ?_) h hweb
  cases hb

/-- A URL of the web that is resolved against one in normal form is in normal form. -/
theorem isNormal_join {s : String} (hb : base.IsNormal) (h : base.join s = .ok u)
    (hweb : IsWeb u.scheme) : u.IsNormal := by
  refine isNormal_read (fun b hbase => ?_) h hweb
  obtain rfl := Option.some.inj hbase
  exact hb

end ZoneConsole.Url
