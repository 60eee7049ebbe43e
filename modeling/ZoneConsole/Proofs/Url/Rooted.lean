import ZoneConsole.Proofs.Url.Shape

/-!
# A path of the origin

Where the path `/health` leads that is resolved against a URL.  It takes the place of the whole
path, and all before the path stays; only a file keeps the letter of the drive it is on.

* **`SharesAuthority`** — two URLs agree on all before their paths.
* **`join_health`** — what the path is resolved to, wherever it can be.
-/

namespace ZoneConsole.Url

/-- The URLs have the same scheme, user, password, host and port. -/
structure SharesAuthority (u v : Url) : Prop where
  scheme : u.scheme = v.scheme
  user : u.user = v.user
  password : u.password = v.password
  host : u.host = v.host
  port : u.port = v.port

/-- The URL is that of a file whose path begins with the letter of a drive. -/
def OnDrive (u : Url) : Prop :=
  u.scheme = "file" ∧ ∃ drive rest, u.path = .segments (drive :: rest) ∧ isDrive drive.toList = true

/-- The URL with another path and nothing after it. -/
def withPath (u : Url) (path : UrlPath) : Url :=
  { u with path := path, query := none, fragment := none }

theorem sharesAuthority_withPath (u : Url) (path : UrlPath) :
    (u.withPath path).SharesAuthority u := ⟨rfl, rfl, rfl, rfl, rfl⟩

/-- The path begins with a slash, so that it is resolved as the scheme says. -/
theorem join_health_eq {u : Url} {list : List String} (hlist : u.path = .segments list) :
    u.join "/health" = if u.scheme = "file" then readFile (some u) "/health".toList
      else readRelative u list "/health".toList := by
  cases u
  cases hlist
  rfl

/-- The segments of the path, in any scheme and below no directory. -/
theorem readSegments_health (scheme : String) :
    readSegments scheme [] "health".toList = ["health"] := by
  have hsplit : splitOn (isSlash (isSpecial scheme)) "health".toList = ["health".toList] := by
    cases isSpecial scheme <;> rfl
  have hresolved : resolveSegments encodeInPath [] (markDrive scheme ["health".toList]) =
      ["health"] := rfl
  simp only [readSegments, hsplit, List.isEmpty_nil, if_true, hresolved, trimFile]
  split <;> rfl

/-- Among files it depends on the first segment of the path whether a drive is kept. -/
theorem readFile_health {u : Url} {list : List String} (hlist : u.path = .segments list) :
    readFile (some u) "/health".toList =
      if (list.take 1).any (isDrive ·.toList) then
        .ok (readTail "file" { ofScheme "file" with
          host := some (.domain "")
          path := .segments (readSegments "file" (list.take 1) "health".toList) } [])
      else .ok (readTail "file"
        { u with path := .segments (readPath "file" "/health".toList) } []) := by
  cases u
  cases hlist
  rfl

/-- **Off drives the path takes the place of the whole path.** -/
theorem join_health {u : Url} (hu : u.HasSegments) (hdrive : ¬ u.OnDrive) :
    u.join "/health" = .ok (u.withPath (.segments ["health"])) := by
  obtain ⟨list, hlist⟩ := hu
  rw [join_health_eq hlist]
  split
  · rename_i hfile
    have hnone : (list.take 1).any (isDrive ·.toList) = false := by
      cases list with
      | nil => rfl
      | cons first rest =>
          have hfirst : isDrive first.toList = false :=
            Bool.eq_false_iff.2 fun h => hdrive ⟨hfile, first, rest, hlist, h⟩
          simp [hfirst]
    rw [readFile_health hlist, hnone]
    rfl
  · have hread : readRelative u list "/health".toList = .ok (readTail u.scheme
        { u with path := .segments (readSegments u.scheme [] "health".toList) } []) := rfl
    rw [hread, readSegments_health]
    rfl

/-- **On a drive the path stays on the drive.** -/
theorem join_health_onDrive {u : Url} (hdrive : u.OnDrive) : ∃ drive v,
    isDrive drive.toList = true ∧ u.join "/health" = .ok v ∧
      v.path = .segments [drive, "health"] := by
  obtain ⟨hfile, drive, rest, hpath, hletter⟩ := hdrive
  have hany : ((drive :: rest).take 1).any (isDrive ·.toList) = true := by simp [hletter]
  have hfull : drive.isEmpty = false := by
    rw [Bool.eq_false_iff]
    intro hempty
    rw [String.isEmpty_iff.1 hempty] at hletter
    cases hletter
  rw [join_health_eq hpath, if_pos hfile, readFile_health hpath, hany]
  refine ⟨drive, _, hletter, rfl, congrArg UrlPath.segments ?_⟩
  show trimFile "file" [drive, "health"] = [drive, "health"]
  simp [trimFile, hfull]

end ZoneConsole.Url
