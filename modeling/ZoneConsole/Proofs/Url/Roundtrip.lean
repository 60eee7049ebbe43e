import ZoneConsole.Proofs.Text.Digits
import ZoneConsole.Proofs.Url.Normal

/-!
# URLs of the web are read back

The text of a URL in normal form is read as the URL.  The reader cuts the text where the writer
put it together: after the slashes that follow the scheme, at the last sign before the host, at
the colon of a port, at the first slash, at the question mark and at the number sign.  In each
part the characters are missing that would end it, as they are encoded there.

* **`readUser_write`**, **`readPort_write`**, **`readTail_write`** — the parts one by one.
* **`parse_write`** — the whole URL.
-/

namespace ZoneConsole.Url

open Text

/-! ### Cuts -/

section Cuts

variable {stop : Char → Bool} {part rest : List Char}

/-- A text is cut before the first character that stops it. -/
theorem cutAt_append (hpart : ∀ c ∈ part, stop c = false)
    (hrest : ∀ c ∈ rest.head?, stop c = true) : cutAt stop (part ++ rest) = (part, rest) := by
  have hgo : ∀ c ∈ part, (!stop c) = true := fun c hc => by rw [hpart c hc]; rfl
  have hstop : Stops (!stop ·) rest := fun c hc => by simp [hrest c hc]
  rw [cutAt, takeWhile_stops hgo hstop, dropWhile_stops hgo hstop]

/-- A text that nothing stops is not cut. -/
theorem cutAt_of_none (hpart : ∀ c ∈ part, stop c = false) : cutAt stop part = (part, []) := by
  have h : cutAt stop (part ++ []) = (part, []) := cutAt_append hpart (by simp)
  rwa [List.append_nil] at h

end Cuts

/-- A shown text is read as it is. -/
theorem clean_of_shown {cs : List Char} (h : ∀ c ∈ cs, 0x20 < c.toNat) : clean cs = cs := by
  have hstops : ∀ {cs : List Char}, (∀ c ∈ cs, 0x20 < c.toNat) →
      Stops (fun c => decide (c.toNat ≤ 0x20)) cs := by
    intro cs h c hc
    exact decide_eq_false (Nat.not_le.2 (h c (List.mem_of_mem_head? hc)))
  have hfront := dropWhile_of_stops (hstops h)
  have hback := dropWhile_of_stops (hstops fun c hc => h c (List.mem_reverse.1 hc))
  unfold clean
  simp only [hfront, hback, List.reverse_reverse]
  rw [List.filter_eq_self]
  intro c hc
  have hne : ∀ d : Char, d.toNat ≤ 0x20 → c ≠ d := by
    rintro d hd rfl
    exact absurd (h _ hc) (Nat.not_lt.2 hd)
  simp [hne '\t' (by decide), hne '\n' (by decide), hne '\r' (by decide)]

/-! ### The user -/

variable {u v : Url} {host rest : List Char}

/-- What stands in the name or the password of a user. -/
theorem isAuthorityChar_of_user {c : Char} (h : userSet c = false) :
    IsAuthorityChar c ∧ c ≠ ':' := by
  have hcolon : c ≠ ':' := by
    rintro rfl
    exact absurd h (by decide)
  have hencoded : IsEncoded userSet [c] := by simpa [IsEncoded] using h
  have hshown := encodes_userSet.shown hencoded c (List.mem_singleton_self c)
  exact ⟨isAuthorityChar_of_set hshown.1 h (by decide), hcolon⟩

/-- What stands before the last sign is the user, or the user and the password. -/
theorem readUser_info {info : List Char} (hne : info ≠ [])
    (hinfo : ∀ c ∈ info, (isSlash true c || endsPath c) = false)
    (hhost : ∀ c ∈ host, IsAuthorityChar c)
    (hrest : ∀ c ∈ rest.head?, (isSlash true c || endsPath c) = true) :
    (∀ name, cutAt (· = ':') info = (name, []) →
      readUser true (info ++ '@' :: (host ++ rest)) =
        .ok (String.ofList (percentEncode userSet name), none, true, host ++ rest)) ∧
      ∀ name password, password ≠ [] → cutAt (· = ':') info = (name, ':' :: password) →
        readUser true (info ++ '@' :: (host ++ rest)) =
          .ok (String.ofList (percentEncode userSet name),
            some (String.ofList (percentEncode userSet password)), true, host ++ rest) := by
  have hauthority : ∀ c ∈ info ++ '@' :: host, (isSlash true c || endsPath c) = false := by
    intro c hc
    rcases List.mem_append.1 hc with hc | hc
    · exact hinfo c hc
    · rcases List.mem_cons.1 hc with rfl | hc
      · rfl
      · exact (hhost c hc).stays
  have hcut : cutAt (fun c => isSlash true c || endsPath c) (info ++ '@' :: (host ++ rest)) =
      (info ++ '@' :: host, rest) := by
    rw [← List.cons_append, ← List.append_assoc]
    exact cutAt_append hauthority hrest
  -- Read from the end the sign is the first one, as there is none in the host.
  have hreverse : (info ++ '@' :: host).reverse = host.reverse ++ '@' :: info.reverse := by simp
  have hgo : ∀ c ∈ host.reverse, decide (c ≠ '@') = true := fun c hc =>
    decide_eq_true (hhost c (List.mem_reverse.1 hc)).sign
  have hstop : Stops (fun c => decide (c ≠ '@')) ('@' :: info.reverse) := stops_cons rfl _
  have hdrop := dropWhile_stops hgo hstop
  have htake := takeWhile_stops hgo hstop
  have hfull : info.isEmpty = false := by simpa using hne
  constructor
  · intro name hname
    unfold readUser
    simp only [hcut, hreverse, hdrop, htake, List.reverse_reverse, hfull, hname,
      Bool.false_eq_true, if_false]
  · intro name password hpassword hname
    obtain ⟨first, more, rfl⟩ := List.exists_cons_of_ne_nil hpassword
    unfold readUser
    simp only [hcut, hreverse, hdrop, htake, List.reverse_reverse, hfull, hname,
      Bool.false_eq_true, if_false]

/-- Without a sign there is no user. -/
theorem readUser_none (hhost : ∀ c ∈ host, IsAuthorityChar c)
    (hrest : ∀ c ∈ rest.head?, (isSlash true c || endsPath c) = true) :
    readUser true (host ++ rest) = .ok ("", none, false, host ++ rest) := by
  have hcut : cutAt (fun c => isSlash true c || endsPath c) (host ++ rest) = (host, rest) :=
    cutAt_append (fun c hc => (hhost c hc).stays) hrest
  have hdrop : (host.reverse ++ []).dropWhile (fun c => decide (c ≠ '@')) = [] :=
    dropWhile_stops (fun c hc => decide_eq_true (hhost c (List.mem_reverse.1 hc)).sign)
      (stops_nil _)
  rw [List.append_nil] at hdrop
  unfold readUser
  simp only [hcut, hdrop]

/-- **The user and the password are read back** in front of a host. -/
theorem readUser_write (h : u.IsNormal) (hhost : ∀ c ∈ host, IsAuthorityChar c)
    (hrest : ∀ c ∈ rest.head?, (isSlash true c || endsPath c) = true) :
    ∃ hasUser, readUser true (u.writeUser ++ (host ++ rest)) =
      .ok (u.user, u.password, hasUser, host ++ rest) := by
  have hstays : ∀ {s : List Char}, IsEncoded userSet s →
      ∀ c ∈ s, (isSlash true c || endsPath c) = false := fun hs c hc =>
    (isAuthorityChar_of_user (hs c hc)).1.stays
  have hcolon : ∀ c ∈ u.user.toList, decide (c = ':') = false := fun c hc =>
    decide_eq_false (isAuthorityChar_of_user (h.user c hc)).2
  unfold writeUser
  cases hpassword : u.password with
  | some p =>
      obtain ⟨hp, hencoded⟩ := h.password p hpassword
      have hcut : cutAt (· = ':') (u.user.toList ++ ':' :: p.toList) =
          (u.user.toList, ':' :: p.toList) := cutAt_append hcolon (by simp)
      -- nothing in an encoded user or password ends the authority, and nor does the colon
      have hinfo : ∀ c ∈ u.user.toList ++ ':' :: p.toList,
          (isSlash true c || endsPath c) = false := by
        intro c hc
        rcases List.mem_append.1 hc with hc | hc
        · exact hstays h.user c hc
        · rcases List.mem_cons.1 hc with rfl | hc
          · rfl
          · exact hstays hencoded c hc
      have hread := (readUser_info (by simp) hinfo hhost hrest).2 u.user.toList p.toList
        (by simpa using hp) hcut
      rw [ofList_percentEncode h.user, ofList_percentEncode hencoded] at hread
      refine ⟨true, ?_⟩
      simp only [List.append_assoc, List.cons_append, List.nil_append] at hread ⊢
      exact hread
  | none =>
      simp only
      -- without a user no mark is written, so there must be none to be found either
      split
      · rename_i hempty
        rw [String.isEmpty_iff.1 hempty, List.nil_append]
        exact ⟨false, readUser_none hhost hrest⟩
      · rename_i hempty
        have hne : u.user.toList ≠ [] := by simpa using hempty
        have hread := (readUser_info hne (hstays h.user) hhost hrest).1 u.user.toList
          (cutAt_of_none hcolon)
        rw [ofList_percentEncode h.user] at hread
        refine ⟨true, ?_⟩
        simp only [List.append_assoc, List.cons_append, List.nil_append] at hread ⊢
        exact hread

/-! ### Port, path, query and fragment -/

/-- **A port is read back** in front of a path. -/
theorem readPort_write {scheme : String} {p : Nat} (hp : p ≤ 65535 ∧ defaultPort? scheme ≠ some p)
    (hrest : ∀ c ∈ rest.head?, c = '/') :
    readPort scheme (Text.decimal p ++ rest) = .ok (some p, rest) := by
  have hdigits : ∀ c ∈ Text.decimal p, isDigit c := fun c hc => isDigit_of_mem_decimal hc
  have hstop : Stops isDigit rest := fun c hc => by rw [hrest c hc]; rfl
  have hfull : (Text.decimal p).isEmpty = false := by simpa using decimal_ne_nil p
  unfold readPort
  simp only [takeWhile_stops hdigits hstop, dropWhile_stops hdigits hstop, decimalValue_decimal,
    hfull, decide_eq_false hp.2, decide_eq_false (Nat.not_lt.2 hp.1)]
  cases rest with
  | nil => rfl
  | cons c rest =>
      rw [hrest c rfl]
      rfl

/-- A part after its mark begins with the mark. -/
theorem eq_of_head?_writePart {mark c : Char} {part : Option String}
    (h : c ∈ (writePart mark part).head?) : c = mark := by
  cases part with
  | none => cases h
  | some s => exact (Option.some.inj h).symm

/-- What stands in a part after its mark. -/
theorem mem_writePart {mark c : Char} {part : Option String} (h : c ∈ writePart mark part) :
    c = mark ∨ ∃ s, part = some s ∧ c ∈ s.toList := by
  cases part with
  | none => cases h
  | some s => exact (List.mem_cons.1 h).imp_right fun hc => ⟨s, rfl, hc⟩

/-- The marks of query and fragment end a path. -/
theorem endsPath_of_head? (q f : Option String) :
    ∀ c ∈ (writePart '?' q ++ writePart '#' f).head?, endsPath c = true := by
  intro c hc
  cases q with
  | some q =>
      obtain rfl := Option.some.inj hc
      rfl
  | none =>
      rw [eq_of_head?_writePart hc]
      rfl

/-- **Query and fragment are read back.** -/
theorem readTail_write (h : u.IsNormal) :
    readTail u.scheme v (writePart '?' u.query ++ writePart '#' u.fragment) =
      { v with query := u.query, fragment := u.fragment } := by
  have hquery : ∀ c ∈ writePart '?' u.query, decide (c = '#') = false := by
    intro c hc
    rcases mem_writePart hc with rfl | ⟨q, hq, hc⟩
    · rfl
    · refine decide_eq_false ?_
      rintro rfl
      exact absurd (h.query q hq _ hc) (by decide)
  have hfragment : ∀ c ∈ (writePart '#' u.fragment).head?, decide (c = '#') = true :=
    fun c hc => decide_eq_true (eq_of_head?_writePart hc)
  have hcut := cutAt_append hquery hfragment
  unfold readTail
  simp only [hcut, h.web.special, if_true]
  congr 1
  · cases hq : u.query with
    | none => rfl
    | some q => exact congrArg some (ofList_percentEncode (h.query q hq))
  · cases hf : u.fragment with
    | none => rfl
    | some f => exact congrArg some (ofList_percentEncode (h.fragment f hf))

/-! ### Whole URLs -/

/-- The characters of a port. -/
theorem isAuthorityChar_of_mem_writePort {port : Option Nat} {c : Char} (h : c ∈ writePort port) :
    IsAuthorityChar c := by
  cases port with
  | none => cases h
  | some p =>
      rcases List.mem_cons.1 h with rfl | h
      · exact ⟨by decide, rfl, rfl, by decide⟩
      · have hdigit := isDigit_of_mem_decimal h
        have hrange := isDigit_iff.1 hdigit
        have hset : (!isDigit c) = false := by rw [hdigit]; rfl
        have hmarks : (['/', '\\', '?', '#', '@'].all fun c => !isDigit c) = true := by decide
        exact isAuthorityChar_of_set (by omega) hset hmarks

/-- **What follows the two slashes is read back.** -/
theorem readAuthority_write (h : u.IsNormal) {host : Host} {list : List String}
    (hhost : u.host = some host) (hpath : u.path = .segments list) :
    readAuthority u.scheme (u.writeUser ++ ((host.write ++ writePort u.port) ++
      (writeSegments list ++ (writePart '?' u.query ++ writePart '#' u.fragment)))) = .ok u := by
  obtain ⟨host', hhost', hnormal⟩ := h.host
  obtain rfl := Option.some.inj (hhost.symm.trans hhost')
  obtain ⟨list', hpath', hsegments, hne⟩ := h.path
  obtain rfl := UrlPath.segments.inj (hpath.symm.trans hpath')
  generalize htail : writePart '?' u.query ++ writePart '#' u.fragment = tail
  have hends : ∀ c ∈ tail.head?, endsPath c = true := htail ▸ endsPath_of_head? u.query u.fragment
  obtain ⟨text, htext⟩ : ∃ text, writeSegments list ++ tail = '/' :: text := by
    obtain ⟨s, more, rfl⟩ := List.exists_cons_of_ne_nil hne
    exact ⟨_, rfl⟩
  have hslash : ∀ c ∈ (writeSegments list ++ tail).head?, c = '/' := by
    rw [htext]
    exact fun c hc => (Option.some.inj hc).symm
  have hchars : ∀ c ∈ host.write ++ writePort u.port, IsAuthorityChar c := by
    intro c hc
    rcases List.mem_append.1 hc with hc | hc
    · exact Host.isAuthorityChar_of_mem_write hnormal c hc
    · exact isAuthorityChar_of_mem_writePort hc
  obtain ⟨hasUser, huser⟩ := readUser_write h hchars fun c hc => by rw [hslash c hc]; rfl
  have hport : ∀ c, (writePort u.port ++ (writeSegments list ++ tail)).head? = some c →
      c = ':' ∨ c = '/' := by
    intro c hc
    cases hp : u.port with
    | none =>
        rw [hp] at hc
        exact .inr (hslash c hc)
    | some p =>
        rw [hp] at hc
        exact .inl (Option.some.inj hc).symm
  have hfound := Host.takeHost_write hnormal hport
  have hcut := cutAt_append (fun c hc => (mem_writeSegments hsegments hc).2) hends
  have hfull : host.write.isEmpty = false := by simpa using Host.write_ne_nil hnormal
  rw [List.append_assoc host.write] at huser ⊢
  unfold readAuthority
  simp only [h.web.special, huser, hfound, bind, Except.bind, if_true, hfull, Bool.false_eq_true,
    if_false, Host.readSpecial_write hnormal]
  have hrest : readTail u.scheme ⟨u.scheme, u.user, u.password, some host, u.port,
      .segments (readPath u.scheme (writeSegments list)), none, none⟩ tail = u := by
    rw [← htail, readTail_write h, readPath_writeSegments h.web.special h.web.ne_file hsegments hne,
      ← hhost, ← hpath]
  cases hp : u.port with
  | none =>
      -- Without a port the host is followed by the slash of the path, which is no colon.
      rw [hp] at hrest
      rw [htext] at hcut
      simp only [writePort, List.nil_append, htext]
      show Except.ok (readTail u.scheme ⟨u.scheme, u.user, u.password, some host, none,
        .segments (readPath u.scheme (cutAt endsPath ('/' :: text)).1), none, none⟩
          (cutAt endsPath ('/' :: text)).2) = .ok u
      rw [hcut, hrest]
  | some p =>
      rw [hp] at hrest
      simp only [writePort, List.cons_append, readPort_write (h.port p hp) hslash, hcut, hrest]
      rfl

/-- The characters before a host are shown, and no slashes. -/
theorem mem_writeUser (h : u.IsNormal) {c : Char} (hc : c ∈ u.writeUser) :
    0x20 < c.toNat ∧ isSlash true c = false := by
  have hencoded : ∀ {s : List Char}, IsEncoded userSet s → c ∈ s →
      0x20 < c.toNat ∧ isSlash true c = false := by
    intro s hs hc
    obtain ⟨hchar, -⟩ := isAuthorityChar_of_user (hs c hc)
    exact ⟨hchar.shown, hchar.slash⟩
  have hsign : c ∈ ['@'] → 0x20 < c.toNat ∧ isSlash true c = false := by
    intro hc
    rw [List.mem_singleton.1 hc]
    exact ⟨by decide, rfl⟩
  unfold writeUser at hc
  split at hc
  · rename_i p hp
    rcases List.mem_append.1 hc with hc | hc
    · exact hencoded h.user hc
    · rcases List.mem_cons.1 hc with rfl | hc
      · exact ⟨by decide, rfl⟩
      · rcases List.mem_append.1 hc with hc | hc
        · exact hencoded (h.password p hp).2 hc
        · exact hsign hc
  · split at hc
    · cases hc
    · rcases List.mem_append.1 hc with hc | hc
      · exact hencoded h.user hc
      · exact hsign hc

/-- The text of a URL with a host and segments. -/
theorem writeChars_eq {host : Host} {list : List String} (hhost : u.host = some host)
    (hpath : u.path = .segments list) :
    u.writeChars = u.scheme.toList ++ ':' :: '/' :: '/' :: (u.writeUser ++
      ((host.write ++ writePort u.port) ++
        (writeSegments list ++ (writePart '?' u.query ++ writePart '#' u.fragment)))) := by
  have hauthority : u.writeAuthority =
      '/' :: '/' :: (u.writeUser ++ host.write ++ writePort u.port) := by
    rw [writeAuthority, hhost]
  rw [writeChars, hauthority, hpath]
  simp only [writePathAfter, writePath, List.cons_append, List.append_assoc]

/-- The characters from the path on are shown. -/
theorem shown_after (h : u.IsNormal) {list : List String} (hpath : u.path = .segments list) :
    ∀ c ∈ writeSegments list ++ (writePart '?' u.query ++ writePart '#' u.fragment),
      0x20 < c.toNat ∧ c.toNat ≤ 0x7e := by
  obtain ⟨list', hpath', hsegments, -⟩ := h.path
  obtain rfl := UrlPath.segments.inj (hpath.symm.trans hpath')
  have hpart : ∀ {set : Char → Bool} {mark : Char} {part : Option String}, Encodes set →
      0x20 < mark.toNat ∧ mark.toNat ≤ 0x7e → (∀ s, part = some s → IsEncoded set s.toList) →
      ∀ c ∈ writePart mark part, 0x20 < c.toNat ∧ c.toNat ≤ 0x7e := by
    intro set mark part hset hmark hencoded c hc
    rcases mem_writePart hc with rfl | ⟨s, hs, hc⟩
    · exact hmark
    · exact hset.shown (hencoded s hs) c hc
  intro c hc
  simp only [List.mem_append] at hc
  rcases hc with hc | hc | hc
  · exact (mem_writeSegments hsegments hc).1
  · exact hpart encodes_querySet (by decide) h.query c hc
  · exact hpart encodes_fragmentSet (by decide) h.fragment c hc

/-- All characters of the text of a URL are shown. -/
theorem shown_writeChars (h : u.IsNormal) : ∀ c ∈ u.writeChars, 0x20 < c.toNat := by
  obtain ⟨host, hhost, hnormal⟩ := h.host
  obtain ⟨list, hpath, -⟩ := h.path
  have hscheme : (u.scheme.toList.all fun c => decide (0x20 < c.toNat)) = true := by
    rcases h.web with hs | hs
    · rw [hs]
      decide
    · rw [hs]
      decide
  intro c hc
  rw [writeChars_eq hhost hpath, List.mem_append, List.mem_cons, List.mem_cons, List.mem_cons,
    List.mem_append, List.mem_append, List.mem_append] at hc
  rcases hc with hc | rfl | rfl | rfl | hc | (hc | hc) | hc
  · exact of_decide_eq_true (List.all_eq_true.1 hscheme c hc)
  · decide
  · decide
  · decide
  · exact (mem_writeUser h hc).1
  · exact (Host.isAuthorityChar_of_mem_write hnormal c hc).shown
  · exact (isAuthorityChar_of_mem_writePort hc).shown
  · exact (shown_after h hpath c hc).1

/-- A scheme of the web is read in front of its colon. -/
theorem readScheme_web {scheme : String} (h : IsWeb scheme) (rest : List Char) :
    readScheme (scheme.toList ++ ':' :: rest) = some (scheme, rest) := by
  rcases h with rfl | rfl
  · rfl
  · rfl

/-- **A URL of the web is read back** from its text. -/
theorem parse_write (h : u.IsNormal) : parse u.write = .ok u := by
  obtain ⟨host, hhost, hnormal⟩ := h.host
  obtain ⟨list, hpath, hsegments, hne⟩ := h.path
  have hread := readAuthority_write h hhost hpath
  have hclean : clean u.write.toList = u.writeChars := by
    rw [write, String.toList_ofList, clean_of_shown (shown_writeChars h)]
  have hbody : ∀ rest, List.dropWhile (isSlash true)
      ('/' :: '/' :: (u.writeUser ++ ((host.write ++ writePort u.port) ++ rest))) =
        u.writeUser ++ ((host.write ++ writePort u.port) ++ rest) := by
    intro rest
    -- The slashes end where the user or the host begins.
    rw [List.dropWhile_cons_of_pos (by rfl), List.dropWhile_cons_of_pos (by rfl)]
    refine dropWhile_of_stops ?_
    have hstart : u.writeUser ++ host.write ≠ [] := by simp [Host.write_ne_nil hnormal]
    rw [List.append_assoc host.write, ← List.append_assoc]
    obtain ⟨c, cs, hcs⟩ := List.exists_cons_of_ne_nil hstart
    rw [hcs]
    refine stops_cons ?_ _
    have hc : c ∈ u.writeUser ++ host.write := hcs ▸ List.mem_cons_self
    rcases List.mem_append.1 hc with hc | hc
    · exact (mem_writeUser h hc).2
    · exact (Host.isAuthorityChar_of_mem_write hnormal c hc).slash
  unfold parse Url.read
  simp only [hclean, writeChars_eq hhost hpath, readScheme_web h.web, if_neg h.web.ne_file,
    h.web.special, if_true, hbody, hread]

end ZoneConsole.Url
