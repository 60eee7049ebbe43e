import ZoneConsole.Proofs.Url.Address
import ZoneConsole.Url.Parser

/-!
# Hosts are read back

A host of a special scheme is an address, or a name in its ASCII form that ends in no number.
Every host that is read is of this kind, and is read back from its text; and the text ends where
a port or a path begins.

* **`Host.IsNormal`** — the hosts that can be read; `isNormal_of_readSpecial`.
* **`readSpecial_write`** — such a host is read back.
* **`takeHost_write`** — its text is found at the start of what follows the user.
-/

namespace ZoneConsole

namespace Url

/-- A text without percent signs stands for itself. -/
theorem percentDecode_of_none {cs : List Char} (h : ∀ c ∈ cs, c ≠ '%') :
    percentDecode cs = Text.utf8 cs := by
  induction cs with
  | nil => rfl
  | cons c cs ih =>
      obtain ⟨hc, hcs⟩ := List.forall_mem_cons.1 h
      rw [percentDecode_cons hc, ih hcs, Text.utf8, Text.utf8, List.flatMap_cons]

/-- A character that may stand between the user and the path. -/
structure IsAuthorityChar (c : Char) : Prop where
  shown : 0x20 < c.toNat
  slash : isSlash true c = false
  ending : endsPath c = false
  sign : c ≠ '@'

/-- What is shown and left out of a set that has the marks between the parts of a URL. -/
theorem isAuthorityChar_of_set {set : Char → Bool} {c : Char} (hshown : 0x20 < c.toNat)
    (hc : set c = false) (hmarks : ['/', '\\', '?', '#', '@'].all set = true) :
    IsAuthorityChar c := by
  have hne : ∀ d ∈ ['/', '\\', '?', '#', '@'], c ≠ d := by
    rintro d hd rfl
    have hmark := List.all_eq_true.1 hmarks c hd
    rw [hc] at hmark
    cases hmark
  refine ⟨hshown, ?_, ?_, hne '@' (by simp)⟩
  · simp [isSlash, hne '/' (by simp), hne '\\' (by simp)]
  · simp [endsPath, hne '?' (by simp), hne '#' (by simp)]

/-- Neither the authority nor the path ends with such a character. -/
theorem IsAuthorityChar.stays {c : Char} (h : IsAuthorityChar c) :
    (isSlash true c || endsPath c) = false := by
  rw [h.slash, h.ending]
  rfl

end Url

namespace Host

open Url

/-- A name in its ASCII form that is no address. -/
structure IsName (name : List Char) : Prop where
  full : name ≠ []
  allowed : ∀ c ∈ name, isForbidden c = false
  form : asciiName name = some name

/-- The hosts that are read in special schemes. -/
def IsNormal : Host → Prop
  | domain name => IsName name.toList ∧ endsInNumber name.toList = false
  | ipv4 n => n < 0x100000000
  | ipv6 pieces => IsPieces pieces

/-! ### Names -/

/-- What is not forbidden in a name. -/
theorem allowed_of_not_forbidden {c : Char} (h : isForbidden c = false) :
    IsAuthorityChar c ∧ c ≠ '%' ∧ c ≠ ':' ∧ c ≠ '[' ∧ c ≠ ']' := by
  have hne : ∀ d, isForbidden d = true → c ≠ d := by
    rintro d hd rfl
    rw [h] at hd
    cases hd
  have hshown : 0x20 < c.toNat := by
    by_contra hlow
    rw [isForbidden, decide_eq_true (Nat.le_of_not_lt hlow)] at h
    cases h
  exact ⟨isAuthorityChar_of_set hshown h (by decide), hne '%' (by decide), hne ':' (by decide),
    hne '[' (by decide), hne ']' (by decide)⟩

/-- A name is read as the address that it writes, or as itself. -/
theorem readSpecial_of_isName {name : List Char} (h : IsName name) :
    readSpecial name =
      if endsInNumber name then (readIpv4 name).map ipv4
      else .ok (domain (String.ofList name)) := by
  have hbracketed : bracketed name = none := by
    unfold bracketed
    split
    · exact absurd rfl (allowed_of_not_forbidden (h.allowed '[' List.mem_cons_self)).2.2.2.1
    · rfl
  have hdecoded := percentDecode_of_none fun c hc =>
    (allowed_of_not_forbidden (h.allowed c hc)).2.1
  have hutf8 : Text.isUtf8 (Text.utf8 name) = true := by simp [Text.isUtf8, Text.readUtf8_utf8]
  have hallowed : name.any isForbidden = false := by
    rw [List.any_eq_false]
    intro c hc
    rw [h.allowed c hc]
    exact Bool.false_ne_true
  have hfull : name.isEmpty = false := by simpa using h.full
  unfold readSpecial
  simp only [hbracketed, hdecoded, Text.readUtf8_utf8, h.form, hutf8, hallowed, hfull]
  rfl

/-- An address of four parts is a name in its ASCII form. -/
theorem isName_writeIpv4 {n : Nat} (hn : n < 0x100000000) : IsName (writeIpv4 n) := by
  refine ⟨?_, fun c hc => ?_, asciiName_writeIpv4 hn⟩
  · intro hnil
    have hends := endsInNumber_writeIpv4 hn
    rw [hnil] at hends
    exact absurd hends (by decide)
  · rw [writeIpv4_eq] at hc
    rcases mem_intercalate hc with rfl | ⟨part, hpart, hc⟩
    · decide
    · obtain ⟨d, hd, rfl⟩ := List.mem_map.1 hpart
      have hall : ∀ d < 256, ((Text.decimal d).all fun c => !isForbidden c) = true := by
        decide +kernel
      simpa using List.all_eq_true.1 (hall d (partsOf_lt hn d hd)) c hc

/-- The address in brackets is read back. -/
theorem bracketed_write {pieces : List Nat} (h : IsPieces pieces) :
    bracketed (write (ipv6 pieces)) = some (.ok (ipv6 pieces)) := by
  have hlast : (writeIpv6 pieces ++ [']']).getLast? = some ']' := List.getLast?_concat
  simp only [write, bracketed, hlast, if_true, List.dropLast_concat, readIpv6_writeIpv6 h]
  rfl

/-- What is read in brackets is an address of eight pieces. -/
theorem isNormal_of_bracketed {cs : List Char} {host : Host}
    (h : bracketed cs = some (.ok host)) : host.IsNormal := by
  unfold bracketed at h
  split at h
  · have h' := Option.some.inj h
    split at h'
    · rename_i rest _
      cases hread : readIpv6 rest.dropLast with
      | error e =>
          rw [hread] at h'
          cases h'
      | ok pieces =>
          rw [hread] at h'
          obtain rfl := Except.ok.inj h'
          exact isPieces_of_readIpv6 hread
    · cases h'
  · cases h

/-- **A host that is read** is a name or an address. -/
theorem isNormal_of_readSpecial {cs : List Char} {host : Host} (h : readSpecial cs = .ok host) :
    host.IsNormal := by
  unfold readSpecial at h
  split at h
  · rename_i result hresult
    exact isNormal_of_bracketed (h ▸ hresult)
  · simp only at h
    split at h
    · cases h
    rename_i name hname
    split at h
    · cases h
    rename_i hallowed
    split at h
    · cases h
    rename_i hfull
    split at h
    · cases hread : readIpv4 name with
      | error e =>
          rw [hread] at h
          cases h
      | ok n =>
          rw [hread] at h
          obtain rfl := Except.ok.inj h
          exact readIpv4_lt hread
    · rename_i hnumber
      obtain rfl := Except.ok.inj h
      rw [Bool.or_eq_true, not_or, Bool.not_eq_true, Bool.not_eq_true] at hallowed
      -- it does not end in a number, or it would have been read as an address
      refine ⟨?_, ?_⟩
      · rw [String.toList_ofList]
        refine ⟨by simpa using hfull, fun c hc => ?_, asciiName_idem hname⟩
        exact Bool.eq_false_iff.2 fun hc' => by
          rw [List.any_eq_false] at hallowed
          exact hallowed.2 c hc hc'
      · rw [String.toList_ofList]
        simpa using hnumber

/-- **A host is read back** from its text. -/
theorem readSpecial_write {host : Host} (h : host.IsNormal) :
    readSpecial host.write = .ok host := by
  cases host with
  | domain name =>
      obtain ⟨hname, hnumber⟩ := h
      rw [write, readSpecial_of_isName hname, hnumber]
      exact congrArg (Except.ok ∘ domain) String.ofList_toList
  | ipv4 n =>
      have hn : n < 0x100000000 := h
      rw [write, readSpecial_of_isName (isName_writeIpv4 hn), endsInNumber_writeIpv4 hn,
        readIpv4_writeIpv4 hn]
      rfl
  | ipv6 pieces =>
      rw [readSpecial, bracketed_write h]

/-! ### Texts of hosts -/

/-- What a hexadecimal digit is not. -/
theorem isAuthorityChar_of_isHex {c : Char} (h : isHex c = true) :
    IsAuthorityChar c ∧ c ≠ ':' ∧ c ≠ '[' ∧ c ≠ ']' := by
  have hrange : 0x30 ≤ c.toNat ∧ c.toNat ≤ 0x39 ∨ 0x41 ≤ c.toNat ∧ c.toNat ≤ 0x46 ∨
      0x61 ≤ c.toNat ∧ c.toNat ≤ 0x66 := by
    unfold isHex Text.hexValue? at h
    split at h
    · exact .inl ‹_›
    split at h
    · exact .inr (.inr ‹_›)
    split at h
    · exact .inr (.inl ‹_›)
    · cases h
  have hne : ∀ d : Char, ¬ (0x30 ≤ d.toNat ∧ d.toNat ≤ 0x39 ∨ 0x41 ≤ d.toNat ∧ d.toNat ≤ 0x46 ∨
      0x61 ≤ d.toNat ∧ d.toNat ≤ 0x66) → c ≠ d := by
    rintro d hd rfl
    exact hd hrange
  have hset : (!isHex c) = false := by rw [h]; rfl
  have hmarks : (['/', '\\', '?', '#', '@'].all fun c => !isHex c) = true := by decide
  exact ⟨isAuthorityChar_of_set (by omega) hset hmarks, hne ':' (by decide), hne '[' (by decide),
    hne ']' (by decide)⟩

/-- What stands in the text of an address of eight pieces. -/
theorem mem_writeIpv6 {pieces : List Nat} {c : Char} (h : c ∈ writeIpv6 pieces) :
    c = ':' ∨ isHex c = true := by
  have hpieces : ∀ {pieces : List Nat}, c ∈ writePieces pieces → c = ':' ∨ isHex c = true := by
    intro pieces hc
    refine (mem_intercalate hc).imp_right ?_
    rintro ⟨part, hpart, hc⟩
    obtain ⟨p, -, rfl⟩ := List.mem_map.1 hpart
    exact (hex_value p).1 c hc
  rw [writeIpv6_eq] at h
  split at h
  · exact hpieces h
  · rcases List.mem_append.1 h with h | h
    · exact hpieces h
    · rcases List.mem_cons.1 h with h | h
      · exact .inl h
      · rcases List.mem_cons.1 h with h | h
        · exact .inl h
        · exact hpieces h

/-- The characters of the text of a host. -/
theorem isAuthorityChar_of_mem_write {host : Host} (h : host.IsNormal) :
    ∀ c ∈ host.write, IsAuthorityChar c := by
  cases host with
  | domain name => exact fun c hc => (allowed_of_not_forbidden (h.1.allowed c hc)).1
  | ipv4 n => exact fun c hc => (allowed_of_not_forbidden ((isName_writeIpv4 h).allowed c hc)).1
  | ipv6 pieces =>
      intro c hc
      rcases List.mem_cons.1 hc with rfl | hc
      · exact ⟨by decide, rfl, rfl, by decide⟩
      · rcases List.mem_append.1 hc with hc | hc
        · rcases mem_writeIpv6 hc with rfl | hhex
          · exact ⟨by decide, rfl, rfl, by decide⟩
          · exact (isAuthorityChar_of_isHex hhex).1
        · rw [List.mem_singleton.1 hc]
          exact ⟨by decide, rfl, rfl, by decide⟩

theorem write_ne_nil {host : Host} (h : host.IsNormal) : host.write ≠ [] := by
  cases host with
  | domain name => exact h.1.full
  | ipv4 n => exact (isName_writeIpv4 h).full
  | ipv6 pieces => exact List.cons_ne_nil _ _

/-- Characters of a host are taken; among them colons only inside brackets. -/
theorem takeHost_append {inside : Bool} {cs : List Char}
    (h : ∀ c ∈ cs, IsAuthorityChar c ∧ (c = ':' → inside = true) ∧ c ≠ '[' ∧ c ≠ ']')
    (rest : List Char) :
    takeHost true inside (cs ++ rest) =
      (cs ++ (takeHost true inside rest).1, (takeHost true inside rest).2) := by
  induction cs with
  | nil => rfl
  | cons c cs ih =>
      obtain ⟨⟨hchar, hcolon, hopen, hclose⟩, hcs⟩ := List.forall_mem_cons.1 h
      have hgo : ((c = ':' && !inside) || isSlash true c || endsPath c) = false := by
        rw [hchar.slash, hchar.ending, Bool.or_false, Bool.or_false]
        by_cases hc : c = ':'
        · simp [hc, hcolon hc]
        · simp [hc]
      rw [List.cons_append, takeHost, hgo, if_neg Bool.false_ne_true, if_neg hopen, if_neg hclose]
      simp only [ih hcs]
      rfl

/-- **The text of a host is found** before a port or a path. -/
theorem takeHost_write {host : Host} (h : host.IsNormal) {rest : List Char}
    (hrest : ∀ c, rest.head? = some c → c = ':' ∨ c = '/') :
    takeHost true false (host.write ++ rest) = (host.write, rest) := by
  have hstop : takeHost true false rest = ([], rest) := by
    cases rest with
    | nil => rfl
    | cons c rest =>
        rcases hrest c rfl with rfl | rfl
        · rfl
        · rfl
  have hname : ∀ {name : List Char}, IsName name →
      takeHost true false (name ++ rest) = (name, rest) := by
    intro name hname
    rw [takeHost_append (fun c hc => ?_), hstop, List.append_nil]
    obtain ⟨hchar, -, hcolon, hopen, hclose⟩ := allowed_of_not_forbidden (hname.allowed c hc)
    exact ⟨hchar, fun hc => absurd hc hcolon, hopen, hclose⟩
  cases host with
  | domain name => exact hname h.1
  | ipv4 n => exact hname (isName_writeIpv4 h)
  | ipv6 pieces =>
      -- between brackets a colon does not end the host
      have hinside : takeHost true true (writeIpv6 pieces ++ ']' :: rest) =
          (writeIpv6 pieces ++ [']'], rest) := by
        rw [takeHost_append fun c hc => ?_]
        · have hclose : takeHost true true (']' :: rest) = ([']'], rest) := by
            show (']' :: (takeHost true false rest).1, (takeHost true false rest).2) = _
            rw [hstop]
          rw [hclose]
        · rcases mem_writeIpv6 hc with rfl | hhex
          · exact ⟨⟨by decide, rfl, rfl, by decide⟩, fun _ => rfl, by decide, by decide⟩
          · obtain ⟨hchar, hcolon, hopen, hclose⟩ := isAuthorityChar_of_isHex hhex
            exact ⟨hchar, fun hc => absurd hc hcolon, hopen, hclose⟩
      have hopen : takeHost true false ('[' :: (writeIpv6 pieces ++ ']' :: rest)) =
          ('[' :: (takeHost true true (writeIpv6 pieces ++ ']' :: rest)).1,
            (takeHost true true (writeIpv6 pieces ++ ']' :: rest)).2) := rfl
      rw [hinside] at hopen
      rw [write, List.cons_append, List.append_assoc]
      exact hopen

end Host

end ZoneConsole
