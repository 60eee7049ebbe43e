import ZoneConsole.Proofs.Api.Endpoint
import ZoneConsole.Proofs.Text.Blank
import ZoneConsole.Proofs.Url.Roundtrip

/-!
# The base is a normal form

Whatever text the setting of the base is, the base found from it is a URL in normal form whose
path ends in one slash.  Such a URL is its own setting: its text is read back whole, nothing is
trimmed off it and no slash is added to it.

* **`IsBase`** — the form; `isBase_of_resolveBase`, and `resolveBase_write` for the fixed point.
* **`resolveBase_congr`** — blanks around a setting do not matter.
* **`endpoint_grows`**, **`request_grows`** — what follows the base in the URLs of the service.
* **`resolveBase_normalForm`** — all of it for one setting.
-/

namespace ZoneConsole

open Url

/-! ### The form -/

/-- The URL is in normal form, and its path is made of segments, the last of them not empty, and
    one slash. -/
structure IsBase (u : Url) (dir : List String) : Prop where
  normal : u.IsNormal
  path : u.path = .segments (dir ++ [""])
  last : dir.getLast? ≠ some ""

theorem mem_of_mem_dropEmptyEnd {s : String} {list : List String} (h : s ∈ dropEmptyEnd list) :
    s ∈ list :=
  List.mem_reverse.1 ((List.dropWhile_sublist _).subset (List.mem_reverse.1 h))

/-- A URL in normal form with one slash at the end of its path. -/
theorem isBase_withSlash {v : Url} (h : v.IsNormal) : ∃ dir, IsBase v.withSlash dir := by
  obtain ⟨list, hlist, hsegments, -⟩ := h.path
  have hpath : v.withSlash.path = .segments (dropEmptyEnd list ++ [""]) := by
    rw [withSlash, hlist]
    rfl
  have hnormal : v.withSlash.IsNormal := by
    rw [withSlash, hlist]
    refine h.withSegments (fun s hs => ?_) (List.concat_ne_nil _ _)
    rcases List.mem_append.1 hs with hs | hs
    · exact hsegments s (mem_of_mem_dropEmptyEnd hs)
    · rw [List.mem_singleton.1 hs]
      exact isSegment_empty
  exact ⟨dropEmptyEnd list, hnormal, hpath, getLast?_dropEmptyEnd list⟩

/-- **The base that is found from a setting** has the form. -/
theorem isBase_of_resolveBase {origin u : Url} {setting : String} (ho : origin.IsNormal)
    (h : Client.resolveBase origin setting = .ok u) (hweb : IsWeb u.scheme) :
    ∃ dir, IsBase u dir := by
  obtain ⟨raw, v, rfl, hparse | hjoin⟩ := Client.resolveBase_cases h
  · exact isBase_withSlash (isNormal_parse hparse hweb)
  · exact isBase_withSlash (isNormal_join ho hjoin hweb)

variable {u : Url} {dir : List String}

/-- The path ends in one slash. -/
theorem IsBase.writePath (h : IsBase u dir) :
    ∃ front, writePath u.path = front ++ ['/'] ∧ front.getLast? ≠ some '/' := by
  refine ⟨writeSegments dir, ?_, fun hlast => ?_⟩
  · rw [h.path]
    simp [Url.writePath, writeSegments]
  · -- What stands last stands in the last segment, which is not empty and has no slash.
    obtain ⟨list, hlist, hsegments, -⟩ := h.normal.path
    obtain rfl := UrlPath.segments.inj (h.path.symm.trans hlist)
    rcases List.eq_nil_or_concat' dir with rfl | ⟨init, s, rfl⟩
    · cases hlast
    · have hne : s.toList ≠ [] := by
        intro hnil
        refine h.last ?_
        rw [String.toList_eq_nil_iff.1 hnil, List.getLast?_concat]
      have hs := hsegments s (by simp)
      have hend : writeSegments (init ++ [s]) = (writeSegments init ++ ['/']) ++ s.toList := by
        simp [writeSegments]
      rw [hend, List.getLast?_append_of_ne_nil _ hne] at hlast
      exact absurd (hs.whole '/' (List.mem_of_getLast? hlast)) (by decide)

/-! ### Settings -/

/-- A setting counts without the blanks around it. -/
theorem resolveBase_congr {s t : String} (h : Text.trim s = Text.trim t) (origin : Url) :
    Client.resolveBase origin s = Client.resolveBase origin t := by
  unfold Client.resolveBase
  rw [h]

/-- Nothing is trimmed off the text of a URL. -/
theorem trim_write (h : u.IsNormal) : Text.trim u.write = u.write := by
  obtain ⟨host, hhost, -⟩ := h.host
  obtain ⟨list, hpath, -, hne⟩ := h.path
  have hshown := shown_after h hpath
  have hwritten := writeChars_eq hhost hpath
  have hfull : writeSegments list ++ (writePart '?' u.query ++ writePart '#' u.fragment) ≠ [] := by
    obtain ⟨s, more, rfl⟩ := List.exists_cons_of_ne_nil hne
    exact List.cons_ne_nil _ _
  have hfirst : Text.Stops Text.isBlank u.writeChars := by
    rw [hwritten]
    rcases h.web with hs | hs
    · rw [hs]
      exact Text.stops_cons rfl _
    · rw [hs]
      exact Text.stops_cons rfl _
  -- The text ends in the path, the query or the fragment, which are all shown in ASCII.
  have hlast : Text.Stops Text.isBlank u.writeChars.reverse := by
    intro c hc
    generalize writeSegments list ++ (writePart '?' u.query ++ writePart '#' u.fragment) = after
      at hshown hwritten hfull
    obtain ⟨front, hfront⟩ : ∃ front, u.writeChars = front ++ after :=
      ⟨u.scheme.toList ++ ':' :: '/' :: '/' :: (u.writeUser ++ (host.write ++ writePort u.port)),
        by rw [hwritten]; simp⟩
    rw [hfront, List.head?_reverse, List.getLast?_append_of_ne_nil _ hfull] at hc
    exact Text.isBlank_of_shown (hshown c (List.mem_of_getLast? hc))
  rw [Text.trim, write, String.toList_ofList, Text.trimChars_of_stops hfirst hlast]

/-- The slash at the end is dropped alone, if no other one stands before it. -/
theorem dropEmptyEnd_concat (h : dir.getLast? ≠ some "") : dropEmptyEnd (dir ++ [""]) = dir := by
  have hstop : ∀ l : List String, l.head? ≠ some "" → l.dropWhile (·.isEmpty) = l := by
    intro l hl
    cases l with
    | nil => rfl
    | cons s l =>
        refine List.dropWhile_cons_of_neg fun hs => hl ?_
        rw [String.isEmpty_iff.1 hs]
        rfl
  rw [← List.head?_reverse] at h
  rw [dropEmptyEnd, List.reverse_append, List.reverse_singleton, List.singleton_append,
    List.dropWhile_cons_of_pos (by rfl), hstop _ h, List.reverse_reverse]

/-- A path that ends in one slash gets no other. -/
theorem withSlash_eq_self (h : IsBase u dir) : u.withSlash = u := by
  rw [withSlash, h.path, pathWithSlash, dropEmptyEnd_concat h.last, ← h.path]

/-- **A base is its own setting**, whatever the origin. -/
theorem resolveBase_write (h : IsBase u dir) (origin : Url) :
    Client.resolveBase origin u.write = .ok u := by
  have hfull : u.write.isEmpty = false := by
    rw [Bool.eq_false_iff]
    intro hempty
    have hparse := parse_write h.normal
    rw [String.isEmpty_iff.1 hempty] at hparse
    cases hparse
  unfold Client.resolveBase
  simp only [trim_write h.normal, hfull, Bool.false_eq_true, if_false, parse_write h.normal,
    withSlash_eq_self h]

/-! ### Endpoints -/

/-- Only tabs and line breaks keep the text from naming the directory above. -/
def HidesParent (s : String) : Prop := s ≠ ".." ∧ encodeSegment true s = ".."

/-- What names no directory above is appended below a path, whatever else it is. -/
theorem appendSegments_grows {path : List String} (hne : path ≠ []) (hroot : path ≠ [""])
    {rest : List String} (hrest : ∀ s ∈ rest, ¬ HidesParent s) :
    ∃ more, appendSegments true path rest = path ++ more := by
  induction rest generalizing path with
  | nil => exact ⟨[], (List.append_nil path).symm⟩
  | cons s rest ih =>
      obtain ⟨hs, hrest⟩ := List.forall_mem_cons.1 hrest
      rw [appendSegments_cons]
      split
      · exact ih hne hroot hrest
      · rename_i hdots
        have hparent : encodeSegment true s ≠ ".." := fun h => hs ⟨(not_or.1 hdots).2, h⟩
        have hone : ∃ segment, appendSegment path (encodeSegment true s) = path ++ [segment] := by
          rw [appendSegment_eq, if_neg hparent, dirOf_of_ne hroot]
          split
          · exact ⟨"", rfl⟩
          · exact ⟨_, rfl⟩
        obtain ⟨segment, hsegment⟩ := hone
        have hnext : path ++ [segment] ≠ [""] := concat_ne_root (.inl hne)
        obtain ⟨more, hmore⟩ := ih (List.concat_ne_nil _ _) hnext hrest
        exact ⟨segment :: more, by rw [hsegment, hmore, List.append_assoc]; rfl⟩

/-- **The name of an endpoint follows the base**, if no segment after it hides the directory
    above. -/
theorem endpoint_grows {c : Client} (hb : c.Below dir) {name : String} (hname : IsPlain name)
    (hfull : name ≠ "") {rest : List String} (hrest : ∀ s ∈ rest, ¬ HidesParent s) :
    ∃ more, c.endpoint (name :: rest) =
      .ok { c.base with path := .segments (dir ++ encodeSegment true name :: more) } := by
  have hwritten : encodeSegment true name ≠ "" := by
    intro hempty
    have hback := segmentText_plain true hname
    rw [hempty] at hback
    exact hfull (hback.symm.trans (segmentText_encodeSegment true ""))
  have hroot : dir ++ [encodeSegment true name] ≠ [""] := concat_ne_root (.inr hwritten)
  obtain ⟨more, hmore⟩ := appendSegments_grows (List.concat_ne_nil _ _) hroot hrest
  refine ⟨more, ?_⟩
  rw [Client.endpoint, push?_base hb.path hb.last hname, hb.special, hmore, List.append_assoc]
  rfl

/-- An identity that hides the directory above takes the name of the collection away. -/
theorem appendSegments_hidden (dir : List String) (call : EntityCall) {id : String}
    (hid : HidesParent id) :
    ∃ more, appendSegments true (dir ++ [call.collection]) (id :: call.action.toList) =
        dir ++ more ∧ call.collection ∉ more := by
  have hdots : ¬ (id = "." ∨ id = "..") := by
    rintro (rfl | rfl)
    · exact absurd hid.2 (by decide)
    · exact hid.1 rfl
  have hparent : appendSegment (dir ++ [call.collection]) (encodeSegment true id) =
      dir ++ [""] := by
    rw [appendSegment_eq, if_pos hid.2, EntityCall.dirOf_collection, List.dropLast_concat]
  rw [appendSegments_cons, if_neg hdots, hparent]
  cases haction : call.action with
  | none => exact ⟨[""], rfl, fun hmem => call.collection_plain.2.2 (List.mem_singleton.1 hmem)⟩
  | some a =>
      obtain ⟨hplain, hwritten⟩ := call.action_plain haction
      have hne : call.collection ≠ a := by
        rintro rfl
        cases call <;> simp [EntityCall.action, EntityCall.collection] at haction
      rw [Option.toList_some, appendSegments_plain_cons true _ hplain, hwritten]
      by_cases hdir : dir = []
      · subst hdir
        exact ⟨[a], rfl, fun hmem => hne (List.mem_singleton.1 hmem)⟩
      · refine ⟨["", a], ?_, ?_⟩
        · rw [dirOf_of_ne (concat_ne_root (.inl hdir)), List.append_assoc]
          rfl
        · simp [call.collection_plain.2.2, hne]

/-- **The URL of a call on an entity** goes on with the name of the collection after the base; or
    the identity hides the directory above, and the name is not there. -/
theorem request_grows {c : Client} (hb : c.Below dir) (call : EntityCall) (id : String) :
    ∃ more, (call.request c id).map (·.url) =
        .ok { c.base with path := .segments (dir ++ more) } ∧
      (more.head? = some call.collection ∨ HidesParent id ∧ call.collection ∉ more) := by
  by_cases hid : HidesParent id
  · obtain ⟨more, hmore, habsent⟩ := appendSegments_hidden dir call hid
    refine ⟨more, ?_, .inr ⟨hid, habsent⟩⟩
    rw [EntityCall.request_below hb, hmore]
    rfl
  · obtain ⟨hplain, hwritten, hfull⟩ := call.collection_plain
    have hrest : ∀ s ∈ id :: call.action.toList, ¬ HidesParent s := by
      intro s hs
      rcases List.mem_cons.1 hs with rfl | hs
      · exact hid
      · rintro ⟨hne, hparent⟩
        rw [(call.action_plain (Option.mem_toList.1 hs)).2] at hparent
        exact hne hparent
    obtain ⟨more, hmore⟩ := endpoint_grows hb hplain hfull hrest
    rw [hwritten] at hmore
    refine ⟨call.collection :: more, ?_, .inl rfl⟩
    rw [EntityCall.request_eq, List.cons_append, List.singleton_append, hmore]
    rfl

/-! ### One setting -/

/-- **The base is a normal form.**  A base that is found from a setting is a URL whose path ends in
    exactly one slash; it is found again from its own text, whatever the origin.  Blanks around a
    setting do not matter, and blanks alone stand for the usual base.  And in the URL of every
    endpoint the name of the endpoint follows the base directly, unless it was taken away by
    an identity that hides the directory above. -/
theorem resolveBase_normalForm {text setting : String} {origin u : Url}
    (hparse : Url.parse text = .ok origin)
    (hweb : origin.scheme = "http" ∨ origin.scheme = "https")
    (h : Client.resolveBase origin setting = .ok u)
    (hu : u.scheme = "http" ∨ u.scheme = "https") :
    (∃ front, Url.writePath u.path = front ++ ['/'] ∧ front.getLast? ≠ some '/') ∧
      (∀ other, Client.resolveBase other u.write = .ok u) ∧
      (∀ (s : String) (before after : List Char), (∀ c ∈ before, Text.isBlank c = true) →
        (∀ c ∈ after, Text.isBlank c = true) →
          Client.resolveBase origin (String.ofList (before ++ s.toList ++ after)) =
            Client.resolveBase origin s) ∧
      (∀ s : String, (∀ c ∈ s.toList, Text.isBlank c = true) →
        Client.resolveBase origin s = Client.resolveBase origin defaultApiBase) ∧
      ∃ dir, u.path = .segments (dir ++ [""]) ∧ dir.getLast? ≠ some "" ∧
        ∀ c : Client, c.base = u →
          (∀ name rest, IsPlain name → name ≠ "" → (∀ s ∈ rest, ¬ HidesParent s) →
            ∃ more, c.endpoint (name :: rest) =
              .ok { u with path := .segments (dir ++ encodeSegment true name :: more) }) ∧
          ∀ (call : EntityCall) (id : String), ∃ more,
            (call.request c id).map (·.url) = .ok { u with path := .segments (dir ++ more) } ∧
              (more.head? = some call.collection ∨ HidesParent id ∧ call.collection ∉ more) := by
  obtain ⟨dir, hbase⟩ := isBase_of_resolveBase (isNormal_parse hparse hweb) h hu
  refine ⟨hbase.writePath, resolveBase_write hbase, ?_, ?_, dir, hbase.path, hbase.last, ?_⟩
  · intro s before after hbefore hafter
    refine resolveBase_congr ?_ origin
    rw [Text.trim, String.toList_ofList, Text.trimChars_append hbefore hafter, Text.trim]
  · intro s hs
    have hblank : Text.trim s = "" := by
      rw [Text.trim, Text.trimChars_of_blank hs]
    have hdefault : Text.trim defaultApiBase = defaultApiBase := by decide
    unfold Client.resolveBase
    rw [hblank, hdefault]
    rfl
  · -- requests only ever add segments to those of a base
    rintro c rfl
    have hb : c.Below dir := ⟨hbase.normal.web.special, hbase.path, hbase.last⟩
    exact ⟨fun name rest hname hfull hrest => endpoint_grows hb hname hfull hrest,
      request_grows hb⟩

/-- The base of a tenant behind a console, with an empty segment inside and a query. -/
def slashedBase : Url where
  scheme := "http"
  user := ""
  password := none
  host := some (.domain "console.lan")
  port := some 8080
  path := .segments ["tenants", "", "a", ""]
  query := some "page=1"
  fragment := none

/-- Slashes at the end of a setting are one slash in its base, and the base is its own setting. -/
theorem slashedBase_normalForm :
    Url.parse "http://console.lan:8080" = .ok EntityCall.consoleLan.origin ∧
      (EntityCall.consoleLan.origin.scheme = "http" ∨
        EntityCall.consoleLan.origin.scheme = "https") ∧
      Client.resolveBase EntityCall.consoleLan.origin " /tenants//a///?page=1\n" =
        .ok slashedBase ∧
      (slashedBase.scheme = "http" ∨ slashedBase.scheme = "https") ∧
      ∀ other, Client.resolveBase other "http://console.lan:8080/tenants//a/?page=1" =
        .ok slashedBase := by
  have hparse : Url.parse "http://console.lan:8080" = .ok EntityCall.consoleLan.origin :=
    eq_ok_of_toOption (by decide +kernel)
  have hresolve : Client.resolveBase EntityCall.consoleLan.origin " /tenants//a///?page=1\n" =
      .ok slashedBase := eq_ok_of_toOption (by decide +kernel)
  have hwritten : slashedBase.write = "http://console.lan:8080/tenants//a/?page=1" := by
    decide +kernel
  refine ⟨hparse, .inl rfl, hresolve, .inl rfl, fun other => ?_⟩
  rw [← hwritten]
  exact (resolveBase_normalForm hparse (.inl rfl) hresolve (.inl rfl)).2.1 other

end ZoneConsole
