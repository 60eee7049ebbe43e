import ZoneConsole.Api.Client
import ZoneConsole.Proofs.Url.Append
import ZoneConsole.Proofs.Url.Shape

/-!
# Calls that address one entity

The URL of a call on an entity is the base, the name of the collection, the identity and
the name of the action.  It does what it says for the identities that are plain, and for
no others: `.` and `..` are left out, so that the call meets the collection instead, and a
tab or a line break is dropped, so that the call meets another entity.

* **`Client.base_of_make`** — the base of a client is a list of segments and one slash.
* **`EntityCall.request_plain`** — the request of a call with a plain identity.
* **`EntityCall.not_addresses`** — with any other identity the request goes elsewhere.
* **`addresses_iff_plain`** — the two together, and which calls share a URL.
-/

namespace ZoneConsole

open Url

/-! ### Bases -/

/-- The base is an absolute URL, or one resolved against the origin, made to end in a slash. -/
theorem Client.resolveBase_cases {origin u : Url} {setting : String}
    (h : Client.resolveBase origin setting = .ok u) :
    ∃ (raw : String) (v : Url),
      u = v.withSlash ∧ (Url.parse raw = .ok v ∨ origin.join raw = .ok v) := by
  unfold Client.resolveBase at h
  extract_lets trimmed raw at h
  clear_value raw
  split at h
  · rename_i v hparse
    cases h
    exact ⟨raw, v, rfl, .inl hparse⟩
  · obtain ⟨v, hjoin, rfl⟩ := exists_of_map_ok h
    exact ⟨raw, v, rfl, .inr hjoin⟩
  · cases h

/-- The base is a hierarchical URL made to end in a slash. -/
theorem Client.resolveBase_eq {origin u : Url} {setting : String} (ho : origin.Hierarchical)
    (h : Client.resolveBase origin setting = .ok u) :
    ∃ v : Url, u = v.withSlash ∧ v.Hierarchical := by
  obtain ⟨raw, v, hslash, hparse | hjoin⟩ := Client.resolveBase_cases h
  · exact ⟨v, hslash, parse_hierarchical hparse⟩
  · exact ⟨v, hslash, join_hierarchical ho hjoin⟩

/-- The base is of a special scheme, and its path is a list of segments, the last of them
    not empty, and one slash. -/
structure Client.Below (c : Client) (dir : List String) : Prop where
  special : isSpecial c.base.scheme = true
  path : c.base.path = .segments (dir ++ [""])
  last : dir.getLast? ≠ some ""

/-- **The base of a client** of a special scheme has such a path. -/
theorem Client.base_of_make {origin setting : String} {c : Client}
    (h : Client.make origin setting = .ok c) (hs : isSpecial c.base.scheme = true) :
    ∃ dir, c.Below dir := by
  unfold Client.make at h
  split at h
  · cases h
  · rename_i o ho
    split at h
    · cases h
    · rename_i u hu
      cases h
      obtain ⟨v, rfl, hv⟩ := Client.resolveBase_eq (parse_hierarchical ho) hu
      obtain ⟨list, hlist⟩ := hv hs
      refine ⟨dropEmptyEnd list, hs, ?_, getLast?_dropEmptyEnd list⟩
      show pathWithSlash v.path = _
      rw [hlist]
      rfl

/-! ### Calls -/

/-- The calls that address one entity by its identity. -/
inductive EntityCall
  | getZone
  | updateZone (patch : ZonePatch)
  | deleteZone
  | connectZone
  | disconnectZone
  | getQube
  | updateQube (patch : QubePatch)
  | deleteQube
  | startQube
  | stopQube

namespace EntityCall

/-- The request of a call. -/
def request (call : EntityCall) (c : Client) (id : String) : Except ApiError Request :=
  match call with
  | getZone => (c.get Zone id).request
  | updateZone patch => (c.update Zone id patch).request
  | deleteZone => (c.delete Zone id).request
  | connectZone => (c.transition Zone id "connect").request
  | disconnectZone => (c.transition Zone id "disconnect").request
  | getQube => (c.get Qube id).request
  | updateQube patch => (c.update Qube id patch).request
  | deleteQube => (c.delete Qube id).request
  | startQube => (c.transition Qube id "start").request
  | stopQube => (c.transition Qube id "stop").request

/-- The collection that the entity is in. -/
def collection : EntityCall → String
  | getZone | updateZone _ | deleteZone | connectZone | disconnectZone => "zones"
  | getQube | updateQube _ | deleteQube | startQube | stopQube => "qubes"

/-- The action that the call asks for, if it asks for one. -/
def action : EntityCall → Option String
  | connectZone => some "connect"
  | disconnectZone => some "disconnect"
  | startQube => some "start"
  | stopQube => some "stop"
  | _ => none

/-- The method of a call and its body. -/
def message : EntityCall → Method × Option String
  | getZone | getQube => (.get, none)
  | updateZone patch => (.put, some (Json.encode (Resource.patchCodec (E := Zone)) patch))
  | updateQube patch => (.put, some (Json.encode (Resource.patchCodec (E := Qube)) patch))
  | deleteZone | deleteQube => (.delete, none)
  | connectZone | disconnectZone | startQube | stopQube => (.post, none)

/-- The call reaches the entity: its URL is the base of the client with the name of the
    collection, one segment that stands for the identity, and the action if there is one. -/
def Addresses (call : EntityCall) (c : Client) (id : String) : Prop :=
  ∃ dir segment r, c.base.path = .segments (dir ++ [""]) ∧ call.request c id = .ok r ∧
    segmentText segment = id ∧
    r.url = { c.base with
      path := .segments (dir ++ [call.collection, segment] ++ call.action.toList) }

/-- Every call is sent to an endpoint below the base. -/
theorem request_eq (call : EntityCall) (c : Client) (id : String) :
    call.request c id = (c.endpoint ([call.collection, id] ++ call.action.toList)).map
      fun url => ⟨call.message.1, url, call.message.2⟩ := by
  cases call <;> rfl

/-- The name of a collection is plain and written as it is. -/
theorem collection_plain (call : EntityCall) :
    IsPlain call.collection ∧ encodeSegment true call.collection = call.collection ∧
      call.collection ≠ "" := by
  have hcases : call.collection = "zones" ∨ call.collection = "qubes" := by
    cases call <;> first | exact .inl rfl | exact .inr rfl
  rcases hcases with h | h
  · rw [h]
    decide
  · rw [h]
    decide

/-- The name of an action is plain and written as it is. -/
theorem action_plain (call : EntityCall) {a : String} (h : call.action = some a) :
    IsPlain a ∧ encodeSegment true a = a := by
  cases call <;> cases h <;> decide

/-! ### Where the requests go -/

variable {c : Client} {dir : List String}

/-- The URL of the collection is the base with its name. -/
theorem endpoint_collection (hb : c.Below dir) (call : EntityCall) :
    c.endpoint [call.collection] =
      .ok { c.base with path := .segments (dir ++ [call.collection]) } := by
  obtain ⟨hplain, hwritten, -⟩ := call.collection_plain
  rw [Client.endpoint, push?_base hb.path hb.last hplain, hb.special, hwritten]
  rfl

/-- The request of a call, with the identity appended below the collection. -/
theorem request_below (hb : c.Below dir) (call : EntityCall) (id : String) :
    call.request c id = .ok ⟨call.message.1, { c.base with
      path := .segments
        (appendSegments true (dir ++ [call.collection]) (id :: call.action.toList)) },
      call.message.2⟩ := by
  obtain ⟨hplain, hwritten, -⟩ := call.collection_plain
  rw [request_eq, Client.endpoint, List.cons_append, push?_base hb.path hb.last hplain,
    hb.special, hwritten]
  rfl

/-- The path of a collection has room below it. -/
theorem dirOf_collection (dir : List String) (call : EntityCall) :
    dirOf (dir ++ [call.collection]) = dir ++ [call.collection] :=
  dirOf_of_ne (concat_ne_root (.inr call.collection_plain.2.2))

/-- The action is added below an identity. -/
theorem appendSegments_action (call : EntityCall) (dir : List String) (segment : String) :
    appendSegments true (dir ++ [call.collection] ++ [segment]) call.action.toList =
      dir ++ [call.collection, segment] ++ call.action.toList := by
  have hplain : ∀ a ∈ call.action.toList, IsPlain a ∧ encodeSegment true a = a :=
    fun a ha => call.action_plain (Option.mem_toList.1 ha)
  have hroot : dir ++ [call.collection] ++ [segment] ≠ [""] :=
    concat_ne_root (.inl (List.concat_ne_nil _ _))
  rw [appendSegments_plain true (List.concat_ne_nil _ _) hroot fun a ha => (hplain a ha).1,
    List.map_congr_left fun a ha => (hplain a ha).2, List.map_id', List.append_assoc dir]
  rfl

/-- **The request of a call with a plain identity.** -/
theorem request_plain (hb : c.Below dir) (call : EntityCall) {id : String} (hid : IsPlain id) :
    call.request c id = .ok ⟨call.message.1, { c.base with
      path := .segments
        (dir ++ [call.collection, encodeSegment true id] ++ call.action.toList) },
      call.message.2⟩ := by
  rw [request_below hb, appendSegments_plain_cons true _ hid, dirOf_collection,
    appendSegments_action]

/-- A plain identity is reached. -/
theorem addresses_plain (hb : c.Below dir) (call : EntityCall) {id : String} (hid : IsPlain id) :
    call.Addresses c id :=
  ⟨dir, _, _, hb.path, request_plain hb call hid, segmentText_plain true hid, rfl⟩

/-- **With any other identity the request goes elsewhere.** -/
theorem not_addresses (hb : c.Below dir) (call : EntityCall) {id : String} (hid : ¬ IsPlain id) :
    ¬ call.Addresses c id := by
  rintro ⟨dir', segment, r, hpath, hr, hsegment, hurl⟩
  obtain rfl : dir' = dir := by
    rw [hb.path] at hpath
    exact (List.append_cancel_right (UrlPath.segments.inj hpath)).symm
  rw [request_below hb] at hr
  obtain rfl := Except.ok.inj hr
  have hpaths := UrlPath.segments.inj (congrArg Url.path hurl)
  rw [appendSegments_cons] at hpaths
  -- a segment is missing unless the identity, or what remains of it, is added as one
  have hshort : ∀ path : List String, path.length ≤ dir'.length + 1 →
      appendSegments true path call.action.toList ≠
        dir' ++ [call.collection, segment] ++ call.action.toList := by
    intro path hlen heq
    have hle := length_appendSegments_le true path call.action.toList
    rw [heq] at hle
    simp only [List.length_append, List.length_cons, List.length_nil] at hle
    omega
  split at hpaths
  · exact hshort _ (by simp) hpaths
  · rename_i hdots
    have hdrop : ¬ ∀ c ∈ id.toList, isDropped c = false := by
      intro h
      exact hid ⟨h, not_or.1 hdots⟩
    have hcases := appendSegment_dropped true (dir' ++ [call.collection]) hdrop
    rw [dirOf_collection] at hcases
    rcases hcases with h | ⟨other, hne, h⟩
    · rw [h] at hpaths
      exact hshort _ (by simp) hpaths
    · rw [h, appendSegments_action] at hpaths
      have hother : other = segment := by simpa using hpaths
      rw [hother] at hne
      exact hne hsegment

/-- An identity that is not plain shares all its URLs with another one. -/
theorem exists_other (hb : c.Below dir) {id : String} (hid : ¬ IsPlain id) :
    ∃ other, other ≠ id ∧ ∀ call : EntityCall, call.request c other = call.request c id := by
  have hcongr : ∀ other, ((other = "." ∨ other = "..") ↔ (id = "." ∨ id = "..")) →
      (¬ (id = "." ∨ id = "..") → encodeSegment true other = encodeSegment true id) →
      ∀ call : EntityCall, call.request c other = call.request c id := by
    intro other hdots hencode call
    rw [request_below hb, request_below hb, appendSegments_cons, appendSegments_cons]
    by_cases h : id = "." ∨ id = ".."
    · rw [if_pos h, if_pos (hdots.2 h)]
    · rw [if_neg h, if_neg (mt hdots.1 h), hencode h]
  by_cases hdots : id = "." ∨ id = ".."
  · rcases hdots with rfl | rfl
    · exact ⟨"..", by decide, hcongr _ (by decide) fun h => absurd (.inl rfl) h⟩
    · exact ⟨".", by decide, hcongr _ (by decide) fun h => absurd (.inr rfl) h⟩
  · -- one more tab is dropped as well
    have htab : '\t' ∈ (String.ofList (id.toList ++ ['\t'])).toList := by
      rw [String.toList_ofList]
      exact List.mem_append_right _ (List.mem_singleton_self _)
    have hne : ∀ s : String, '\t' ∉ s.toList → String.ofList (id.toList ++ ['\t']) ≠ s := by
      rintro s hs rfl
      exact hs htab
    have hlonger : String.ofList (id.toList ++ ['\t']) ≠ id := by
      intro heq
      have hlen := congrArg (·.toList.length) heq
      rw [String.toList_ofList, List.length_append] at hlen
      exact absurd hlen (by simp)
    have hother : ¬ (String.ofList (id.toList ++ ['\t']) = "." ∨
        String.ofList (id.toList ++ ['\t']) = "..") :=
      not_or.2 ⟨hne "." (by decide), hne ".." (by decide)⟩
    refine ⟨_, hlonger, hcongr _ (iff_of_false hother hdots) fun _ => ?_⟩
    rw [encodeSegment, encodeSegment, String.toList_ofList, List.filter_append]
    simp [isDropped]

/-- Plain identities with one URL are one identity, in one collection, for one action. -/
theorem eq_of_url_eq (hb : c.Below dir) {call call' : EntityCall} {id id' : String}
    {r r' : Request} (hid : IsPlain id) (hid' : IsPlain id') (hr : call.request c id = .ok r)
    (hr' : call'.request c id' = .ok r') (hurl : r.url = r'.url) :
    id = id' ∧ call.collection = call'.collection ∧ call.action = call'.action := by
  rw [request_plain hb call hid] at hr
  rw [request_plain hb call' hid'] at hr'
  obtain rfl := Except.ok.inj hr
  obtain rfl := Except.ok.inj hr'
  have hpaths := UrlPath.segments.inj (congrArg Url.path hurl)
  rw [List.append_assoc, List.append_assoc] at hpaths
  have hends := List.append_cancel_left hpaths
  obtain ⟨hcollection, hrest⟩ := List.cons.inj hends
  obtain ⟨hsegment, haction⟩ := List.cons.inj hrest
  have hheads : call.action.toList.head? = call'.action.toList.head? :=
    congrArg List.head? haction
  rw [Option.head?_toList, Option.head?_toList] at hheads
  exact ⟨encodeSegment_injective true hid hid' hsegment, hcollection, hheads⟩

/-- A plain identity does not meet a collection. -/
theorem url_ne_collection (hb : c.Below dir) {call other : EntityCall} {id : String}
    {r : Request} {url : Url} (hid : IsPlain id) (hr : call.request c id = .ok r)
    (hcollection : c.endpoint [other.collection] = .ok url) : r.url ≠ url := by
  rw [request_plain hb call hid] at hr
  rw [endpoint_collection hb] at hcollection
  obtain rfl := Except.ok.inj hr
  obtain rfl := Except.ok.inj hcollection
  intro hurl
  have hlen := congrArg List.length (UrlPath.segments.inj (congrArg Url.path hurl))
  simp only [List.length_append, List.length_cons, List.length_nil] at hlen
  omega

/-- **A call on an entity reaches it exactly if its identity is plain**, whatever the base of
    the client.  Among plain identities the URL tells identity, collection and action, and
    none of them meets a collection; and an identity that is not plain has the URLs of
    another one. -/
theorem addresses_iff_plain {origin setting : String} {c : Client}
    (hc : Client.make origin setting = .ok c)
    (hs : c.base.scheme = "http" ∨ c.base.scheme = "https") :
    (∀ (call : EntityCall) (id : String), call.Addresses c id ↔ IsPlain id) ∧
      (∀ (call call' : EntityCall) (id id' : String) (r r' : Request),
        IsPlain id → IsPlain id' → call.request c id = .ok r → call'.request c id' = .ok r' →
          r.url = r'.url →
            id = id' ∧ call.collection = call'.collection ∧ call.action = call'.action) ∧
      (∀ (call other : EntityCall) (id : String) (r : Request) (url : Url),
        IsPlain id → call.request c id = .ok r → c.endpoint [other.collection] = .ok url →
          r.url ≠ url) ∧
      ∀ id, ¬ IsPlain id →
        ∃ other, other ≠ id ∧ ∀ call : EntityCall, call.request c other = call.request c id := by
  have hspecial : isSpecial c.base.scheme = true := by
    rcases hs with h | h
    · rw [h]
      rfl
    · rw [h]
      rfl
  obtain ⟨dir, hb⟩ := Client.base_of_make hc hspecial
  refine ⟨fun call id => ⟨fun h => ?_, addresses_plain hb call⟩, ?_, ?_, ?_⟩
  · refine Decidable.byContradiction fun hid => ?_
    exact not_addresses hb call hid h
  · intro call call' id id' r r' hid hid' hr hr'
    exact eq_of_url_eq hb hid hid' hr hr'
  · intro call other id r url hid hr hcollection
    exact url_ne_collection hb hid hr hcollection
  · intro id hid
    exact exists_other hb hid

/-- A client of a console in a local network, with the usual base. -/
def consoleLan : Client where
  origin := ⟨"http", "", none, some (.domain "console.lan"), some 8080, .segments [""], none, none⟩
  base := ⟨"http", "", none, some (.domain "console.lan"), some 8080,
    .segments ["api", "v1", ""], none, none⟩

theorem make_consoleLan : Client.make "http://console.lan:8080" "" = .ok consoleLan :=
  eq_ok_of_toOption (by decide +kernel)

/-- An identity with a slash, a percent sign and a space is reached. -/
theorem addresses_slash : Client.make "http://console.lan:8080" "" = .ok consoleLan ∧
    (consoleLan.base.scheme = "http" ∨ consoleLan.base.scheme = "https") ∧
    startQube.Addresses consoleLan "a/b %2e" :=
  ⟨make_consoleLan, .inl rfl,
    ((addresses_iff_plain make_consoleLan (.inl rfl)).1 startQube "a/b %2e").2 (by decide)⟩

/-- With a tab in the identity the request meets another entity, and with a dot for the
    identity the request to delete it meets the collection. -/
theorem tab_and_dot_elsewhere : Client.make "http://console.lan:8080" "" = .ok consoleLan ∧
    (consoleLan.base.scheme = "http" ∨ consoleLan.base.scheme = "https") ∧
    ¬ getZone.Addresses consoleLan "a\tb" ∧
    getZone.request consoleLan "a\tb" = getZone.request consoleLan "ab" ∧
    ∃ url, (deleteZone.request consoleLan ".").map (·.url) = .ok url ∧
      consoleLan.endpoint ["zones"] = .ok url := by
  have hb : consoleLan.Below ["api", "v1"] := ⟨by decide, rfl, by decide⟩
  exact ⟨make_consoleLan, .inl rfl, not_addresses hb getZone (by decide), rfl, _, rfl, rfl⟩

end EntityCall

end ZoneConsole
