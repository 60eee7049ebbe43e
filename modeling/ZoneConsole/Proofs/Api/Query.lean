import ZoneConsole.Proofs.Api.Endpoint
import ZoneConsole.Proofs.Url.Form

/-!
# Queries of lists

The options of a list are written into a query, once as a text of their own and once at the end of
the URL that the list is asked from.  Nothing is lost on the way, and the two are the same text.

* **`ListOptions.mem_pairs_iff`**, **`ListOptions.keys_sublist`** — what is sent, and in which
  order.
* **`ListOptions.readForm_query`** — the pairs are read back from the query.
* **`ListOptions.query_eq_iff`** — which options have the same query.
* **`Client.request_list`** — the URL that a list is asked from.
* **`query_lossless`** — all of it together.
-/

namespace ZoneConsole

open Url

namespace ListOptions

/-- The text of a number in a query. -/
def numberText (n : UInt32) : String := String.ofList (Text.decimal n.toNat)

theorem numberText_injective : Function.Injective numberText := by
  intro n m h
  have hvalue := congrArg Text.decimalValue (String.ofList_injective h)
  rw [Text.decimalValue_decimal, Text.decimalValue_decimal] at hvalue
  exact UInt32.toNat_inj.1 hvalue

/-- The options with nothing in them that counts as absent. -/
def normal (o : ListOptions) : ListOptions where
  page := o.page.filter (· ≠ 0)
  pageSize := o.pageSize.filter (· ≠ 0)
  status := o.status.filter (!·.isEmpty)
  type := o.type.filter (!·.isEmpty)
  zoneId := o.zoneId.filter (!·.isEmpty)

/-! ### Pairs -/

section Pairs

variable {key : String} {number : Option UInt32} {text : Option String} {p : String × String}

theorem mem_numberPair_iff : p ∈ numberPair key number ↔
    p.1 = key ∧ ∃ n, number = some n ∧ n ≠ 0 ∧ p.2 = numberText n := by
  obtain ⟨k, v⟩ := p
  cases number with
  | none => simp [numberPair]
  | some n => by_cases hn : n = 0 <;> simp [numberPair, hn, numberText]

theorem mem_textPair_iff : p ∈ textPair key text ↔ p.1 = key ∧ text = some p.2 ∧ p.2 ≠ "" := by
  obtain ⟨k, v⟩ := p
  cases text with
  | none => simp [textPair]
  | some s =>
      by_cases hs : s = ""
      · simp [textPair, hs]
      · simp [textPair, hs]
        grind

theorem keys_numberPair (key : String) (number : Option UInt32) :
    ((numberPair key number).map (·.1)).Sublist [key] := by
  cases number with
  | none => exact List.nil_sublist _
  | some n => by_cases hn : n = 0 <;> simp [numberPair, hn]

theorem keys_textPair (key : String) (text : Option String) :
    ((textPair key text).map (·.1)).Sublist [key] := by
  cases text with
  | none => exact List.nil_sublist _
  | some s => by_cases hs : s.isEmpty <;> simp [textPair, hs]

theorem numberPair_filter (key : String) (number : Option UInt32) :
    numberPair key (number.filter (· ≠ 0)) = numberPair key number := by
  cases number with
  | none => rfl
  | some n => by_cases hn : n = 0 <;> simp [numberPair, Option.filter, hn]

theorem textPair_filter (key : String) (text : Option String) :
    textPair key (text.filter (!·.isEmpty)) = textPair key text := by
  cases text with
  | none => rfl
  | some s => by_cases hs : s.isEmpty <;> simp [textPair, Option.filter, hs]

end Pairs

variable {o o' : ListOptions} {p : String × String}

/-- **What is sent of the options**: each number that is not zero and each text that is not
    empty, under its own key. -/
theorem mem_pairs_iff : p ∈ o.pairs ↔
    (∃ n, p.2 = numberText n ∧ n ≠ 0 ∧
      (p.1 = "page" ∧ o.page = some n ∨ p.1 = "page_size" ∧ o.pageSize = some n)) ∨
    p.2 ≠ "" ∧ (p.1 = "status" ∧ o.status = some p.2 ∨ p.1 = "type" ∧ o.type = some p.2 ∨
      p.1 = "zone_id" ∧ o.zoneId = some p.2) := by
  simp only [pairs, List.mem_append, mem_numberPair_iff, mem_textPair_iff]
  grind

/-- **The order in which it is sent.** -/
theorem keys_sublist (o : ListOptions) :
    (o.pairs.map (·.1)).Sublist ["page", "page_size", "status", "type", "zone_id"] := by
  simp only [pairs, List.map_append]
  exact ((((keys_numberPair "page" _).append (keys_numberPair "page_size" _)).append
    (keys_textPair "status" _)).append (keys_textPair "type" _)).append (keys_textPair "zone_id" _)

theorem pairs_normal (o : ListOptions) : o.normal.pairs = o.pairs := by
  simp only [pairs, normal, numberPair_filter, textPair_filter]

/-- Two values are the same to a filter that every value they differ in fails. -/
theorem filter_eq_filter {α : Type} {x x' : Option α} {keep : α → Bool}
    (h : ∀ a, keep a = true → (x = some a ↔ x' = some a)) : x.filter keep = x'.filter keep := by
  refine Option.ext fun a => ?_
  rw [Option.filter_eq_some_iff, Option.filter_eq_some_iff, and_comm, and_comm (b := keep a = true)]
  exact and_congr_right (h a)

/-- The options are known from what is sent. -/
theorem normal_eq_of_pairs_eq (h : o.pairs = o'.pairs) : o.normal = o'.normal := by
  have hsame (p : String × String) : p ∈ o.pairs ↔ p ∈ o'.pairs := by rw [h]
  simp only [mem_pairs_iff] at hsame
  have hpage : o.normal.page = o'.normal.page := filter_eq_filter fun n hn => by
    simpa [numberText_injective.eq_iff, of_decide_eq_true hn] using hsame ("page", numberText n)
  have hsize : o.normal.pageSize = o'.normal.pageSize := filter_eq_filter fun n hn => by
    simpa [numberText_injective.eq_iff, of_decide_eq_true hn] using
      hsame ("page_size", numberText n)
  have hstatus : o.normal.status = o'.normal.status := filter_eq_filter fun s hs => by
    simpa [by simpa using hs] using hsame ("status", s)
  have htype : o.normal.type = o'.normal.type := filter_eq_filter fun s hs => by
    simpa [by simpa using hs] using hsame ("type", s)
  have hzone : o.normal.zoneId = o'.normal.zoneId := filter_eq_filter fun s hs => by
    simpa [by simpa using hs] using hsame ("zone_id", s)
  calc o.normal = ⟨o.normal.page, o.normal.pageSize, o.normal.status, o.normal.type,
        o.normal.zoneId⟩ := rfl
    _ = o'.normal := by rw [hpage, hsize, hstatus, htype, hzone]

/-! ### Queries -/

/-- **The pairs are read back from the query.** -/
theorem readForm_query (o : ListOptions) : readForm (o.query.toList.drop 1) = o.pairs := by
  unfold query
  split
  · rename_i hnone
    rw [List.isEmpty_iff.1 hnone]
    rfl
  · rw [String.toList_ofList]
    exact readForm_formPairs o.pairs

/-- **Options have one query** exactly if they are the same but for what counts as absent. -/
theorem query_eq_iff : o.query = o'.query ↔ o.normal = o'.normal := by
  constructor
  · intro h
    refine normal_eq_of_pairs_eq ?_
    rw [← readForm_query, ← readForm_query, h]
  · intro h
    have hpairs : o.pairs = o'.pairs := by rw [← pairs_normal o, h, pairs_normal]
    rw [query, query, hpairs]

end ListOptions

/-! ### Requests -/

namespace Url

variable {u : Url} {pairs : List (String × String)}

/-- A query that is added to a URL stands at its end, if no fragment does. -/
theorem writeChars_withQuery (hquery : u.query = none) (hfragment : u.fragment = none)
    (q : String) : { u with query := some q }.writeChars = u.writeChars ++ '?' :: q.toList := by
  show u.scheme.toList ++ ':' :: (u.writeAuthority ++ writePathAfter u.writeAuthority u.path ++
    writePart '?' (some q) ++ writePart '#' u.fragment) = _
  rw [writeChars, hquery, hfragment]
  simp [writePart]

/-- The text of a URL with pairs appended to it. -/
theorem write_appendPairs (hquery : u.query = none) (hfragment : u.fragment = none) :
    (u.appendPairs pairs).write =
      u.write ++ if pairs.isEmpty then "" else String.ofList ('?' :: formPairs pairs) := by
  unfold appendPairs
  split
  · exact String.append_empty.symm
  · simp only [hquery, write, writeChars_withQuery hquery hfragment, String.toList_ofList,
      String.ofList_append]

theorem fragment_appendPairs (u : Url) (pairs : List (String × String)) :
    (u.appendPairs pairs).fragment = u.fragment := by
  unfold appendPairs
  split <;> rfl

theorem withoutFragment_appendPairs (u : Url) (pairs : List (String × String)) :
    (u.appendPairs pairs).withoutFragment = u.withoutFragment.appendPairs pairs := by
  unfold appendPairs
  split <;> rfl

theorem withoutUser_withQuery (u : Url) (q : Option String) :
    { u with query := q }.withoutUser = { u.withoutUser with query := q } := by
  simp only [withoutUser]
  split <;> split <;> rfl

theorem query_withoutUser (u : Url) : u.withoutUser.query = u.query := by
  have h := congrArg Url.query (withoutUser_withQuery u u.query)
  exact h

/-- What is taken out of a URL before it is sent is taken out in front of the query. -/
theorem sent_appendPairs (hquery : u.query = none) (pairs : List (String × String)) :
    (u.appendPairs pairs).withoutUser.withoutFragment =
      u.withoutUser.withoutFragment.appendPairs pairs := by
  have hsent : u.withoutUser.withoutFragment.query = none := (query_withoutUser u).trans hquery
  unfold appendPairs
  split
  · rfl
  · simp only [hquery, hsent]
    rw [withoutUser_withQuery]
    rfl

end Url

namespace Client

variable {c : Client} {url : Url}

/-- An endpoint has the query of the base. -/
theorem query_endpoint {segments : List String} (h : c.endpoint segments = .ok url) :
    url.query = c.base.query := by
  unfold endpoint push? at h
  cases hpath : c.base.path with
  | opaqueText _ =>
      rw [hpath] at h
      cases h
  | segments list =>
      rw [hpath] at h
      cases h
      rfl

/-- **A list is asked from its collection**, with the query of the options at the end. -/
theorem request_list {E : Type} [Resource E] (hbase : c.base.query = none)
    (h : c.endpoint [Resource.collection E] = .ok url) (o : ListOptions) :
    ∃ r, (c.list E o).request = .ok r ∧ r.method = .get ∧ r.body = none ∧
      r.url.fragment = url.fragment ∧
      r.url.withoutFragment.write = url.withoutFragment.write ++ o.query ∧
      r.sent.url.write = url.withoutUser.withoutFragment.write ++ o.query := by
  have hquery : url.query = none := (query_endpoint h).trans hbase
  have hrequest : (c.list E o).request = .ok ⟨.get, url.appendPairs o.pairs, none⟩ := by
    show ((c.endpoint _).map _).map _ = _
    rw [h]
    rfl
  refine ⟨_, hrequest, rfl, rfl, fragment_appendPairs url _, ?_, ?_⟩
  · rw [withoutFragment_appendPairs]
    exact write_appendPairs hquery rfl
  · show (url.appendPairs o.pairs).withoutUser.withoutFragment.write = _
    rw [sent_appendPairs hquery]
    exact write_appendPairs ((query_withoutUser url).trans hquery) rfl

end Client

/-- **Nothing is lost in a query, and it is what is sent.**  The pairs of the options are read
    back from their query.  Their keys stand in the one order, and the pairs are those of the
    values that are there and neither zero nor empty; so options that are the same but for what
    counts as absent, and no others, have one query.  A list of either collection is asked from
    the endpoint of the collection with the query at its end, if the base of the client has no
    query itself; a fragment of the base comes after it and is not sent. -/
theorem query_lossless (o : ListOptions) :
    readForm (o.query.toList.drop 1) = o.pairs ∧
    (o.pairs.map (·.1)).Sublist ["page", "page_size", "status", "type", "zone_id"] ∧
    (∀ key value, (key, value) ∈ o.pairs ↔
      (∃ n, value = ListOptions.numberText n ∧ n ≠ 0 ∧
        (key = "page" ∧ o.page = some n ∨ key = "page_size" ∧ o.pageSize = some n)) ∨
      value ≠ "" ∧ (key = "status" ∧ o.status = some value ∨ key = "type" ∧ o.type = some value ∨
        key = "zone_id" ∧ o.zoneId = some value)) ∧
    (∀ o' : ListOptions, o.query = o'.query ↔ o.normal = o'.normal) ∧
    ∀ (E : Type) [Resource E] (c : Client), c.base.query = none →
      (∀ error, c.endpoint [Resource.collection E] = .error error →
        (c.list E o).request = .error error) ∧
      ∀ url, c.endpoint [Resource.collection E] = .ok url →
        ∃ r, (c.list E o).request = .ok r ∧ r.method = .get ∧ r.body = none ∧
          r.url.fragment = url.fragment ∧
          r.url.withoutFragment.write = url.withoutFragment.write ++ o.query ∧
          r.sent.url.write = url.withoutUser.withoutFragment.write ++ o.query := by
  refine ⟨o.readForm_query, o.keys_sublist, fun key value => ListOptions.mem_pairs_iff,
    fun o' => ListOptions.query_eq_iff, ?_⟩
  intro E _ c hbase
  constructor
  · intro error herror
    show ((c.endpoint _).map _).map _ = _
    rw [herror]
    rfl
  · intro url h
    exact Client.request_list hbase h o

/-- Options with a text that has to be encoded, one that is empty and a number that is zero. -/
def mixedOptions : ListOptions := ⟨some 2, some 0, some "a&b =+%ü", none, some ""⟩

/-- The URL that these options are sent in. -/
theorem query_mixedOptions :
    EntityCall.consoleLan.base.query = none ∧
    mixedOptions.query = "?page=2&status=a%26b+%3D%2B%25%C3%BC" ∧
    readForm (mixedOptions.query.toList.drop 1) = [("page", "2"), ("status", "a&b =+%ü")] ∧
    ∃ url r, EntityCall.consoleLan.endpoint ["zones"] = .ok url ∧
      (EntityCall.consoleLan.list Zone mixedOptions).request = .ok r ∧
      r.sent.url.write = url.withoutUser.withoutFragment.write ++ mixedOptions.query := by
  obtain ⟨hback, -, -, -, hlist⟩ := query_lossless mixedOptions
  have hbase : EntityCall.consoleLan.base.query = none := rfl
  have hurl : EntityCall.consoleLan.endpoint ["zones"] =
      .ok { EntityCall.consoleLan.base with path := .segments ["api", "v1", "zones"] } := rfl
  obtain ⟨r, hr, -, -, -, -, hsent⟩ := (hlist Zone EntityCall.consoleLan hbase).2 _ hurl
  exact ⟨hbase, by decide +kernel, hback.trans (by decide +kernel), _, r, hurl, hr, hsent⟩

end ZoneConsole
