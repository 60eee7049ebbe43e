import ZoneConsole.Api.Error
import ZoneConsole.Proofs.Codec.Members
import ZoneConsole.Proofs.Json.Tree

/-!
# What a rejection shows

Whatever came with a rejecting status, the error has a message and a code to show.  What a body of
the documented shape says about single fields is in the error as well, and nothing else is.

* **`ApiError.ofBody_shown`** — every status and every body give a message and a code.
* **`Rejection.Written`**, **`Rejection.Documented`** — a text is an object with some members, and
  these are of the documented shape.
* **`Rejection.read_documented`** — what such a body says.
* **`Rejection.showsDetails_ofBody`** — the details of its error, member by member.
-/

namespace ZoneConsole

/-! ### Something to show -/

theorem getD_filter_ne_empty (s : Option String) {d : String} (hd : d ≠ "") :
    (s.filter (!·.isEmpty)).getD d ≠ "" := by
  cases hs : s.filter (!·.isEmpty) with
  | none => exact hd
  | some t =>
      obtain ⟨-, ht⟩ := Option.filter_eq_some_iff.1 hs
      simpa using ht

theorem reasonPhrase_ne_empty (status : Nat) : reasonPhrase status ≠ "" := by
  have hphrase : ∀ phrase, reasonPhrase? status = some phrase → phrase ≠ "" := by
    intro phrase h
    unfold reasonPhrase? at h
    split at h <;> cases h <;> decide
  unfold reasonPhrase
  cases h : reasonPhrase? status with
  | some phrase => exact hphrase phrase h
  | none =>
      intro hempty
      exact Text.decimal_ne_nil status (String.ofList_injective hempty)

/-- **Every rejection has a message and a code**, whatever its status and its body. -/
theorem ApiError.ofBody_shown (status : Nat) (body : String) :
    ∃ code message details, ofBody status body = .rejected status code message details ∧
      code ≠ "" ∧ message ≠ "" :=
  ⟨_, _, _, rfl, getD_filter_ne_empty _ (by decide),
    getD_filter_ne_empty _ (reasonPhrase_ne_empty status)⟩

/-! ### Bodies of the documented shape -/

namespace Rejection

/-- The text is an object with these members, in the order of the text. -/
def Written (body : String) (members : List (String × Reading)) : Prop :=
  ∃ left, Json.read body.toList = (.map (Reading.named members) .closed, some left) ∧
    Json.skipSpaces left = []

/-- The compact text of an object is one with its members. -/
theorem written_compact {members : List (String × Data)} (h : (Data.map members).Plain) :
    Written (String.ofList (Json.compact (.map members)))
      (members.map fun (n, d) => (n, Reading.ofData d)) := by
  refine ⟨[], ?_, rfl⟩
  rw [String.toList_ofList, Json.read_compact h, Reading.ofData, Reading.ofMembers_eq_named]

/-- The names of the documented members. -/
def documented : List String := ["error", "message", "code", "details"]

/-- The members are of the documented shape: none of the documented ones comes twice, the two
    texts are texts or null, and the two loosely typed ones are trees. -/
structure Documented (members : List (String × Reading)) : Prop where
  once : ((members.map (·.1)).filter (· ∈ documented)).Nodup
  text : ∀ m ∈ members, m.1 = "error" ∨ m.1 = "message" → m.2 = .null ∨ ∃ s, m.2 = .str s
  tree : ∀ m ∈ members, m.1 = "code" ∨ m.1 = "details" → ∃ d, m.2.tree 126 = .ok d
  other : ∀ m ∈ members, m.1 ∉ documented → m.2.passOver = none

/-- The text that a reading is, if it is one. -/
def textOf : Reading → Option String
  | .str s => some s
  | _ => none

/-- The tree of a reading other than null, if it has one. -/
def treeOf : Reading → Option Data
  | .null => none
  | r => (r.tree 126).toOption

theorem treeOf_of_tree {r : Reading} {d : Data} (hr : r ≠ .null) (h : r.tree 126 = .ok d) :
    treeOf r = some d := by
  rw [treeOf, h]
  · rfl
  · exact hr

/-- What the members say. -/
def ofMembers (members : List (String × Reading)) : Rejection where
  error := (lookup? "error" members).bind textOf
  message := (lookup? "message" members).bind textOf
  code := (lookup? "code" members).bind treeOf
  details := (lookup? "details" members).bind treeOf

variable {members : List (String × Reading)} {r : Reading} {body : String}

theorem decode_text (h : r = .null ∨ ∃ s, r = .str s) :
    Codec.text.optional.decode r = .ok (textOf r) := by
  rcases h with rfl | ⟨s, rfl⟩
  · rfl
  · rfl

theorem decode_tree (h : ∃ d, r.tree 126 = .ok d) :
    (Codec.anything 126).optional.decode r = .ok (treeOf r) := by
  obtain ⟨d, hd⟩ := h
  cases r with
  | null => rfl
  | flawed opening asked passedOver => cases hd
  | bool _ | num _ | str _ | seq _ _ | map _ _ =>
      simp only [Codec.optional, Codec.anything, treeOf, hd]
      rfl

/-! The documented members are known, and no others. -/

theorem known?_text {name : String} (h : name = "error" ∨ name = "message") :
    fields.known? name =
      some (name, fun r => (Codec.text.optional.decode r).map fun _ => ()) := by
  rcases h with rfl | rfl <;> rfl

theorem known?_tree {name : String} (h : name = "code" ∨ name = "details") :
    fields.known? name =
      some (name, fun r => ((Codec.anything 126).optional.decode r).map fun _ => ()) := by
  rcases h with rfl | rfl <;> rfl

theorem known?_other {name : String} (h : name ∉ documented) : fields.known? name = none := by
  simp only [documented, List.mem_cons, List.not_mem_nil, or_false, not_or] at h
  obtain ⟨herror, hmessage, hcode, hdetails⟩ := h
  simp [fields, Record.known?, Ne.symm herror, Ne.symm hmessage, Ne.symm hcode, Ne.symm hdetails]

theorem mem_documented {name : String} : name ∈ documented ↔
    (name = "error" ∨ name = "message") ∨ name = "code" ∨ name = "details" := by
  simp [documented, or_assoc]

theorem owners_eq (members : List (String × Reading)) :
    fields.owners members = (members.map (·.1)).filter (· ∈ documented) := by
  have howner (name : String) : (fields.known? name).map (·.1) =
      if name ∈ documented then some name else none := by
    by_cases hname : name ∈ documented
    · rw [if_pos hname]
      rcases mem_documented.1 hname with h | h
      · rw [known?_text h]
        rfl
      · rw [known?_tree h]
        rfl
    · rw [if_neg hname, known?_other hname]
      rfl
  induction members with
  | nil => rfl
  | cons m rest ih =>
      rw [Record.owners] at ih ⊢
      rw [List.filterMap_cons, howner, List.map_cons, ih]
      by_cases hname : m.1 ∈ documented <;> simp [hname]

theorem passes_of_documented (h : Documented members) : ∀ m ∈ members, fields.Passes m := by
  intro m hm
  unfold Record.Passes
  by_cases hname : m.1 ∈ documented
  · rcases mem_documented.1 hname with htext | htree
    · rw [known?_text htext]
      show (Codec.text.optional.decode m.2).map _ = _
      rw [decode_text (h.text m hm htext)]
      rfl
    · rw [known?_tree htree]
      show ((Codec.anything 126).optional.decode m.2).map _ = _
      rw [decode_tree (h.tree m hm htree)]
      rfl
  · rw [known?_other hname]
    exact h.other m hm hname

/-- Members of the documented shape are built into what they say. -/
theorem build_documented (h : Documented members) :
    fields.build (Reading.named members) = .ok (ofMembers members) := by
  have htext (name : String) (hname : name = "error" ∨ name = "message") (r : Reading)
      (hr : lookup? name members = some r) : Codec.text.optional.decode r = .ok (textOf r) :=
    decode_text (h.text _ (mem_of_lookup? hr) hname)
  have htree (name : String) (hname : name = "code" ∨ name = "details") (r : Reading)
      (hr : lookup? name members = some r) :
      (Codec.anything 126).optional.decode r = .ok (treeOf r) :=
    decode_tree (h.tree _ (mem_of_lookup? hr) hname)
  have hnone : (Record.done mk : Record Rejection _).build (Reading.named members) = .ok mk := rfl
  have herror := Record.build_omittable error hnone (htext "error" (.inl rfl))
  have hmessage := Record.build_omittable message herror (htext "message" (.inr rfl))
  have hcode := Record.build_omittable code hmessage (htree "code" (.inl rfl))
  exact Record.build_omittable details hcode (htree "details" (.inr rfl))

/-- **What a body of the documented shape says.** -/
theorem read_documented (hwritten : Written body members) (h : Documented members) :
    read body = ofMembers members := by
  obtain ⟨left, hread, hleft⟩ := hwritten
  have hchecked : fields.checkMembers .closed [] (Reading.named members) = .ok () := by
    refine (Record.checkMembers_named_iff rfl members []).2 ⟨passes_of_documented h, ?_,
      fun _ _ => List.not_mem_nil⟩
    rw [owners_eq]
    exact h.once
  have hdecode : codec.decode (.map (Reading.named members) .closed) = .ok (ofMembers members) := by
    simp only [codec, Record.codec, Record.decode, hchecked]
    exact build_documented h
  rw [read, Json.decode, hread]
  simp only [hdecode, Option.map_some, hleft]

/-- A documented member is found under its name. -/
theorem Documented.lookup? (h : Documented members) {name : String} (hname : name ∈ documented)
    (hmem : (name, r) ∈ members) : ZoneConsole.lookup? name members = some r := by
  have hkeep : decide (name ∈ documented) = true := decide_eq_true hname
  rw [← lookup?_filter (· ∈ documented) hkeep members]
  refine lookup?_of_mem ?_ (List.mem_filter.2 ⟨hmem, hkeep⟩)
  have honce := h.once
  rwa [List.filter_map] at honce

/-! ### Details -/

/-- What a member of the details is shown as: a text as it stands, anything else in compact
    JSON. -/
def ShownAs (r : Reading) (text : String) : Prop :=
  r = .str text ∨
    (∀ s, r ≠ .str s) ∧ ∃ d, r.tree 125 = .ok d ∧ text = String.ofList (Json.compact d)

theorem shownAs_memberText {d : Data} (h : r.tree 125 = .ok d) : ShownAs r (memberText d) := by
  by_cases htext : ∃ s, r = .str s
  · obtain ⟨s, rfl⟩ := htext
    obtain rfl := Except.ok.inj h
    exact .inl rfl
  · have hnot : ∀ s, r ≠ .str s := fun s hs => htext ⟨s, hs⟩
    refine .inr ⟨hnot, d, h, ?_⟩
    cases d with
    | str s => exact absurd (Reading.eq_str_of_tree h) (hnot s)
    | null | bool _ | num _ | seq _ | map _ => rfl

/-- Details with the names of some members, in which the last member of each name is shown. -/
structure Describes (inner : List (String × Reading)) (details : List (String × String)) :
    Prop where
  sorted : SortedByName details
  names : ∀ name, name ∈ details.map (·.1) ↔ name ∈ inner.map (·.1)
  shown : ∀ name text, (name, text) ∈ details →
    ∃ r, ZoneConsole.lookup? name inner.reverse = some r ∧ ShownAs r text

/-- **The members of an object** are described by their trees. -/
theorem describes_trees {inner : List (String × Reading)} {ds : List (String × Data)}
    (h : List.Forall₂ (fun m d => m.1 = d.1 ∧ m.2.tree 125 = .ok d.2) inner ds) :
    Describes inner ((sortMembers ds).map fun (n, d) => (n, memberText d)) where
  sorted := List.pairwise_map.2 (sortedByName_sortMembers ds)
  names name := by
    rw [List.map_map, ← names_trees h]
    exact mem_names_sortMembers
  shown name text hmem := by
    obtain ⟨⟨n, d⟩, hd, heq⟩ := List.mem_map.1 hmem
    obtain ⟨rfl, rfl⟩ := Prod.mk.inj heq
    have hfound := (mem_iff_lookup? (sortedByName_sortMembers ds)).1 hd
    rw [lookup?_sortMembers, lookup?_trees (List.forall₂_reverse_iff.2 h)] at hfound
    obtain ⟨r, hr, htree⟩ := hfound
    exact ⟨r, hr, shownAs_memberText htree⟩

/-- What is shown of the details that members of the documented shape have: those of the object
    that their `details` member is, and nothing if it is not one. -/
structure ShowsDetails (members : List (String × Reading))
    (shown : Option (List (String × String))) : Prop where
  object : ∀ readings stop, ("details", .map readings stop) ∈ members →
    ∃ inner details, readings = Reading.named inner ∧ shown = some details ∧
      Describes inner details
  other : (∀ readings stop, ("details", .map readings stop) ∉ members) → shown = none

/-- The error of a body of the documented shape has the details of what its members say. -/
theorem details?_ofBody (status : Nat) (hwritten : Written body members) (h : Documented members) :
    (ApiError.ofBody status body).details? =
      match (ZoneConsole.lookup? "details" members).bind treeOf with
      | some (.map ms) => some (ms.map fun (n, d) => (n, memberText d))
      | _ => none := by
  rw [ApiError.ofBody, read_documented hwritten h]
  rfl

/-- **The details of a rejection** with a body of the documented shape. -/
theorem showsDetails_ofBody (status : Nat) (hwritten : Written body members)
    (h : Documented members) : ShowsDetails members (ApiError.ofBody status body).details? := by
  rw [details?_ofBody status hwritten h]
  refine ⟨fun readings stop hmem => ?_, fun hnone => ?_⟩
  · obtain ⟨d, hd⟩ := h.tree _ hmem (.inr rfl)
    obtain ⟨ds, hds, rfl⟩ := Reading.exists_of_tree_map hd
    obtain ⟨inner, rfl, hinner⟩ := Reading.exists_of_treeMembers hds
    refine ⟨inner, _, rfl, ?_, describes_trees hinner⟩
    have htree : treeOf (.map (Reading.named inner) stop) = some (.map (sortMembers ds)) :=
      treeOf_of_tree (fun hnull => by cases hnull) hd
    rw [h.lookup? (by decide) hmem, Option.bind_some, htree]
  · cases hfound : ZoneConsole.lookup? "details" members with
    | none => rfl
    | some r =>
        have hmem := mem_of_lookup? hfound
        obtain ⟨d, hd⟩ := h.tree _ hmem (.inr rfl)
        by_cases hr : r = .null
        · subst hr
          rfl
        · rw [Option.bind_some, treeOf_of_tree hr hd]
          cases d with
          | map ms =>
              obtain ⟨readings, stop, heq⟩ := Reading.exists_map_of_tree hd
              obtain rfl : r = .map readings stop := heq
              exact absurd hmem (hnone readings stop)
          | null | bool _ | num _ | str _ | seq _ => rfl

end Rejection

end ZoneConsole
