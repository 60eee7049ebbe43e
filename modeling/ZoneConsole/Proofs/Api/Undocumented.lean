import ZoneConsole.Proofs.Api.Rejection

/-!
# What bodies of other shapes show

A rejection whose body is no object of the documented shape shows what its status shows: the
standard phrase, the usual code and no details.  There is one exception.  A record is also read
from the items of an array, in the order of its fields, and so an array of at most four fitting
items says what the object with the four members in that order would say.

* **`Json.read_stop`** — a whole that a text writes has a written end.
* **`Rejection.cases_of_decode`**, **`Rejection.read_fitting`** — the bodies that are read: objects
  of the documented shape and arrays of items that fit.
* **`Rejection.Repeats`** — what is said is no more than what the status says.
* **`undocumented_fallsBack_iff`** — which bodies that are no documented objects show what the
  status shows.
-/

namespace ZoneConsole

/-! ### Wholes that a text writes -/

namespace Json

/-- The reading is that of a single value, which has no end of its own. -/
def IsSingle : Reading → Prop
  | .seq _ _ | .map _ _ => False
  | _ => True

theorem isSingle_readWord {opening : Opening} (value : Reading) (h : IsSingle value)
    (word cs : List Char) : IsSingle (readWord opening value word cs).1 := by
  induction word generalizing cs with
  | nil => exact h
  | cons w ws ih =>
      cases cs with
      | nil => trivial
      | cons c cs =>
          rw [readWord]
          split
          · exact ih cs
          · trivial

theorem isSingle_readQuoted (acc : List Char) (spoilt : Option Fault) (cs : List Char) :
    IsSingle (readQuoted acc spoilt cs).1 := by
  fun_induction readQuoted acc spoilt cs <;> trivial

theorem isSingle_readNumber (cs : List Char) : IsSingle (readNumber cs).1 := by
  unfold readNumber
  split
  · trivial
  · trivial
  · split <;> trivial

/-- Items end in the text, if they end at all. -/
theorem stop_readItems (fuel : Nat) (cs : List Char) : (readItems fuel cs).2.1 ≠ .loose := by
  induction fuel generalizing cs with
  | zero => simp [readItems]
  | succ fuel ih =>
      rw [readItems]
      rcases readValue fuel cs with ⟨item, left⟩
      dsimp only
      split
      · simp
      · simp
      · simp
      · split
        · simp
        · simp
        · exact ih _
      · simp

/-- Members end in the text, if they end at all. -/
theorem stop_readMembers (fuel : Nat) (cs : List Char) : (readMembers fuel cs).2.1 ≠ .loose := by
  induction fuel generalizing cs with
  | zero => simp [readMembers]
  | succ fuel ih =>
      unfold readMembers
      split
      · rename_i rest
        rcases readQuoted [] none rest with ⟨name, left⟩
        dsimp only
        split
        · simp
        · simp
        · rename_i rest _
          rcases readValue fuel rest with ⟨value, left⟩
          dsimp only
          split
          · simp
          · simp
          · simp
          · split
            · simp
            · simp
            · exact ih _
          · simp
        · simp
      · simp

/-- **A whole that a text writes** ends in the text, if it ends at all. -/
theorem read_stop (cs : List Char) :
    (∀ items, (read cs).1 ≠ .seq items .loose) ∧ ∀ members, (read cs).1 ≠ .map members .loose := by
  have hsingle : ∀ {r : Reading}, IsSingle r →
      (∀ items, r ≠ .seq items .loose) ∧ ∀ members, r ≠ .map members .loose := by
    rintro r h
    exact ⟨fun items hr => by rw [hr] at h; exact h, fun members hr => by rw [hr] at h; exact h⟩
  rw [read, readValue]
  split
  · exact hsingle trivial
  · exact hsingle (isSingle_readWord .null trivial _ _)
  · exact hsingle (isSingle_readWord (.bool true) trivial _ _)
  · exact hsingle (isSingle_readWord (.bool false) trivial _ _)
  · exact hsingle (isSingle_readQuoted _ _ _)
  · split
    · exact ⟨by simp, by simp⟩
    · exact ⟨by simp, by simp⟩
    · refine ⟨fun items h => ?_, by simp⟩
      exact stop_readItems _ _ (Reading.seq.inj h).2
  · split
    · exact ⟨by simp, by simp⟩
    · exact ⟨by simp, by simp⟩
    · refine ⟨by simp, fun members h => ?_⟩
      exact stop_readMembers _ _ (Reading.map.inj h).2
  · split
    · exact hsingle (isSingle_readNumber _)
    · exact hsingle trivial

end Json

/-! ### Records read from what is written -/

namespace Record

variable {α β γ : Type} {expected : String} {stop : SeqStop} {items : List Reading}

/-- Members that are checked to their end have names that can be read. -/
theorem exists_named_of_checkMembers {fields : Record γ α} {stop : MapStop} {seen : List String}
    {readings : List (Reading × Reading)} (h : fields.checkMembers stop seen readings = .ok ()) :
    stop.asked = none ∧ ∃ members, readings = Reading.named members := by
  induction readings generalizing seen with
  | nil =>
      refine ⟨?_, [], rfl⟩
      rw [checkMembers] at h
      split at h
      · assumption
      · cases h
  | cons member rest ih =>
      obtain ⟨key, value⟩ := member
      -- whatever this member is, those after it were checked, too
      have hmore : ∃ seen, fields.checkMembers stop seen rest = .ok () := by
        rw [checkMembers] at h
        split at h
        · cases h
        · split at h
          · split at h
            · cases h
            · exact ⟨_, h⟩
          · split at h
            · cases h
            · split at h
              · cases h
              · exact ⟨_, h⟩
      obtain ⟨seen, hrest⟩ := hmore
      obtain ⟨hstop, members, rfl⟩ := ih hrest
      refine ⟨hstop, ?_⟩
      rw [checkMembers] at h
      cases key with
      | str name => exact ⟨(name, value) :: members, rfl⟩
      | null | bool _ | num _ | seq _ _ | map _ _ => cases h
      | flawed opening asked passedOver => cases opening <;> cases h

/-- A field takes the next item, if there is one, and leaves those after it. -/
theorem exists_of_buildItems {rest : Record γ (β → α)} {f : Field β} {get : γ → β} {a : α}
    {left : List Reading} (h : (rest.field f get).buildItems expected stop items = .ok (a, left)) :
    ∃ b more, rest.buildItems expected stop items = .ok (b, more) ∧ left = more.tail ∧
      ∀ r, more.head? = some r → ∃ v, f.codec.decode r = .ok v := by
  rw [buildItems] at h
  split at h
  · cases h
  · rename_i b item more hrest
    refine ⟨b, item :: more, hrest, ?_⟩
    cases hitem : f.codec.decode item with
    | error e =>
        rw [hitem] at h
        cases h
    | ok v =>
        rw [hitem] at h
        obtain ⟨-, rfl⟩ := Prod.mk.inj (Except.ok.inj h)
        refine ⟨rfl, fun r hr => ⟨v, ?_⟩⟩
        rw [← Option.some.inj hr]
        exact hitem
  · rename_i b hrest
    refine ⟨b, [], hrest, ?_, nofun⟩
    split at h
    · cases h
    · split at h
      · exact (Prod.mk.inj (Except.ok.inj h)).2.symm
      · cases h

/-- A field that may be left out gets what it reads of the item in its place. -/
theorem buildItems_omittable (name : String) (get : γ → Option β)
    {rest : Record γ (Option β → α)} {c : Codec β} {b : Option β → α} {i : Nat}
    {value : Reading → Option β} (hstop : stop.asked = none)
    (hrest : rest.buildItems expected stop items = .ok (b, items.drop i))
    (hvalue : ∀ r, items[i]? = some r → c.optional.decode r = .ok (value r)) :
    (rest.field (.omittable name c) get).buildItems expected stop items =
      .ok (b (items[i]?.bind value), items.drop (i + 1)) := by
  rw [buildItems, hrest, ← List.tail_drop]
  rw [← List.head?_drop] at hvalue ⊢
  cases hmore : items.drop i with
  | nil =>
      simp only [hstop]
      rfl
  | cons item more =>
      rw [hmore] at hvalue
      simp only [Field.omittable, hvalue item rfl]
      rfl

end Record

namespace Rejection

variable {members : List (String × Reading)} {items : List Reading} {r : Reading} {body : String}

/-! ### Objects -/

theorem text_of_decode {v : Option String} (h : Codec.text.optional.decode r = .ok v) :
    r = .null ∨ ∃ s, r = .str s := by
  cases r with
  | null => exact .inl rfl
  | str s => exact .inr ⟨s, rfl⟩
  | bool _ | num _ | seq _ _ | map _ _ => cases h
  | flawed opening asked passedOver => cases opening <;> cases h

theorem tree_of_decode {v : Option Data} (h : (Codec.anything 126).optional.decode r = .ok v) :
    ∃ d, r.tree 126 = .ok d := by
  cases r with
  | null => exact ⟨.null, rfl⟩
  | flawed opening asked passedOver => cases opening <;> cases h
  | bool _ | num _ | str _ | seq _ _ | map _ _ =>
      simp only [Codec.optional, Codec.anything] at h
      split at h
      · exact ⟨_, by assumption⟩
      · cases h

/-- Members that pass, each for a field of its own, are of the documented shape. -/
theorem documented_of_passes (hpasses : ∀ m ∈ members, fields.Passes m)
    (honce : (fields.owners members).Nodup) : Documented members where
  once := by rwa [owners_eq] at honce
  text m hm hname := by
    have h := hpasses m hm
    rw [Record.Passes, known?_text hname] at h
    obtain ⟨v, hv, -⟩ := exists_of_map_ok h
    exact text_of_decode hv
  tree m hm hname := by
    have h := hpasses m hm
    rw [Record.Passes, known?_tree hname] at h
    obtain ⟨v, hv, -⟩ := exists_of_map_ok h
    exact tree_of_decode hv
  other m hm hname := by
    have h := hpasses m hm
    rwa [Record.Passes, known?_other hname] at h

/-- An object that is read has members of the documented shape. -/
theorem exists_documented_of_decode {readings : List (Reading × Reading)} {stop : MapStop}
    {said : Rejection} (h : codec.decode (.map readings stop) = .ok said) :
    stop.asked = none ∧ ∃ members, readings = Reading.named members ∧ Documented members := by
  simp only [codec, Record.codec, Record.decode] at h
  split at h
  · cases h
  · rename_i hchecked
    obtain ⟨hstop, members, rfl⟩ := Record.exists_named_of_checkMembers hchecked
    obtain ⟨hpasses, honce, -⟩ := (Record.checkMembers_named_iff hstop members []).1 hchecked
    exact ⟨hstop, members, rfl, documented_of_passes hpasses honce⟩

/-! ### Arrays -/

/-- The text is an array with these items. -/
def WrittenItems (body : String) (items : List Reading) : Prop :=
  ∃ left, Json.read body.toList = (.seq items .closed, some left) ∧ Json.skipSpaces left = []

/-- The items fit the documented members in their order: there are at most four of them, the first
    two are texts or null, and the others are trees. -/
structure Fitting (items : List Reading) : Prop where
  length : items.length ≤ 4
  text : ∀ i r, items[i]? = some r → i < 2 → r = .null ∨ ∃ s, r = .str s
  tree : ∀ i r, items[i]? = some r → 2 ≤ i → ∃ d, r.tree 126 = .ok d

/-- What the items say. -/
def ofItems (items : List Reading) : Rejection where
  error := items[0]?.bind textOf
  message := items[1]?.bind textOf
  code := items[2]?.bind treeOf
  details := items[3]?.bind treeOf

/-- An array of items that fit is read as what they say. -/
theorem decode_fitting (h : Fitting items) :
    codec.decode (.seq items .closed) = .ok (ofItems items) := by
  have htext (i : Nat) (hi : i < 2) (r : Reading) (hr : items[i]? = some r) :
      Codec.text.optional.decode r = .ok (textOf r) := decode_text (h.text i r hr hi)
  have htree (i : Nat) (hi : 2 ≤ i) (r : Reading) (hr : items[i]? = some r) :
      (Codec.anything 126).optional.decode r = .ok (treeOf r) := decode_tree (h.tree i r hr hi)
  have hbuilt (expected : String) : fields.buildItems expected .closed items =
      .ok (ofItems items, items.drop 4) := by
    have hdone : (Record.done mk : Record Rejection _).buildItems expected .closed items =
        .ok (mk, items.drop 0) := rfl
    have herror := Record.buildItems_omittable "error" error rfl hdone (htext 0 (by decide))
    have hmessage := Record.buildItems_omittable "message" message rfl herror (htext 1 (by decide))
    have hcode := Record.buildItems_omittable "code" code rfl hmessage (htree 2 (by decide))
    exact Record.buildItems_omittable "details" details rfl hcode (htree 3 (by decide))
  have hnone : items.drop 4 = [] := List.drop_eq_nil_of_le h.length
  simp only [codec, Record.codec, Record.decode, hbuilt, hnone]
  rfl

/-- An array that is read has items that fit. -/
theorem fitting_of_decode {stop : SeqStop} {said : Rejection}
    (h : codec.decode (.seq items stop) = .ok said) (hstop : stop ≠ .loose) :
    stop = .closed ∧ Fitting items := by
  simp only [codec, Record.codec, Record.decode] at h
  split at h
  · cases h
  · rename_i _ left hbuilt
    -- the members by position, from the last one to the first
    obtain ⟨_, _, hthree, rfl, hdetails⟩ := Record.exists_of_buildItems hbuilt
    obtain ⟨_, _, htwo, rfl, hcode⟩ := Record.exists_of_buildItems hthree
    obtain ⟨_, _, hone, rfl, hmessage⟩ := Record.exists_of_buildItems htwo
    obtain ⟨_, _, hzero, rfl, herror⟩ := Record.exists_of_buildItems hone
    obtain ⟨-, rfl⟩ := Prod.mk.inj (Except.ok.inj hzero)
    simp only [← List.drop_one, List.drop_drop, List.head?_drop] at h hdetails hcode hmessage
    rw [List.head?_eq_getElem?] at herror
    -- an array of more than four items is refused for its surplus
    have hended : stop = .closed ∧ items.drop 4 = [] := by
      cases hleft : items.drop 4 with
      | nil =>
          rw [hleft] at h
          cases stop with
          | closed => exact ⟨rfl, rfl⟩
          | loose => exact absurd rfl hstop
          | cut | commaThenEnd | commaThenCut | junk => cases h
      | cons item more =>
          rw [hleft, Record.surplus, if_neg hstop] at h
          cases h
    have hlength : items.length ≤ 4 := List.drop_eq_nil_iff.1 hended.2
    refine ⟨hended.1, hlength, fun i r hr hi => ?_, fun i r hr hi => ?_⟩
    · obtain rfl | rfl : i = 0 ∨ i = 1 := by omega
      · exact text_of_decode (herror r hr).choose_spec
      · exact text_of_decode (hmessage r hr).choose_spec
    · have hlt : i < items.length := (List.getElem?_eq_some_iff.1 hr).1
      obtain rfl | rfl : i = 2 ∨ i = 3 := by omega
      · exact tree_of_decode (hcode r hr).choose_spec
      · exact tree_of_decode (hdetails r hr).choose_spec

/-! ### Bodies that are read -/

/-- A body that is read is an object of the documented shape or an array of items that fit. -/
theorem cases_of_decode {said : Rejection} (h : Json.decode codec body = .ok said) :
    (∃ members, Written body members ∧ Documented members) ∨
      ∃ items, WrittenItems body items ∧ Fitting items := by
  obtain ⟨hseq, hmap⟩ := Json.read_stop body.toList
  unfold Json.decode at h
  rcases hread : Json.read body.toList with ⟨reading, left⟩
  rw [hread] at h hseq hmap
  dsimp only at h hseq hmap
  split at h
  · cases h
  · rename_i hdecode
    -- what was decoded was read to its end
    obtain ⟨rest, rfl, hrest⟩ : ∃ rest, left = some rest ∧ Json.skipSpaces rest = [] := by
      cases left with
      | none => cases h
      | some rest =>
          refine ⟨rest, rfl, ?_⟩
          cases hrest : Json.skipSpaces rest with
          | nil => rfl
          | cons c more =>
              simp only [Option.map_some, hrest] at h
              cases h
    cases reading with
    | map readings stop =>
        obtain ⟨hstop, members, rfl, hmembers⟩ := exists_documented_of_decode hdecode
        refine .inl ⟨members, ⟨rest, ?_, hrest⟩, hmembers⟩
        cases stop with
        | closed => exact hread
        | loose => exact absurd rfl (hmap _)
        | cut | commaThenEnd | commaThenCut | junk => cases hstop
    | seq items stop =>
        have hloose : stop ≠ .loose := by
          rintro rfl
          exact hseq items rfl
        obtain ⟨rfl, hitems⟩ := fitting_of_decode hdecode hloose
        exact .inr ⟨items, ⟨rest, hread, hrest⟩, hitems⟩
    | null | bool _ | num _ | str _ | flawed _ _ _ => cases hdecode

/-- **What an array of items that fit says.** -/
theorem read_fitting (hwritten : WrittenItems body items) (h : Fitting items) :
    read body = ofItems items := by
  obtain ⟨left, hread, hleft⟩ := hwritten
  rw [read, Json.decode, hread]
  simp only [decode_fitting h, Option.map_some, hleft]

/-- Any other body says nothing. -/
theorem read_other (hobject : ∀ members, Written body members → ¬ Documented members)
    (harray : ∀ items, WrittenItems body items → ¬ Fitting items) : read body = empty := by
  rw [read]
  split
  · rename_i hdecode
    rcases cases_of_decode hdecode with ⟨members, hwritten, h⟩ | ⟨items, hwritten, h⟩
    · exact absurd h (hobject members hwritten)
    · exact absurd h (harray items hwritten)
  · rfl

/-- What is said is no more than what a status says by itself. -/
structure Repeats (said : Rejection) (status : Nat) : Prop where
  message : ∀ s, said.error.or said.message = some s → s = "" ∨ s = reasonPhrase status
  code : ∀ d, said.code = some d → memberText d = "" ∨ memberText d = unknownErrorCode
  details : ∀ ms, said.details ≠ some (.map ms)

theorem repeats_empty (status : Nat) : empty.Repeats status := ⟨nofun, nofun, nofun⟩

end Rejection

/-! ### What is shown -/

/-- The error of a rejection that says nothing of its own. -/
def ApiError.ofStatus (status : Nat) : ApiError :=
  .rejected status unknownErrorCode (reasonPhrase status) none

theorem getD_filter_eq_iff (s : Option String) (d : String) :
    (s.filter (!·.isEmpty)).getD d = d ↔ ∀ t, s = some t → t = "" ∨ t = d := by
  cases s with
  | none => simp
  | some t =>
      rw [Option.filter_some]
      by_cases ht : t = "" <;> simp [ht]

/-- A body shows what its status shows if it says no more than that. -/
theorem ApiError.ofBody_eq_iff (status : Nat) (body : String) :
    ofBody status body = ofStatus status ↔ (Rejection.read body).Repeats status := by
  rw [ofBody, ofStatus]
  generalize Rejection.read body = said
  have hmessage := getD_filter_eq_iff (said.error.or said.message) (reasonPhrase status)
  have hcode := getD_filter_eq_iff (said.code.map memberText) unknownErrorCode
  simp only [rejected.injEq, true_and, hmessage, hcode]
  constructor
  · rintro ⟨hcode, hmessage, hdetails⟩
    refine ⟨hmessage, fun d hd => hcode _ (by rw [hd]; rfl), fun ms hms => ?_⟩
    rw [hms] at hdetails
    cases hdetails
  · rintro ⟨hmessage, hcode, hdetails⟩
    refine ⟨fun t ht => ?_, hmessage, ?_⟩
    · obtain ⟨d, hd, rfl⟩ := Option.map_eq_some_iff.1 ht
      exact hcode d hd
    · split
      · rename_i ms hms
        exact absurd hms (hdetails ms)
      · rfl

/-- Members among which there is no documented one say nothing. -/
theorem Rejection.ofMembers_eq_empty {members : List (String × Reading)}
    (h : ∀ m ∈ members, m.1 ∉ documented) : ofMembers members = empty := by
  have hnone (name : String) (hname : name ∈ documented) : lookup? name members = none := by
    rw [lookup?_eq_none]
    intro hmem
    obtain ⟨m, hm, rfl⟩ := List.mem_map.1 hmem
    exact h m hm hname
  rw [ofMembers, hnone "error" (by decide), hnone "message" (by decide),
    hnone "code" (by decide), hnone "details" (by decide)]
  rfl

/-- **Which bodies of other shapes show what their status shows**, for every status and every text
    that is no object of the documented shape, or one that has none of the documented members: all
    but the arrays of at most four items that fit these members and say something of their own. -/
theorem undocumented_fallsBack_iff (status : Nat) {body : String}
    (h : ∀ members, Rejection.Written body members → Rejection.Documented members →
      ∀ m ∈ members, m.1 ∉ Rejection.documented) :
    ApiError.ofBody status body = .ofStatus status ↔
      ∀ items, Rejection.WrittenItems body items → Rejection.Fitting items →
        (Rejection.ofItems items).Repeats status := by
  rw [ApiError.ofBody_eq_iff]
  constructor
  · intro hrepeats items hwritten hfitting
    rwa [Rejection.read_fitting hwritten hfitting] at hrepeats
  · intro harrays
    by_cases harray : ∃ items, Rejection.WrittenItems body items ∧ Rejection.Fitting items
    · obtain ⟨items, hwritten, hfitting⟩ := harray
      rw [Rejection.read_fitting hwritten hfitting]
      exact harrays items hwritten hfitting
    have hempty : Rejection.read body = .empty := by
      by_cases hobject : ∃ members, Rejection.Written body members ∧ Rejection.Documented members
      · obtain ⟨members, hwritten, hdocumented⟩ := hobject
        rw [Rejection.read_documented hwritten hdocumented]
        exact Rejection.ofMembers_eq_empty (h members hwritten hdocumented)
      · exact Rejection.read_other (fun members hw hd => hobject ⟨members, hw, hd⟩)
          fun items hw hf => harray ⟨items, hw, hf⟩
    rw [hempty]
    exact Rejection.repeats_empty status

/-- The compact text of an array is one with its items. -/
theorem Rejection.writtenItems_compact {items : List Data} (h : (Data.seq items).Plain) :
    WrittenItems (String.ofList (Json.compact (.seq items))) (Reading.ofItems items) := by
  refine ⟨[], ?_, rfl⟩
  rw [String.toList_ofList]
  exact Json.read_compact h

/-- A text writes one whole. -/
theorem Rejection.WrittenItems.not_written {body : String} {items : List Reading}
    (h : WrittenItems body items) (members : List (String × Reading)) : ¬ Written body members := by
  obtain ⟨left, hseq, -⟩ := h
  rintro ⟨left', hmap, -⟩
  cases hseq.symm.trans hmap

/-- Words, too many for a rejection. -/
def fiveWords : List Data := [.str "no", .str "such", .str "route", .str "to", .str "host"]

/-- An array of too many words shows what its status shows. -/
theorem undocumented_fallsBack_words :
    (∀ members, ¬ Rejection.Written (String.ofList (Json.compact (.seq fiveWords))) members) ∧
    ApiError.ofBody 502 (String.ofList (Json.compact (.seq fiveWords))) =
      .rejected 502 "UNKNOWN_ERROR" "Bad Gateway" none := by
  have hplain : (Data.seq fiveWords).Plain := by simp [fiveWords, Data.Plain, Data.PlainItems]
  have hwritten := Rejection.writtenItems_compact hplain
  have hstatus : ApiError.ofStatus 502 = .rejected 502 "UNKNOWN_ERROR" "Bad Gateway" none := by
    decide +kernel
  refine ⟨hwritten.not_written, ?_⟩
  rw [← hstatus]
  refine (undocumented_fallsBack_iff 502 fun members hw =>
    absurd hw (hwritten.not_written members)).2 ?_
  rintro items ⟨left, hseq, -⟩ hfitting
  obtain ⟨left', hread, -⟩ := hwritten
  obtain ⟨hitems, -⟩ := Prod.mk.inj (hread.symm.trans hseq)
  obtain rfl := (Reading.seq.inj hitems).1
  exact absurd hfitting.length (by decide)

/-- **A word in an array is shown as the message of the server**, although no array is of the
    documented shape. -/
theorem array_read_as_rejection :
    (∀ members, ¬ Rejection.Written "[\"boom\"]" members) ∧
    ApiError.ofBody 502 "[\"boom\"]" = .rejected 502 "UNKNOWN_ERROR" "boom" none ∧
    ApiError.ofBody 502 "[\"boom\"]" ≠ .ofStatus 502 := by
  have hcompact : "[\"boom\"]" = String.ofList (Json.compact (.seq [.str "boom"])) := by
    decide +kernel
  refine ⟨?_, by decide +kernel, by decide +kernel⟩
  rw [hcompact]
  exact (Rejection.writtenItems_compact (by simp [Data.Plain, Data.PlainItems])).not_written

end ZoneConsole
