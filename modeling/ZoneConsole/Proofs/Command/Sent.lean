import ZoneConsole.Proofs.Command.Discipline

/-!
# What invocations send

The requests that a command makes are those that it may make.  What is sent for them is more if an
answer belongs to another place and whatever carries the requests sends them on there: a request
that changes something is then repeated, or one that reads is sent beside it, and the client has no
say in that.

* **`Invocation.disciplined_iff`** — when no more is sent than a command may send.
* **`effects_disciplined`** — what invocations do, for every command line.
-/

namespace ZoneConsole

variable {α : Type}

/-- Whoever has given a zone has been sent the request for it. -/
theorem mem_sent_of_get {client : Client} {id : String} {asked : Request} {link : Link}
    {zone : Zone} (hrequest : (client.get Zone id).request = .ok asked)
    (hzone : ((client.get Zone id).run link).1 = .ok zone) :
    asked ∈ (asked.course link.network).sent := by
  obtain ⟨result, hresult, hrun⟩ :=
    ((CollectionCall.get (E := Zone) id).expects client).classified_run hrequest link
  have hok : result = .ok zone := (congrArg Prod.fst hrun).symm.trans hzone
  subst hok
  generalize hfate : (asked.course link.network).fate = fate at hresult
  cases hresult with
  | accepted | read => exact Request.sent_of_answered hfate

/-! ### What is sent -/

/-- What may be sent for an invocation.  For a command that reads it is one request for it at
    most.  For no command is it more than one request that changes something; a change of
    connection settings is sent after the request for the same zone, and only if it was given the
    zone; and beside the change of a name alone nothing is asked for. -/
structure Invocation.Disciplined (i : Invocation) (around : Surroundings) (sent : List Request) :
    Prop where
  reading : i.command.isReading = true → ReadsOnce sent
  changing : (changesOf sent).length ≤ 1
  named : ∀ id name, i.command = .zones (.update id name .none) → ∀ r ∈ sent, r.method ≠ .get
  reconnecting : ∀ id name flags, i.command = .zones (.update id name flags) → flags ≠ .none →
    ∀ before r after, sent = before ++ r :: after → r.method ≠ .get →
      ∃ asked ∈ before, i.Follows around id asked r

/-- Does the command change nothing but the name of a zone? -/
def Command.isRenaming : Command → Bool
  | zones (.update _ _ flags) => flags = .none
  | zones _ | qubes _ | health | status | settings _ | completions _ => false

/-- May a request be sent beside those that a command makes?  If the command changes something it
    may ask for something, unless the command only changes the name of a zone. -/
def Command.tolerates (c : Command) (hop : Request) : Bool :=
  !c.isReading && !c.isRenaming && hop.method = .get

theorem Command.isRenaming_iff {c : Command} :
    c.isRenaming = true ↔ ∃ id name, c = .zones (.update id name .none) := by
  constructor
  · intro h
    cases c with
    | zones c =>
        cases c with
        | update id name flags =>
            obtain rfl := of_decide_eq_true h
            exact ⟨id, name, rfl⟩
        | list _ _ | get _ | create _ _ _ | delete _ | transition _ _ => cases h
    | qubes _ | health | status | settings _ | completions _ => cases h
  · rintro ⟨id, name, rfl⟩
    exact decide_eq_true (rfl : ZoneFlags.none = .none)

section Wire

variable {i : Invocation} {around : Surroundings} {link : Link} {made : List Request}

/-- If no more is sent than may be sent, nothing is sent beside the requests but what is
    tolerated. -/
theorem Invocation.Disciplined.tolerates (h : i.Disciplined around (link.wire made))
    {hop : Request} (hhop : hop ∈ link.hops made) : i.command.tolerates hop = true := by
  obtain ⟨before, r, onward, after, hwire, hmem, hechoes⟩ := Link.exists_of_hop hhop
  have hsent : hop ∈ link.wire made := by
    rw [hwire]
    exact List.mem_append_left _ (List.mem_append_right _ (List.mem_cons_of_mem _ hmem))
  have hreading : i.command.isReading = false := by
    refine Bool.eq_false_iff.2 fun hreading => ?_
    -- the request before it has been sent as well
    have hlength := (h.reading hreading).length
    have hpos := List.length_pos_of_mem hmem
    rw [hwire] at hlength
    simp only [List.length_append, List.length_cons] at hlength
    omega
  have hget : hop.method = .get := by
    refine Decidable.byContradiction fun hother => ?_
    -- then the request before it is of the same kind, and there are two changes
    have hsame : r.method ≠ .get := fun hr => hother (hechoes.get hr)
    have htwo := h.changing
    have hpos : 0 < (changesOf onward).length :=
      List.length_pos_of_mem (List.mem_filter.2 ⟨hmem, decide_eq_true hother⟩)
    rw [hwire] at htwo
    simp only [changesOf, List.filter_append, List.filter_cons, decide_eq_true hsame, if_true,
      List.length_append, List.length_cons] at htwo hpos
    omega
  have hrenaming : i.command.isRenaming = false := by
    refine Bool.eq_false_iff.2 fun hrenaming => ?_
    obtain ⟨id, name, hcommand⟩ := Command.isRenaming_iff.1 hrenaming
    exact h.named id name hcommand hop hsent hget
  rw [Command.tolerates, hreading, hrenaming, hget]
  rfl

/-- What is tolerated beside the requests of a command asks for something. -/
theorem changesOf_wire_sublist
    (htolerates : ∀ hop ∈ link.hops made, i.command.tolerates hop = true) :
    (changesOf (link.wire made)).Sublist (changesOf made) := by
  refine Link.filter_wire fun hop hhop => ?_
  have hhop := htolerates hop hhop
  simp only [Command.tolerates, Bool.and_eq_true, decide_eq_true_eq] at hhop
  simp [hhop.2]

/-- Beside the requests of a command that tolerates nothing, nothing is sent. -/
theorem wire_sublist_of_intolerant
    (htolerates : ∀ hop ∈ link.hops made, i.command.tolerates hop = true)
    (hnone : ∀ hop, i.command.tolerates hop = false) : (link.wire made).Sublist made := by
  refine Link.wire_sublist (List.eq_nil_iff_forall_not_mem.2 fun hop hhop => ?_)
  cases (htolerates hop hhop).symm.trans (hnone hop)

/-- **A change that follows an answer** is sent after the request for it, if of all that is sent it
    is the only one that changes something. -/
theorem exists_asked_before {id : String} {asked changed r : Request}
    (hfollows : i.Follows around id asked changed) {before after : List Request}
    (hwire : (Link.ofNetwork around.network).wire [asked, changed] = before ++ r :: after)
    (hr : r = changed) : ∃ asked ∈ before, i.Follows around id asked r := by
  subst hr
  obtain ⟨console, zone, -, hrequest, hzone⟩ := hfollows.given
  have hasked := mem_sent_of_get hrequest hzone
  let first := (asked.course around.network).sent
  have hreads : r ∉ first := by
    intro hmem
    have hput : r.method ≠ .get := by
      rw [hfollows.changes]
      decide
    rcases asked.sent_course around.network with hnone | ⟨onward, hsent, hall⟩
    · rw [show first = [] from hnone] at hmem
      cases hmem
    · rw [show first = asked :: onward from hsent] at hmem
      rcases List.mem_cons.1 hmem with rfl | hmem
      · exact hput hfollows.asks
      · exact hput ((hall r hmem).get hfollows.asks)
  -- so the first request and what is sent for it come before the change
  rcases List.append_eq_append_iff.1 hwire with ⟨between, hbefore, -⟩ | ⟨between, hfirst, hrest⟩
  · refine ⟨asked, ?_, hfollows⟩
    rw [hbefore]
    exact List.mem_append_left _ hasked
  · cases between with
    | nil =>
        refine ⟨asked, ?_, hfollows⟩
        rw [← List.append_nil before, ← hfirst]
        exact hasked
    | cons other between =>
        obtain rfl := (List.cons.inj hrest).1
        refine absurd ?_ hreads
        rw [show first = before ++ r :: between from hfirst]
        exact List.mem_append_right _ List.mem_cons_self

end Wire

section Tolerated

variable {i : Invocation} {around : Surroundings} {made : List Request}
  (hasks : i.Asks around made)
  (htolerates : ∀ hop ∈ (Link.ofNetwork around.network).hops made, i.command.tolerates hop = true)
include hasks htolerates

theorem readsOnce_wire (h : i.command.isReading = true) :
    ReadsOnce ((Link.ofNetwork around.network).wire made) := by
  refine (hasks.reading h).sublist (wire_sublist_of_intolerant htolerates fun hop => ?_)
  rw [Command.tolerates, h]
  rfl

/-- No more than one request that changes something is sent. -/
theorem length_changesOf_wire_le :
    (changesOf ((Link.ofNetwork around.network).wire made)).length ≤ 1 := by
  cases h : i.command.isReading with
  | true => exact length_changesOf_le (readsOnce_wire hasks htolerates h).length
  | false =>
      refine Nat.le_trans (changesOf_wire_sublist htolerates).length_le ?_
      by_cases hplain : i.command.Reconnects
      · obtain ⟨id, name, flags, hcommand, hflags⟩ := hplain
        rcases hasks.reconnecting id name flags hcommand hflags with
          hreads | ⟨asked, changed, rfl, hfollows⟩
        · exact length_changesOf_le hreads.length
        · -- of the two the first one asks
          simp [changesOf, hfollows.asks, hfollows.changes]
      · exact length_changesOf_le (hasks.changing h hplain).length

/-- Beside the change of a name alone nothing is asked for. -/
theorem method_of_mem_wire {id : String} {name : Option String}
    (hcommand : i.command = .zones (.update id name .none)) {r : Request}
    (hr : r ∈ (Link.ofNetwork around.network).wire made) : r.method ≠ .get := by
  have hsub := wire_sublist_of_intolerant htolerates fun hop => by
    rw [Command.tolerates, Command.isRenaming_iff.2 ⟨id, name, hcommand⟩]
    simp
  have hplain : ¬ i.command.Reconnects := by
    rintro ⟨id', name', flags, hother, hflags⟩
    rw [hcommand] at hother
    cases hother
    exact hflags rfl
  have hnot : i.command.isReading = false := by
    rw [hcommand]
    rfl
  exact (hasks.changing hnot hplain).method r (hsub.subset hr)

/-- Connection settings are changed after the request for the zone. -/
theorem exists_asked {id : String} {name : Option String} {flags : ZoneFlags}
    (hcommand : i.command = .zones (.update id name flags)) (hflags : flags ≠ .none)
    {before after : List Request} {r : Request}
    (hwire : (Link.ofNetwork around.network).wire made = before ++ r :: after)
    (hmethod : r.method ≠ .get) : ∃ asked ∈ before, i.Follows around id asked r := by
  have hchange : r ∈ changesOf made := by
    refine (changesOf_wire_sublist htolerates).subset ?_
    rw [hwire]
    exact List.mem_filter.2 ⟨List.mem_append_right _ List.mem_cons_self, decide_eq_true hmethod⟩
  rcases hasks.reconnecting id name flags hcommand hflags with
    hreads | ⟨asked, changed, rfl, hfollows⟩
  · rw [hreads.changesOf_eq_nil] at hchange
    cases hchange
  · refine exists_asked_before hfollows hwire ?_
    simpa [changesOf, hfollows.asks, hfollows.changes] using hchange

end Tolerated

/-- **When no more is sent than a command may send**: if nothing is sent beside its requests but
    what it tolerates. -/
theorem Invocation.disciplined_iff {i : Invocation} {around : Surroundings} {made : List Request}
    (hasks : i.Asks around made) :
    let link := Link.ofNetwork around.network
    i.Disciplined around (link.wire made) ↔
      ∀ hop ∈ link.hops made, i.command.tolerates hop = true := by
  intro link
  refine ⟨fun h hop hhop => h.tolerates hhop, fun htolerates => ?_⟩
  exact ⟨readsOnce_wire hasks htolerates, length_changesOf_wire_le hasks htolerates,
    fun id name hcommand r hr => method_of_mem_wire hasks htolerates hcommand hr,
    fun id name flags hcommand hflags before r after =>
      exists_asked hasks htolerates hcommand hflags⟩

/-- **What invocations do**, for every command line and all that it finds, on every machine.  The
    link lists all that is sent.  An invocation that tells of a wrong use has sent nothing and left
    the file as it was; one that fails in any other way has left the file as it was.  The requests
    that are made are those that the command may make.  What is sent is what the command may send
    exactly if nothing but what the command tolerates is sent on from an answer; so it is if
    nothing is sent on at all. -/
theorem effects_disciplined (around : Surroundings) (words : List String) (m : Machine) :
    ((invoke around words m).linkAfter (.ofNetwork around.network)).requests =
      (around.sent words m).map Request.sent ∧
    ((invoke around words m).exitCode = 2 → around.sent words m = [] ∧
      (invoke around words m).fileAfter around.file = around.file) ∧
    ((invoke around words m).exitCode ≠ 0 →
      (invoke around words m).fileAfter around.file = around.file) ∧
    ∀ i, Invocation.read around.env words = .ok i →
      i.Asks around (around.made words m) ∧
        (i.Disciplined around (around.sent words m) ↔
          ∀ hop ∈ around.hops words m, i.command.tolerates hop = true) ∧
        (around.network.Stationary → i.Disciplined around (around.sent words m)) ∧
        (i.command.isServerBound = false → around.sent words m = []) ∧
        (i.command.isServerBound = true →
          (invoke around words m).fileAfter around.file = around.file) := by
  constructor
  · rw [invoke_linkAfter, Link.requests_after]
    rfl
  cases hread : Invocation.read around.env words with
  | error e =>
      have hnone : around.sent words m = [] := by
        rw [Surroundings.sent, Surroundings.made, hread]
        rfl
      have hrefused : invoke around words m = .refused e := by rw [invoke, hread]
      rw [hnone, hrefused]
      exact ⟨fun _ => ⟨rfl, rfl⟩, fun _ => rfl, fun _ h => by cases h⟩
  | ok i =>
      have hleaves := Run.leaves_command i around m
      have hasks := i.asks around m
      have hiff := Invocation.disciplined_iff hasks
      rw [invoke_eq hread, Surroundings.sent, Surroundings.hops, made_of_read hread]
      -- only what is known of the run by `hleaves` matters from here on
      generalize (Run.command m around (i.options.on m around.env) i.command).run.run
        around.start = run at hleaves ⊢
      obtain ⟨result, t⟩ := run
      refine ⟨fun h => ?_, fun h => ?_, fun j hj => ?_⟩
      · cases result with
        | ok _ => cases h
        | error f =>
            rw [hleaves.usage f rfl h]
            exact ⟨rfl, hleaves.file f rfl⟩
      · cases result with
        | ok _ => exact absurd rfl h
        | error f => exact hleaves.file f rfl
      · obtain rfl := Except.ok.inj hj
        refine ⟨hasks, hiff, fun hstationary => hiff.2 ?_, fun h => ?_, hleaves.bound⟩
        · rw [Link.hops_of_stationary hstationary]
          exact fun _ hhop => absurd hhop List.not_mem_nil
        · rw [i.requests_local h around m]
          rfl

/-- A zone as a server answers with it. -/
def zoneText : String :=
  "\x7b\"id\":\"z1\",\"name\":\"lab\",\"type\":\"aws\",\"status\":\"connected\"," ++
    "\"config\":\x7b\"endpoint\":\"e\"\x7d," ++
    "\"created_at\":\"2025-03-01T12:00:00Z\",\"updated_at\":\"2025-03-01T12:00:00Z\"\x7d"

/-- No settings, and a server with a script. -/
def scripted (replies : List Reply) : Surroundings where
  env := []
  directory := "/home/op/.config/qubes-air"
  file := .absent
  network := .script replies

/-- A server that answers twice with the zone. -/
def twoAnswers : Surroundings :=
  scripted [.answer 200 (Text.utf8 zoneText.toList) true,
    .answer 200 (Text.utf8 zoneText.toList) true]

/-- The words that move a zone to another region. -/
def moveWords : List String := ["zones", "update", "z1", "--region", "eu"]

/-- What the words for a move to another region ask for. -/
def moveFlags : ZoneFlags := ⟨none, some "eu", none, none, none⟩

/-- To move a zone sends two requests to one place, and the zone is changed after it was given. -/
theorem effects_disciplined_moved : ∃ i before changed after asked,
    Invocation.read twoAnswers.env moveWords = .ok i ∧
    i.command = .zones (.update "z1" none moveFlags) ∧
    twoAnswers.sent moveWords .usual = before ++ changed :: after ∧ changed.method = .put ∧
    asked ∈ before ∧ i.Follows twoAnswers "z1" asked changed := by
  have hwords : ((Invocation.read twoAnswers.env moveWords).toOption.map (·.command)) =
      some (.zones (.update "z1" none moveFlags)) := by decide +kernel
  obtain ⟨i, hi, hcommand⟩ := Option.map_eq_some_iff.1 hwords
  have hread := eq_ok_of_toOption hi
  have hflags : moveFlags ≠ .none := by decide
  have hstationary : twoAnswers.network.Stationary := by
    intro reply hreply r
    rcases List.mem_cons.1 hreply with rfl | hreply
    · rfl
    · rw [List.mem_singleton.1 hreply]
      rfl
  have hsome : ((twoAnswers.sent moveWords .usual).find? (·.method ≠ .get)).isSome = true := by
    decide +kernel
  obtain ⟨changed, hfound⟩ := Option.isSome_iff_exists.1 hsome
  have hmethod : changed.method ≠ .get := by simpa using List.find?_some hfound
  obtain ⟨before, after, hsent⟩ := List.append_of_mem (List.mem_of_find?_eq_some hfound)
  obtain ⟨-, -, hdisciplined, -⟩ :=
    (effects_disciplined twoAnswers moveWords .usual).2.2.2 i hread
  obtain ⟨asked, hasked, hfollows⟩ := (hdisciplined hstationary).reconnecting "z1" none _ hcommand
    hflags before changed after hsent hmethod
  exact ⟨i, before, changed, after, asked, hread, hcommand, hsent, hfollows.changes, hasked,
    hfollows⟩

/-- A server that answers a request with another place to which the same request belongs. -/
def movedAnswer : Surroundings := scripted [.answer 307 [] true (some "/elsewhere")]

/-- The words that confirm the deletion of a zone. -/
def deletionWords : List String := ["--yes", "zones", "delete", "z1"]

/-- A deletion that is sent on from the answer is sent twice, and more than it may be. -/
theorem deletion_repeated : ∃ i,
    Invocation.read movedAnswer.env deletionWords = .ok i ∧ i.command = .zones (.delete "z1") ∧
    (movedAnswer.sent deletionWords .usual).map (·.method) = [.delete, .delete] ∧
    ¬ i.Disciplined movedAnswer (movedAnswer.sent deletionWords .usual) := by
  have hwords : ((Invocation.read movedAnswer.env deletionWords).toOption.map (·.command)) =
      some (.zones (.delete "z1")) := by decide +kernel
  obtain ⟨i, hi, hcommand⟩ := Option.map_eq_some_iff.1 hwords
  have hmethods : (movedAnswer.sent deletionWords .usual).map (·.method) =
      [.delete, .delete] := by decide +kernel
  refine ⟨i, eq_ok_of_toOption hi, hcommand, hmethods, fun h => ?_⟩
  -- both of them change something
  have htwo := h.changing
  have hchanges : (changesOf (movedAnswer.sent deletionWords .usual)).length = 2 := by
    decide +kernel
  omega

end ZoneConsole
