import ZoneConsole.Proofs.Codec.Members
import ZoneConsole.Proofs.Command.Loads
import ZoneConsole.Proofs.Command.Sent
import ZoneConsole.Proofs.Settings.Loaded
import ZoneConsole.Proofs.Store.History
import ZoneConsole.Proofs.Text.Utf8
import ZoneConsole.Proofs.Wire

/-!
# What lists print

A list command that is answered with a page prints the entities of the page, in their order, or
those of them that its view selects.  Both JSON texts are read back as what was printed, and no
reader tells one from the other.

* **`Exchange.Receives`** — a request is answered with a status that accepts and a text.
* **`Collection.selected_filter`** — what a view that filters selects.
* **`decode_renderList`**, **`decode_texts_eq`** — the JSON texts of a list are read back, and
  alike.
* **`Record.items_of_absent`** — a page without items, or with null for them, has none.
* **`listings_exact`** — all of it, for every list of zones and of qubes.
-/

namespace ZoneConsole

variable {α β E : Type}

/-! ### Answers with a body -/

/-- The request of an exchange reaches the server, and is answered in the end with a status that
    accepts and a body, which is a text. -/
def Exchange.Receives (e : Exchange α) (link : Link) (text : String) : Prop :=
  ∃ r status body complete, e.request = .ok r ∧
    (r.course link.network).fate = .answered status body complete ∧ isSuccess status = true ∧
    (Response.ofReply status body complete).body = some text

/-- A text that is sent whole is received as it is. -/
theorem Response.body_ofReply {status : Nat} (h : isBodiless status = false) (text : String) :
    (ofReply status (Text.utf8 text.toList) true).body = some text := by
  rw [ofReply, h, Text.readUtf8_utf8, String.ofList_toList]
  rfl

/-- What an exchange reads of a text that it receives. -/
theorem Exchange.run_of_receives {e : Exchange α} (codec : Codec α) {link : Link} {text : String}
    {a : α} (he : e.read = Response.read codec) (h : e.Receives link text)
    (hdecode : Json.decode codec text = .ok a) : (e.run link).1 = .ok a := by
  obtain ⟨r, status, body, complete, hr, hfate, hstatus, hbody⟩ := h
  have hsent : (r.send link).1 = .ok (.ofReply status body complete) := by
    show (r.course link.network).fate.response = _
    rw [hfate]
    rfl
  have hsame := Response.status_ofReply status body complete
  -- from here on only what the response holds matters, and not how it was sent
  rw [run_fst, met, hr]
  show (r.send link).1 >>= e.read = _
  rw [hsent, he]
  show Response.read codec _ = _
  rw [Response.read, hsame, if_pos hstatus, hbody]
  simp only [hdecode]

/-! ### What views select -/

namespace Collection

/-- **A view that filters** selects what it keeps, in the same order. -/
theorem selected_filter (p : E → Bool) (es : List E) :
    selected (some fun c => c.items.filter fun item => p item.value) es = es.filter p := by
  have hmap := List.filter_map (f := fun item : Shared E => item.value) (p := p)
    (l := Store.share 0 es)
  rw [values_share] at hmap
  exact hmap.symm

end Collection

/-! ### Texts of lists -/

section Texts

variable {d : Display α} (hd : ∀ a, d.codec.Recovers a) {format : OutputFormat}
  (hformat : format = .json ∨ format = .compactJson) (color : Bool) (as : List α)
include hd

/-- Either JSON text of a list is read as the tree of the list. -/
theorem read_renderList (hformat : format = .json ∨ format = .compactJson) :
    Json.read (renderList d format color as).toList =
      (.ofData (d.codec.list.encode as), some []) := by
  have hplain := (Codec.recovers_list fun a (_ : a ∈ as) => hd a).plain
  rcases hformat with rfl | rfl
  · rw [renderList, String.toList_ofList]
    exact Json.read_pretty hplain
  · rw [renderList, String.toList_ofList]
    exact Json.read_compact hplain

include hformat in
/-- **A list is read back** from either of its JSON texts. -/
theorem decode_renderList :
    Json.decode d.codec.list (renderList d format color as) = .ok as :=
  Json.decode_of_read (Codec.recovers_list fun a _ => hd a) (read_renderList hd color as hformat)

/-- **Both JSON texts of a list are read alike**, whatever is read of them. -/
theorem decode_texts_eq (codec : Codec β) :
    Json.decode codec (renderList d .json color as) =
      Json.decode codec (renderList d .compactJson color as) := by
  rw [Json.decode, Json.decode, read_renderList hd color as (.inl rfl),
    read_renderList hd color as (.inr rfl)]

include hformat in
/-- A list in JSON is not empty, even if there is nothing in it. -/
theorem isEmpty_renderList : (renderList d format color as).isEmpty = false := by
  have hread := read_renderList hd color as hformat
  refine Bool.eq_false_iff.2 fun hempty => ?_
  rw [String.isEmpty_iff.1 hempty] at hread
  cases congrArg Prod.snd hread

end Texts

/-! ### Pages without items -/

/-- What a field is given is a member of its name. -/
theorem Record.mem_of_memberOf {f : Field β} (haliases : f.aliases = [])
    {members : List (Reading × Reading)} {r : Reading} (h : memberOf f members = some r) :
    (.str f.name, r) ∈ members := by
  induction members with
  | nil => cases h
  | cons member rest ih =>
      unfold memberOf at h
      split at h
      · cases ‹_›
      · rename_i name value rest' heq
        obtain ⟨rfl, rfl⟩ := List.cons.inj heq
        split at h
        · rename_i hanswers
          have hname : f.name = name := by simpa [Field.answersTo, haliases] using hanswers
          obtain rfl := Option.some.inj h
          rw [hname]
          exact List.mem_cons_self
        · exact List.mem_cons_of_mem _ (ih h)
      · rename_i heq
        obtain ⟨-, rfl⟩ := List.cons.inj heq
        exact List.mem_cons_of_mem _ (ih h)

/-- **A page without items**, or with null in their place, has none. -/
theorem Record.items_of_absent {γ δ : Type} {make : List E → δ → γ} {name : String} {c : Codec E}
    {get : γ → List E} {other : Field δ} {getOther : γ → δ} {members : List (Reading × Reading)}
    {page : γ} (h : (((Record.done make).field (.defaulted name (.listOrNull c) []) get).field other
      getOther).build members = .ok page)
    (habsent : ∀ r, (.str name, r) ∈ members → r = .null) : ∃ b, page = make [] b := by
  obtain ⟨whole, b, hwhole, -, rfl⟩ := build_field h
  obtain ⟨made, es, hmade, hgets, rfl⟩ := build_field hwhole
  obtain rfl : make = made := Except.ok.inj hmade
  have hnone : es = [] := by
    rcases hgets with ⟨r, hr, hdecode⟩ | ⟨-, hdefault⟩
    · obtain rfl := habsent r (mem_of_memberOf rfl hr)
      exact (Except.ok.inj hdecode).symm
    · exact (Option.some.inj hdefault).symm
  exact ⟨b, congrArg (make · b) hnone⟩

/-- A text that is decoded has been read as a record, and that was built from its members. -/
theorem Record.build_of_text {γ : Type} {fields : Record γ γ} {type : String} {text : String}
    {members : List (Reading × Reading)} {stop : MapStop} {left : Option (List Char)} {a : γ}
    (hread : Json.read text.toList = (.map members stop, left))
    (h : Json.decode (fields.codec type) text = .ok a) : fields.build members = .ok a := by
  rw [Json.decode, hread] at h
  cases hdecode : (fields.codec type).decode (.map members stop) with
  | error e =>
      simp only [hdecode] at h
      cases h
  | ok b =>
      simp only [hdecode] at h
      split at h
      · obtain rfl := Except.ok.inj h
        exact build_of_decode type hdecode
      · cases h
      · cases h

/-! ### Invocations -/

namespace Run

/-- **A list that is answered with a page** prints what its view selects of the page. -/
theorem run_listing [Resource E] {client : Client} {options : ListOptions} {t : Transcript}
    {page : Resource.Page E} (ordering : LoadOrdering)
    (h : ((client.list E options).run t.link).1 = .ok page) (o : GlobalOptions) (d : Display E)
    (view : Option (Collection E → List (Shared E))) :
    (entities client (.make ordering) options view >>= reportList o d).run.run t =
      (.ok (), reported o (renderList d o.output o.color.isOn
        (Collection.selected view (Resource.items page)))
          { t with link := ((client.list E options).run t.link).2 }) := by
  rw [run_bind_ok (run_entities_ok ordering h view), reportList, run_report]

/-- What a list command does on a console, once it has been made. -/
theorem run_console_listing [Resource E] {around : Surroundings} {o : GlobalOptions} {c : Console}
    {options : ListOptions} {page : Resource.Page E} {ordering : LoadOrdering}
    {k : Console → Run Unit} {d : Display E} {view : Option (Collection E → List (Shared E))}
    (hconsole : around.console o = .ok c)
    (hk : k c = entities c.client (.make ordering) options view >>= reportList o d)
    (h : ((c.client.list E options).run (.ofNetwork around.network)).1 = .ok page) :
    ∃ t, (console around.env o >>= k).run.run around.start =
        (.ok (), reported o (renderList d o.output o.color.isOn
          (Collection.selected view (Resource.items page))) t) ∧ t.out = "" := by
  have hrun := run_console around o
  rw [hconsole] at hrun
  refine ⟨{ around.start with link := ((c.client.list E options).run around.start.link).2 },
    ?_, rfl⟩
  rw [run_bind_ok hrun, hk]
  exact run_listing (t := around.start) ordering h o d view

end Run

/-- An invocation ends well, and has printed a text and nothing else, or nothing at all if output
    is unwanted. -/
def Surroundings.Prints (around : Surroundings) (words : List String) (m : Machine) (quiet : Bool)
    (text : String) : Prop :=
  ∃ t, invoke around words m = .ran none t ∧ t.out = if quiet then "" else text ++ "\n"

/-- **An invocation of a list** prints a text that is read as what its view selects. -/
theorem Surroundings.prints_listing [Resource E] {around : Surroundings} {words : List String}
    {m : Machine} {i : Invocation} {o : GlobalOptions} {c : Console} {options : ListOptions}
    {page : Resource.Page E} {ordering : LoadOrdering} {k : Console → Run Unit} {d : Display E}
    {view : Option (Collection E → List (Shared E))}
    (hread : Invocation.read around.env words = .ok i) (ho : i.options.on m around.env = o)
    (hconsole : around.console o = .ok c) (hformat : o.output = .json ∨ o.output = .compactJson)
    (hd : ∀ e, d.codec.Recovers e)
    (hcommand : Run.command m around o i.command = Run.console around.env o >>= k)
    (hk : k c = Run.entities c.client (.make ordering) options view >>= Run.reportList o d)
    (h : ((c.client.list E options).run (.ofNetwork around.network)).1 = .ok page) :
    ∃ text, around.Prints words m o.quiet text ∧ Json.decode d.codec.list text =
      .ok (Collection.selected view (Resource.items page)) := by
  obtain ⟨t, hrun, hstart⟩ := Run.run_console_listing hconsole hk h
  rw [← hcommand] at hrun
  have hempty := isEmpty_renderList hd hformat o.color.isOn
    (Collection.selected view (Resource.items page))
  have htext := decode_renderList hd hformat o.color.isOn
    (Collection.selected view (Resource.items page))
  -- of the text nothing else matters from here on
  generalize renderList d o.output o.color.isOn
    (Collection.selected view (Resource.items page)) = text at hrun hempty htext
  refine ⟨text, ⟨Run.reported o text t, ?_, ?_⟩, htext⟩
  · rw [invoke_eq hread, ho, hrun]
    rfl
  · rw [Run.reported, hempty, Bool.or_false]
    cases o.quiet with
    | true => exact hstart
    | false =>
        show t.out ++ text ++ "\n" = text ++ "\n"
        rw [hstart, String.empty_append]

/-- **What lists print**, for every command line that lists zones or qubes in JSON, all settings
    and options that make a console, every server and every machine.  If the list is answered with
    a status that accepts and a body that is read as a page, the command ends well and prints a
    text, or nothing if output is unwanted; the text is read as the list of the entities of the
    page in their order, or with the option for it of those that are connected or running.  A page
    without entities, or with null in their place, has none.  Both JSON texts of a list are read
    alike by any codec. -/
theorem listings_exact {around : Surroundings} {words : List String} {i : Invocation} {c : Console}
    (hread : Invocation.read around.env words = .ok i)
    (hconsole : around.console i.options = .ok c)
    (hformat : i.options.output = .json ∨ i.options.output = .compactJson) (m : Machine) :
    (∀ options connectedOnly body page, i.command = .zones (.list options connectedOnly) →
      (c.client.list Zone options).Receives (.ofNetwork around.network) body →
      Json.decode ZonePage.codec body = .ok page →
      ∃ text, around.Prints words m i.options.quiet text ∧ Json.decode Zone.codec.list text =
        .ok (if connectedOnly then page.zones.filter (·.status = .connected) else page.zones)) ∧
    (∀ options runningOnly body page, i.command = .qubes (.list options runningOnly) →
      (c.client.list Qube options).Receives (.ofNetwork around.network) body →
      Json.decode QubePage.codec body = .ok page →
      ∃ text, around.Prints words m i.options.quiet text ∧ Json.decode Qube.codec.list text =
        .ok (if runningOnly then page.qubes.filter (·.status = .running) else page.qubes)) ∧
    (∀ body members stop left, Json.read body.toList = (.map members stop, left) →
      (∀ page, (∀ r, (.str "zones", r) ∈ members → r = .null) →
        Json.decode ZonePage.codec body = .ok page → page.zones = []) ∧
      ∀ page, (∀ r, (.str "qubes", r) ∈ members → r = .null) →
        Json.decode QubePage.codec body = .ok page → page.qubes = []) ∧
    ∀ (β : Type) (codec : Codec β) (color : Bool),
      (∀ zones, Json.decode codec (renderList Zone.display .json color zones) =
        Json.decode codec (renderList Zone.display .compactJson color zones)) ∧
      ∀ qubes, Json.decode codec (renderList Qube.display .json color qubes) =
        Json.decode codec (renderList Qube.display .compactJson color qubes) := by
  obtain ⟨config, -, -, hzones, hqubes⟩ := around.exists_of_console hconsole
  rw [← around.console_on i.options m] at hconsole
  refine ⟨?_, ?_, ?_, ?_⟩
  · intro options connectedOnly body page hcommand hbody hpage
    have hlist := Exchange.run_of_receives ZonePage.codec rfl hbody hpage
    obtain ⟨text, hprints, htext⟩ := Surroundings.prints_listing (d := Zone.display) hread rfl
      hconsole hformat Zone.recovers (congrArg _ hcommand) (by rw [← hzones]; rfl) hlist
    refine ⟨text, hprints, htext.trans (congrArg _ ?_)⟩
    cases connectedOnly with
    | true => exact Collection.selected_filter Zone.isConnected page.zones
    | false => rfl
  · intro options runningOnly body page hcommand hbody hpage
    have hlist := Exchange.run_of_receives QubePage.codec rfl hbody hpage
    obtain ⟨text, hprints, htext⟩ := Surroundings.prints_listing (d := Qube.display) hread rfl
      hconsole hformat Qube.recovers (congrArg _ hcommand) (by rw [← hqubes]; rfl) hlist
    refine ⟨text, hprints, htext.trans (congrArg _ ?_)⟩
    cases runningOnly with
    | true => exact Collection.selected_filter Qube.isRunning page.qubes
    | false => rfl
  · -- of a page only its members matter here, and whoever reads it has built it from them
    intro body members stop left hmembers
    refine ⟨fun page habsent hpage => ?_, fun page habsent hpage => ?_⟩
    · obtain ⟨total, rfl⟩ := Record.items_of_absent (Record.build_of_text hmembers hpage) habsent
      rfl
    · obtain ⟨total, rfl⟩ := Record.items_of_absent (Record.build_of_text hmembers hpage) habsent
      rfl
  · intro β codec color
    exact ⟨fun zones => decode_texts_eq Zone.recovers color zones codec,
      fun qubes => decode_texts_eq Qube.recovers color qubes codec⟩

/-- A page of a connected zone and one that is not. -/
def mixedPage : ZonePage where
  zones := [{ Zone.ofId "z1" with status := .connected }, Zone.ofId "z2"]
  total := 2

/-- No settings, and a server that answers with the page. -/
def paged : Surroundings :=
  scripted [.answer 200 (Text.utf8 (Json.encode ZonePage.codec mixedPage).toList) true]

/-- The words that list the connected zones of a console in JSON. -/
def connectedWords : List String :=
  ["--server", "http://console.lan:8080", "zones", "list", "--connected", "--output", "json"]

/-- The options among them. -/
def connectedOptions : GlobalOptions :=
  { usualOptions with server := some "http://console.lan:8080", output := .json }

/-- Of a page of two zones the connected one is printed, and read back. -/
theorem listings_exact_connected : ∃ i c body text,
    Invocation.read paged.env connectedWords = .ok i ∧ paged.console i.options = .ok c ∧
    i.options.output = .json ∧ i.command = .zones (.list .empty true) ∧
    (c.client.list Zone .empty).Receives (.ofNetwork paged.network) body ∧
    Json.decode ZonePage.codec body = .ok mixedPage ∧
    paged.Prints connectedWords .usual false text ∧
    Json.decode Zone.codec.list text = .ok [{ Zone.ofId "z1" with status := .connected }] := by
  have hwords : (Invocation.read paged.env connectedWords).toOption = some
      ⟨.zones (.list .empty true), connectedOptions⟩ := by decide +kernel
  have hclient : ((paged.console connectedOptions).toOption.map fun c => c.client) =
      some EntityCall.consoleLan := by decide +kernel
  obtain ⟨c, hc, hmade⟩ := Option.map_eq_some_iff.1 hclient
  have hread := eq_ok_of_toOption hwords
  have hpage := Json.decode_encode (ZonePage.recovers mixedPage)
  have hbody : (c.client.list Zone .empty).Receives (.ofNetwork paged.network)
      (Json.encode ZonePage.codec mixedPage) := by
    rw [hmade]
    refine ⟨_, 200, _, true, rfl, ?_, rfl, Response.body_ofReply rfl _⟩
    exact congrArg Course.fate (Request.course_of_settled
      (Request.obstacle?_script (by decide +kernel) _ .usual) rfl)
  obtain ⟨text, hprints, htext⟩ := (listings_exact hread (eq_ok_of_toOption hc) (.inl rfl) .usual).1
    .empty true _ mixedPage rfl hbody hpage
  exact ⟨_, c, _, text, hread, eq_ok_of_toOption hc, rfl, rfl, hbody, hpage, hprints, htext⟩

end ZoneConsole
