import ZoneConsole.Command.Run

/-!
# Commands on zones and qubes

What the commands on entities and on the server do. Each makes at most one request
that changes something. A change of the connection settings of a zone needs the
current ones first, because the server replaces them as a whole.
-/

namespace ZoneConsole

/-- What is asked before a zone is deleted. -/
def zoneQuestion (id : String) : String :=
  "Delete zone '" ++ id ++ "'? Its qubes become unreachable."

/-- What is asked before a qube is deleted. -/
def qubeQuestion (id : String) : String := "Delete qube '" ++ id ++ "'?"

namespace Run

/-- Prints one entity. -/
def reportOne (o : GlobalOptions) (d : Display α) (a : α) : Run Unit :=
  report o (renderOne d o.output o.color.isOn a)

/-- Prints entities. -/
def reportList (o : GlobalOptions) (d : Display α) (as : List α) : Run Unit :=
  report o (renderList d o.output o.color.isOn as)

/-- Runs a command on zones. -/
def zones (m : Machine) (o : GlobalOptions) (console : Console) : ZoneCommand → Run Unit
  | .list options connectedOnly => do
    let view := if connectedOnly then some connectedZones else none
    reportList o Zone.display (← entities console.client console.zones options view)
  | .get id => do
    reportOne o Zone.display (← exchange (.ofEntity "zone" id) (console.client.get Zone id))
  | .create name provider flags => do
    if (flags.endpoint.getD "").isEmpty then
      throw (.invalid "endpoint" "a new zone needs --endpoint")
    let draft : ZoneDraft := ⟨name, provider, flags.applyTo .empty⟩
    let zone ← exchange .ofApi (console.client.create Zone draft)
    notify o ("Zone '" ++ zone.name ++ "' created (" ++ zone.id ++ ")")
    reportOne o Zone.display zone
  | .update id name flags => do
    if name.isNone && flags.isEmpty then
      throw (.invalid "update" "nothing to change; pass --name or a connection flag")
    let config ← if flags.isEmpty then pure none else do
      let zone ← exchange (.ofEntity "zone" id) (console.client.get Zone id)
      pure (some (flags.applyTo zone.config))
    let patch : ZonePatch := ⟨name, config⟩
    reportOne o Zone.display
      (← exchange (.ofEntity "zone" id) (console.client.update Zone id patch))
  | .delete id => do
    if ← confirm m o (zoneQuestion id) then
      exchange (.ofEntity "zone" id) (console.client.delete Zone id)
      notify o "Zone deleted"
  | .transition id action => do
    let zone ← exchange (.ofEntity "zone" id) (console.client.transition Zone id action)
    notify o ("Zone '" ++ zone.name ++ "' is " ++ zone.status.name)

/-- A change of an allocation, unless it changes nothing. -/
def specOf (spec : SpecPatch) : Option SpecPatch := if spec.isEmpty then none else some spec

/-- Runs a command on qubes. -/
def qubes (m : Machine) (o : GlobalOptions) (console : Console) : QubeCommand → Run Unit
  | .list options runningOnly => do
    let view := if runningOnly then some runningQubes else none
    reportList o Qube.display (← entities console.client console.qubes options view)
  | .get id => do
    reportOne o Qube.display (← exchange (.ofEntity "qube" id) (console.client.get Qube id))
  | .create name zone workload spec => do
    let draft : QubeDraft := ⟨name, zone, workload, specOf spec⟩
    let qube ← exchange .ofApi (console.client.create Qube draft)
    notify o ("Qube '" ++ qube.name ++ "' created (" ++ qube.id ++ ", " ++ qube.status.name ++ ")")
    reportOne o Qube.display qube
  | .update id name spec => do
    if name.isNone && spec.isEmpty then
      throw (.invalid "update" "nothing to change; pass --name or a resource flag")
    let patch : QubePatch := ⟨name, specOf spec⟩
    reportOne o Qube.display
      (← exchange (.ofEntity "qube" id) (console.client.update Qube id patch))
  | .delete id => do
    if ← confirm m o (qubeQuestion id) then
      exchange (.ofEntity "qube" id) (console.client.delete Qube id)
      notify o "Qube deleted"
  | .transition id action => do
    let qube ← exchange (.ofEntity "qube" id) (console.client.transition Qube id action)
    notify o ("Qube '" ++ qube.name ++ "' is " ++ qube.status.name)

/-- Shows the health of the server, and fails unless it is healthy. -/
def health (o : GlobalOptions) (console : Console) : Run Unit := do
  let health ← exchange .ofApi console.client.health
  reportOne o Health.display health
  if !health.isHealthy then throw (.unhealthy health.status)

/-- Shows the summary of the server. -/
def status (o : GlobalOptions) (console : Console) : Run Unit := do
  reportOne o ServerStatus.display (← exchange .ofApi console.client.status)

end Run

end ZoneConsole
