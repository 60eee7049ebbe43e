import ZoneConsole.Wire.Qube
import ZoneConsole.Wire.Zone

/-!
# Resources

A `Resource` is a kind of entity that the server keeps in a collection and that
is addressed by an identity of its own. Zones and qubes are the two of them.
-/

namespace ZoneConsole

/-- A kind of entity kept in a collection: the name of the collection, the requests
    that create and change an entity, the page a list answers, and their codecs. -/
class Resource (E : Type) where
  Draft : Type
  Patch : Type
  Page : Type
  collection : String
  id : E → String
  codec : Codec E
  draftCodec : Codec Draft
  patchCodec : Codec Patch
  pageCodec : Codec Page
  items : Page → List E

instance : Resource Zone where
  Draft := ZoneDraft
  Patch := ZonePatch
  Page := ZonePage
  collection := "zones"
  id := Zone.id
  codec := Zone.codec
  draftCodec := ZoneDraft.codec
  patchCodec := ZonePatch.codec
  pageCodec := ZonePage.codec
  items := ZonePage.zones

instance : Resource Qube where
  Draft := QubeDraft
  Patch := QubePatch
  Page := QubePage
  collection := "qubes"
  id := Qube.id
  codec := Qube.codec
  draftCodec := QubeDraft.codec
  patchCodec := QubePatch.codec
  pageCodec := QubePage.codec
  items := QubePage.qubes

end ZoneConsole
