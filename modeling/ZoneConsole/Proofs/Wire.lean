import ZoneConsole.Proofs.Codec.Record
import ZoneConsole.Proofs.Json.Tree
import ZoneConsole.Proofs.Timestamp
import ZoneConsole.Wire.Qube
import ZoneConsole.Wire.System
import ZoneConsole.Wire.Zone

/-!
# Messages come back

Each message is a record, so it is recovered as soon as its names are told apart and each of its
fields gives its value back.  Both are read off the list of its fields; the lists below follow
those of the definitions.

* **`Codec.RoundTrips`** — decoding undoes encoding, and encoding again changes nothing.
* **`messages_roundTrip`** — every message does.
-/

namespace ZoneConsole

open Codec ZoneConsole.Field

/-! ### Single values -/

theorem Timestamp.recovers (t : Timestamp) : Timestamp.codec.Recovers t where
  reads := by
    rintro _ ⟨⟩
    simp only [codec, read_write]
  plain := trivial
  notNull := nofun

theorem Provider.recovers (p : Provider) : Provider.codec.Recovers p :=
  recovers_variant (by cases p <;> decide) (by cases p <;> decide)

theorem ZoneStatus.recovers (s : ZoneStatus) : ZoneStatus.codec.Recovers s :=
  recovers_variant (by cases s <;> decide) (by cases s <;> decide)

theorem Workload.recovers (w : Workload) : Workload.codec.Recovers w :=
  recovers_variant (by cases w <;> decide) (by cases w <;> decide)

theorem QubeStatus.recovers (s : QubeStatus) : QubeStatus.codec.Recovers s :=
  recovers_variant (by cases s <;> decide) (by cases s <;> decide)

/-! ### Zones -/

theorem ZoneConfig.recovers (c : ZoneConfig) : ZoneConfig.codec.Recovers c := by
  refine Record.recovers _ ?_ rfl ?_
  · simp [fields]
  · exact Record.Restores.done mk c
      |>.field (restores_defaulted _ _ (recovers_text _))
      |>.field (restores_omittable _ fun _ _ => recovers_text _)
      |>.field (restores_omittable _ fun _ _ => recovers_text _)
      |>.field (restores_omittable _ fun _ _ => recovers_text _)
      |>.field (restores_omittable _ fun _ _ => recovers_text _)

theorem Zone.recovers (z : Zone) : Zone.codec.Recovers z := by
  refine Record.recovers _ ?_ rfl ?_
  · simp [fields]
  · exact Record.Restores.done mk z
      |>.field (restores_required _ (recovers_text _))
      |>.field (restores_required _ (recovers_text _))
      |>.field (restores_required _ (Provider.recovers _))
      |>.field (restores_required _ (ZoneStatus.recovers _))
      |>.field (restores_defaulted _ _ (ZoneConfig.recovers _))
      |>.field (restores_required _ (Timestamp.recovers _))
      |>.field (restores_required _ (Timestamp.recovers _))

theorem ZoneDraft.recovers (d : ZoneDraft) : ZoneDraft.codec.Recovers d := by
  refine Record.recovers _ ?_ rfl ?_
  · simp [fields]
  · exact Record.Restores.done mk d
      |>.field (restores_required _ (recovers_text _))
      |>.field (restores_required _ (Provider.recovers _))
      |>.field (restores_required _ (ZoneConfig.recovers _))

theorem ZonePatch.recovers (p : ZonePatch) : ZonePatch.codec.Recovers p := by
  refine Record.recovers _ ?_ rfl ?_
  · simp [fields]
  · exact Record.Restores.done mk p
      |>.field (restores_omittable _ fun _ _ => recovers_text _)
      |>.field (restores_omittable _ fun _ _ => ZoneConfig.recovers _)

theorem ZonePage.recovers (p : ZonePage) : ZonePage.codec.Recovers p := by
  refine Record.recovers _ ?_ rfl ?_
  · simp [fields]
  · exact Record.Restores.done mk p
      |>.field (restores_defaulted _ _ (recovers_listOrNull fun z _ => z.recovers))
      |>.field (restores_defaulted _ _ (recovers_word64 _))

/-! ### Qubes -/

theorem Gpu.recovers (g : Gpu) : Gpu.codec.Recovers g := by
  refine Record.recovers _ ?_ rfl ?_
  · simp [fields]
  · exact Record.Restores.done mk g
      |>.field (restores_required _ (recovers_text _))
      |>.field (restores_required _ (recovers_word32 _))

theorem QubeSpec.recovers (s : QubeSpec) : QubeSpec.codec.Recovers s := by
  refine Record.recovers _ ?_ rfl ?_
  · simp [fields]
  · exact Record.Restores.done mk s
      |>.field (restores_defaulted _ _ (recovers_word32 _))
      |>.field (restores_defaulted _ _ (recovers_word32 _))
      |>.field (restores_defaulted _ _ (recovers_word32 _))
      |>.field (restores_defaulted _ _ (recovers_text _))
      |>.field (restores_omittable _ fun _ _ => Gpu.recovers _)

theorem SpecPatch.recovers (p : SpecPatch) : SpecPatch.codec.Recovers p := by
  refine Record.recovers _ ?_ rfl ?_
  · simp [fields]
  · exact Record.Restores.done mk p
      |>.field (restores_omittable _ fun _ _ => recovers_word32 _)
      |>.field (restores_omittable _ fun _ _ => recovers_word32 _)
      |>.field (restores_omittable _ fun _ _ => recovers_word32 _)
      |>.field (restores_omittable _ fun _ _ => recovers_text _)
      |>.field (restores_omittable _ fun _ _ => Gpu.recovers _)

theorem Qube.recovers (q : Qube) : Qube.codec.Recovers q := by
  refine Record.recovers _ ?_ rfl ?_
  · simp [fields]
  · exact Record.Restores.done mk q
      |>.field (restores_required _ (recovers_text _))
      |>.field (restores_required _ (recovers_text _))
      |>.field (restores_defaulted _ _ (recovers_text _))
      |>.field (restores_omittable _ fun _ _ => recovers_text _)
      |>.field (restores_required _ (Workload.recovers _))
      |>.field (restores_required _ (QubeStatus.recovers _))
      |>.field (restores_defaulted _ _ (QubeSpec.recovers _))
      |>.field (restores_omittable _ fun _ _ => recovers_text _)
      |>.field (restores_required _ (Timestamp.recovers _))
      |>.field (restores_required _ (Timestamp.recovers _))

theorem QubeDraft.recovers (d : QubeDraft) : QubeDraft.codec.Recovers d := by
  refine Record.recovers _ ?_ rfl ?_
  · simp [fields]
  · exact Record.Restores.done mk d
      |>.field (restores_required _ (recovers_text _))
      |>.field (restores_required _ (recovers_text _))
      |>.field (restores_required _ (Workload.recovers _))
      |>.field (restores_omittable _ fun _ _ => SpecPatch.recovers _)

theorem QubePatch.recovers (p : QubePatch) : QubePatch.codec.Recovers p := by
  refine Record.recovers _ ?_ rfl ?_
  · simp [fields]
  · exact Record.Restores.done mk p
      |>.field (restores_omittable _ fun _ _ => recovers_text _)
      |>.field (restores_omittable _ fun _ _ => SpecPatch.recovers _)

theorem QubePage.recovers (p : QubePage) : QubePage.codec.Recovers p := by
  refine Record.recovers _ ?_ rfl ?_
  · simp [fields]
  · exact Record.Restores.done mk p
      |>.field (restores_defaulted _ _ (recovers_listOrNull fun q _ => q.recovers))
      |>.field (restores_defaulted _ _ (recovers_word64 _))

/-! ### The server itself -/

theorem Health.recovers (h : Health) : Health.codec.Recovers h := by
  refine Record.recovers _ ?_ rfl ?_
  · simp [fields]
  · exact Record.Restores.done mk h
      |>.field (restores_required _ (recovers_text _))
      |>.field (restores_defaulted _ _ (recovers_text _))
      |>.field (restores_omittable _ fun _ _ => recovers_text _)
      |>.field (restores_omittable _ fun _ _ => recovers_text _)

/-- The application is also read under a name that no other field has. -/
theorem ServerStatus.recovers (s : ServerStatus) : ServerStatus.codec.Recovers s := by
  refine Record.recovers _ ?_ rfl ?_
  · simp [fields]
  · exact Record.Restores.done mk s
      |>.field ((restores_defaulted _ _ (recovers_text _)).orNamed _)
      |>.field (restores_defaulted _ _ (recovers_text _))
      |>.field (restores_defaulted _ _ (recovers_word64 _))
      |>.field (restores_defaulted _ _ (recovers_word64 _))

/-! ### All messages -/

/-- Decoding the text of a value gives the value, and encoding what was decoded from any text
    gives a text that says the same. -/
structure Codec.RoundTrips {α : Type} (c : Codec α) : Prop where
  undone : ∀ a, Json.decode c (Json.encode c a) = .ok a
  stable : ∀ text a, Json.decode c text = .ok a →
    Json.decode c (Json.encode c a) = Json.decode c text

theorem Codec.roundTrips {α : Type} {c : Codec α} (h : ∀ a, c.Recovers a) : c.RoundTrips where
  undone a := Json.decode_encode (h a)
  stable _ a htext := (Json.decode_encode (h a)).trans htext.symm

/-- **Decoding undoes encoding for every message**: for any texts and counts in it, with any of
    its optional parts there or not, and with every timestamp there is. -/
theorem messages_roundTrip :
    Zone.codec.RoundTrips ∧ ZoneConfig.codec.RoundTrips ∧ ZoneDraft.codec.RoundTrips ∧
    ZonePatch.codec.RoundTrips ∧ ZonePage.codec.RoundTrips ∧
    Qube.codec.RoundTrips ∧ QubeSpec.codec.RoundTrips ∧ SpecPatch.codec.RoundTrips ∧
    Gpu.codec.RoundTrips ∧ QubeDraft.codec.RoundTrips ∧ QubePatch.codec.RoundTrips ∧
    QubePage.codec.RoundTrips ∧ Health.codec.RoundTrips ∧ ServerStatus.codec.RoundTrips :=
  ⟨roundTrips Zone.recovers, roundTrips ZoneConfig.recovers, roundTrips ZoneDraft.recovers,
    roundTrips ZonePatch.recovers, roundTrips ZonePage.recovers, roundTrips Qube.recovers,
    roundTrips QubeSpec.recovers, roundTrips SpecPatch.recovers, roundTrips Gpu.recovers,
    roundTrips QubeDraft.recovers, roundTrips QubePatch.recovers, roundTrips QubePage.recovers,
    roundTrips Health.recovers, roundTrips ServerStatus.recovers⟩

end ZoneConsole
