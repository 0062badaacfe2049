import S4Bridge.Device.Proof.Endpoints

/-!
# The inspected interface

`libusb_claim_interface` takes the number of an interface, `config->interface` its position.

* `endpoints_placesRead`: the places the loops read hold the endpoints `resolveEndpointTypes` goes by.
* `inspectsClaimed_iff`: they are in the interface that was claimed if and only if its number is its
  position.
-/

namespace Device

variable (options : UsbOptions) (config : List Interface)

/-! ## The places and the loops -/

theorem filterMap_endpointAt {index : Int} {iface : Interface}
    (hiface : interfaceAt config index = some iface) {i : Nat} {alt : AltSetting}
    (halt : iface.altsetting[i]? = some alt) :
    ((List.range alt.endpoint.length).map (Place.endpoint index i)).filterMap (endpointAt config) =
      alt.endpoint := by
  have hrange := Lists.filterMap_eq_range some (Nat.le_refl alt.endpoint.length)
  rw [List.filterMap_some] at hrange
  rw [List.filterMap_map]
  refine Eq.trans (List.filterMap_congr fun ep _ => ?_) hrange.symm
  simp [endpointAt, hiface, halt]

/-- The loops look at what is at the places. -/
theorem endpoints_placesRead :
    (placesRead options config).filterMap (endpointAt config) =
      selectedEndpoints options (alternates config) := by
  have hinterface : ∀ index, endpointAt config (.interface index) = none := fun _ => rfl
  unfold placesRead
  rw [List.filterMap_cons_none (hinterface _)]
  have hat : interfaceAt config options.interfaceNumber =
    if options.interfaceNumber < 0 then none else config[options.interfaceNumber.toNat]? := rfl
  have hselected : selectedEndpoints options (alternates config) =
      (((interfaceAt config options.interfaceNumber).elim [] (·.altsetting)).filter
        (isSelected options)).flatMap (·.endpoint) := by
    unfold selectedEndpoints alternates
    rw [hat]
    split
    · rfl
    · rw [List.getD_eq_getElem?_getD, List.getElem?_map]
      cases config[options.interfaceNumber.toNat]? <;> rfl
  rw [hselected]
  cases hiface : interfaceAt config options.interfaceNumber with
  | none => rfl
  | some iface =>
    have hzip : iface.altsetting = iface.altsetting.zipIdx.map Prod.fst :=
      (List.zipIdx_map_fst ..).symm
    simp only [Option.elim]
    rw [List.filterMap_flatMap, Lists.filter_flatMap]
    conv_rhs => rw [hzip, List.flatMap_map]
    refine List.flatMap_congr fun x hx => ?_
    obtain ⟨alt, i⟩ := x
    have halt : iface.altsetting[i]? = some alt := List.mk_mem_zipIdx_iff_getElem?.1 hx
    rw [List.filterMap_cons_none rfl]
    split
    · exact filterMap_endpointAt config hiface halt
    · rfl

/-! ## The claimed interface -/

/-- The loops index `config->interface` only where there is an interface, and what they read is in one
with the configured number. -/
structure InspectsClaimed : Prop where
  bound : ∀ place ∈ placesRead options config, 0 ≤ place.index ∧ place.index < config.length
  claimed : ∀ place ∈ placesRead options config, ∀ iface,
    interfaceAt config place.index = some iface → Configured options iface

theorem index_placesRead {place : Place} (h : place ∈ placesRead options config) :
    place.index = options.interfaceNumber := by
  unfold placesRead at h
  rcases List.mem_cons.1 h with rfl | h
  · rfl
  · split at h
    · cases h
    · obtain ⟨⟨alt, i⟩, -, h⟩ := List.mem_flatMap.1 h
      rcases List.mem_cons.1 h with rfl | h
      · rfl
      · split at h
        · obtain ⟨ep, -, rfl⟩ := List.mem_map.1 h
          rfl
        · cases h

/-- **The inspected interface** is the claimed one if and only if the number of the interface at the
position `interface_number` is `interface_number`; what is inspected is what `resolveEndpointTypes`
goes by. -/
theorem inspectsClaimed_iff (hclaimed : ∃ iface ∈ config, Configured options iface) :
    (placesRead options config).filterMap (endpointAt config) =
      selectedEndpoints options (alternates config) ∧
    (InspectsClaimed options config ↔
      ∃ before iface after, config = before ++ iface :: after ∧
        (before.length : Int) = options.interfaceNumber ∧
        iface.bInterfaceNumber.toNat = before.length) := by
  refine ⟨endpoints_placesRead options config, ?_⟩
  obtain ⟨iface, -, hiface⟩ := hclaimed
  have hnumber : 0 ≤ options.interfaceNumber := hiface ▸ Int.natCast_nonneg _
  obtain ⟨n, hn⟩ := Int.eq_ofNat_of_zero_le hnumber
  have hfirst : Place.interface options.interfaceNumber ∈ placesRead options config := .head _
  have hat : interfaceAt config n = config[n]? := by
    rw [interfaceAt, if_neg (by omega), Int.toNat_natCast]
  constructor
  · intro h
    have hlt : n < config.length := by
      have hbound := (h.bound _ hfirst).2
      rw [Place.index, hn] at hbound
      exact Int.ofNat_lt.1 hbound
    have hnumbered : Configured options config[n] := by
      refine h.claimed _ hfirst _ ?_
      rw [Place.index, hn, hat]
      exact List.getElem?_eq_getElem hlt
    have hlength : (config.take n).length = n := List.length_take_of_le (Nat.le_of_lt hlt)
    refine ⟨config.take n, config[n], config.drop (n + 1), ?_, ?_, ?_⟩
    · rw [List.getElem_cons_drop, List.take_append_drop]
    · rw [hlength, hn]
    · rw [Configured, hn] at hnumbered
      rw [hlength]
      exact Int.ofNat_inj.1 hnumbered
  · rintro ⟨before, iface', after, rfl, hlength, hnumbered⟩
    have hget : interfaceAt (before ++ iface' :: after) options.interfaceNumber = some iface' := by
      rw [← hlength, interfaceAt, if_neg (by omega), Int.toNat_natCast]
      simp
    refine ⟨fun place hplace => ?_, fun place hplace found hfound => ?_⟩
    · rw [index_placesRead options _ hplace, ← hlength, List.length_append, List.length_cons]
      omega
    · rw [index_placesRead options _ hplace, hget] at hfound
      rw [← Option.some.inj hfound, Configured, hnumbered, hlength]

/-- Two interfaces in the order of their numbers; the second has its endpoints in the alternate setting
1. -/
def twoInterfaces : List Interface :=
  [⟨0, [⟨0, [⟨0x83, 3⟩]⟩]⟩, ⟨1, [⟨0, []⟩, ⟨1, [⟨0x84, 2⟩, ⟨0x01, 2⟩]⟩]⟩]

/-- The second interface is claimed: it is the one whose endpoints are read. -/
theorem inspectsClaimed_iff_second :
    let options : UsbOptions := { interfaceNumber := 1, alternateSetting := 1 }
    InspectsClaimed options twoInterfaces ∧
      (placesRead options twoInterfaces).filterMap (endpointAt twoInterfaces) =
        [⟨0x84, 2⟩, ⟨0x01, 2⟩] := by
  intro options
  have hclaimed : ∃ iface ∈ twoInterfaces, Configured options iface :=
    ⟨_, .tail _ (.head _), rfl⟩
  exact ⟨(inspectsClaimed_iff options twoInterfaces hclaimed).2.2 ⟨[_], _, [], rfl, rfl, rfl⟩,
    by decide⟩

/-- The only interface has the number 1. -/
theorem not_inspectsClaimed_single :
    (∃ iface ∈ [(⟨1, []⟩ : Interface)], Configured { interfaceNumber := 1 } iface) ∧
      ¬ InspectsClaimed { interfaceNumber := 1 } [⟨1, []⟩] := by
  refine ⟨⟨⟨1, []⟩, .head _, rfl⟩, fun h => ?_⟩
  have hbound : (1 : Int) < 1 := (h.bound (.interface 1) (.head _)).2
  exact absurd hbound (by decide)

end Device
