import CallGate.Abi.Registry

/-!
# What a registry answers

A registry can be asked in many ways, by name or one descriptor after the other. `Coherent` says
that all the answers are about one ordered map, which is so of every registry. `register_eq_ok_iff`
and `register_eq_error_iff` say when a descriptor is taken in, and why it is not.
-/

namespace CallGate.Abi

namespace Registry

variable {registry : Registry} {name : String} {call : Descriptor}

theorem find?_eq_some_iff :
    registry.find? name = some call ↔ call ∈ registry.descriptors ∧ call.name = name :=
  Data.find?_key_eq_some _ registry.nodup_names

theorem name_of_find? (h : registry.find? name = some call) : call.name = name :=
  (find?_eq_some_iff.mp h).2

theorem contains_iff : registry.contains name = true ↔ name ∈ registry.names := by
  simp [contains, names]

theorem contains_of_find? (h : registry.find? name = some call) :
    registry.contains name = true := by
  obtain ⟨hmem, rfl⟩ := find?_eq_some_iff.mp h
  exact contains_iff.mpr (List.mem_map_of_mem hmem)

theorem find?_eq_none_iff : registry.find? name = none ↔ name ∉ registry.names := by
  rw [← contains_iff, contains, List.any_eq_true, find?, List.find?_eq_none, not_exists]
  simp only [not_and]

theorem get_eq_ok_iff : registry.get name = .ok call ↔ registry.find? name = some call := by
  rw [get]
  cases registry.find? name with
  | none => simp
  | some d => simp

theorem get_eq_error_iff {e : RegistryError} :
    registry.get name = .error e ↔ name ∉ registry.names ∧ e = .unknown name := by
  rw [← find?_eq_none_iff, get]
  cases registry.find? name with
  | none => simp [eq_comm]
  | some d => simp

/-- Whatever a registry is asked, the answer is about one and the same ordered map. -/
structure Coherent (r : Registry) : Prop where
  nodup_names : r.names.Nodup
  names_of_descriptors : r.descriptors.map (·.name) = r.names
  size_eq : r.size = r.names.length
  contains_iff : ∀ name, r.contains name = true ↔ name ∈ r.names
  find?_iff : ∀ name d, r.find? name = some d ↔ d ∈ r.descriptors ∧ d.name = name
  get_ok_iff : ∀ name d, r.get name = .ok d ↔ r.find? name = some d
  get_error_iff : ∀ name e, r.get name = .error e ↔ name ∉ r.names ∧ e = .unknown name

theorem coherent (r : Registry) : r.Coherent where
  nodup_names := r.nodup_names
  names_of_descriptors := rfl
  size_eq := (List.length_map _).symm
  contains_iff _ := contains_iff
  find?_iff _ _ := find?_eq_some_iff
  get_ok_iff _ _ := get_eq_ok_iff
  get_error_iff _ _ := get_eq_error_iff

/-! ## One registration -/

theorem names_put (d : Descriptor) (r : Registry) :
    (r.put d).names = if d.name ∈ r.names then r.names else r.names ++ [d.name] :=
  Data.map_place _ d r.descriptors

theorem find?_put (d : Descriptor) (r : Registry) (name : String) :
    (r.put d).find? name = if d.name = name then some d else r.find? name :=
  Data.find?_place _ d r.descriptors name

variable {r r' : Registry} {d : Descriptor} {replace : Bool}

theorem register_eq_ok_iff : register d replace r = .ok () r' ↔
    r.put d = r' ∧ r.isFrozen = false ∧ (d.name ∈ r.names → replace = true) := by
  rw [register, ← contains_iff]
  cases r.isFrozen with
  | true => simp
  | false => cases r.contains d.name <;> cases replace <;> simp

/-- A descriptor that is refused leaves no trace. -/
theorem register_eq_error_iff {e : RegistryError} : register d replace r = .error e r' ↔
    r = r' ∧ (r.isFrozen = true ∧ e = .frozen d.name ∨
      r.isFrozen = false ∧ d.name ∈ r.names ∧ replace = false ∧ e = .duplicate d.name) := by
  rw [register, ← contains_iff]
  cases r.isFrozen with
  | true => grind
  | false => cases r.contains d.name <;> cases replace <;> grind

end Registry

end CallGate.Abi
