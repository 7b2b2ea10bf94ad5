/-!
# Lists with keys

A list whose items have distinct keys is an ordered map. An item is put in the place of its key, and
behind all others if its key is new, so that the order is that of the first arrival of each key.

`map_place` says what becomes of the keys, `nodup_map_place` that they stay distinct, and
`find?_place` what is found afterwards. Where keys are distinct, `find?_key_eq_some` makes a look-up
a question of membership.
-/

namespace CallGate.Data

variable {α : Type} (key : α → String)

/-- Put an item in the place of its key. -/
def place (a : α) : List α → List α
  | [] => [a]
  | b :: bs => if key b = key a then a :: bs else b :: place a bs

theorem map_place (a : α) (l : List α) :
    (place key a l).map key =
      if key a ∈ l.map key then l.map key else l.map key ++ [key a] := by
  induction l with
  | nil => simp [place]
  | cons b bs ih =>
    by_cases h : key b = key a
    · simp [place, h]
    · have h' : key a ≠ key b := fun e ↦ h e.symm
      rw [place, if_neg h, List.map_cons, ih]
      by_cases hm : key a ∈ bs.map key
      · simp [hm]
      · simp [hm, h']

theorem nodup_map_place (a : α) {l : List α} (h : (l.map key).Nodup) :
    ((place key a l).map key).Nodup := by
  rw [map_place]
  split
  · exact h
  · next hm =>
    refine List.nodup_append.mpr ⟨h, by simp, fun x hx y hy e ↦ hm ?_⟩
    rw [List.mem_singleton.mp hy] at e
    exact e ▸ hx

theorem find?_place (a : α) (l : List α) (k : String) :
    (place key a l).find? (key · == k) =
      if key a = k then some a else l.find? (key · == k) := by
  induction l with
  | nil => by_cases h : key a = k <;> simp [place, h]
  | cons b bs ih =>
    by_cases h : key b = key a
    · by_cases hk : key a = k <;> simp [place, h, hk]
    · by_cases hb : key b = k
      · have hk : key a ≠ k := fun e ↦ h (hb.trans e.symm)
        rw [place, if_neg h, if_neg hk]
        simp [hb]
      · rw [place, if_neg h, List.find?_cons_of_neg (by simpa using hb), ih,
          List.find?_cons_of_neg (by simpa using hb)]

theorem find?_key_eq_some {l : List α} (h : (l.map key).Nodup) {k : String} {a : α} :
    l.find? (key · == k) = some a ↔ a ∈ l ∧ key a = k := by
  induction l with
  | nil => simp
  | cons b bs ih =>
    rw [List.map_cons, List.nodup_cons] at h
    obtain ⟨hb, hbs⟩ := h
    by_cases hk : key b = k
    · rw [List.find?_cons_of_pos (by simpa using hk), Option.some.injEq]
      constructor
      · rintro rfl
        exact ⟨List.mem_cons_self, hk⟩
      · rintro ⟨ha, rfl⟩
        rcases List.mem_cons.mp ha with rfl | ha
        · rfl
        · exact absurd (hk ▸ List.mem_map_of_mem ha) hb
    · rw [List.find?_cons_of_neg (by simpa using hk), ih hbs]
      constructor
      · rintro ⟨ha, rfl⟩
        exact ⟨List.mem_cons_of_mem b ha, rfl⟩
      · rintro ⟨ha, rfl⟩
        rcases List.mem_cons.mp ha with rfl | ha
        · exact absurd rfl hk
        · exact ⟨ha, rfl⟩

end CallGate.Data
