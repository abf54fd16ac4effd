import ArduinoOS.Minifs.Refinement

/-!
# The steps of a volume

What each call on a writable volume does to the map, by the call: it answers 0 and
changes nothing, or it changes one file.
-/

set_option autoImplicit false

namespace ArduinoOS.Minifs
open ArduinoOS.ByteProgram

theorem step_write {filename : CStr} {offset r : ℕ} {data : List UInt8} {map map' : FileMap}
    (h : Step true (.write filename offset data) r map map') :
    (map filename = none ∧ r = 0 ∧ map' = map) ∨ ∃ old, map filename = some old ∧
      r = min data.length (old.length-offset) ∧
      map' = map.set filename (some (patch old offset data)) := by
  cases h with
  | writeAbsent _ _ _ _ habsent => exact Or.inl ⟨habsent, rfl, rfl⟩
  | written _ _ _ _ old hold => exact Or.inr ⟨old, hold, rfl, rfl⟩

theorem step_create {filename : CStr} {contentSize r : ℕ} {map map' : FileMap}
    (h : Step true (.create filename contentSize) r map map') :
    (r = 0 ∧ map' = map) ∨ ∃ new, map filename = none ∧ new.length = contentSize ∧ r = 1 ∧
      map' = map.set filename (some new) := by
  cases h with
  | createRefused => exact Or.inl ⟨rfl, rfl⟩
  | created _ _ _ new hfresh hlen => exact Or.inr ⟨new, hfresh, hlen, rfl, rfl⟩

theorem step_delete {filename : CStr} {r : ℕ} {map map' : FileMap}
    (h : Step true (.delete filename) r map map') :
    (map filename = none ∧ r = 0 ∧ map' = map) ∨ ∃ old, map filename = some old ∧ r = 1 ∧
      map' = map.set filename none := by
  cases h with
  | deleteAbsent _ _ habsent => exact Or.inl ⟨habsent, rfl, rfl⟩
  | deleted _ _ old hold => exact Or.inr ⟨old, hold, rfl, rfl⟩

theorem step_resize {filename : CStr} {newContentLen r : ℕ} {map map' : FileMap}
    (h : Step true (.resize filename newContentLen) r map map') :
    (r = 0 ∧ map' = map) ∨ ∃ old new, map filename = some old ∧ SameStart newContentLen old new ∧
      r = 1 ∧ map' = map.set filename (some new) := by
  cases h with
  | resizeRefused => exact Or.inl ⟨rfl, rfl⟩
  | resized _ _ _ old new hold hnew => exact Or.inr ⟨old, new, hold, hnew, rfl, rfl⟩

theorem fileMap_set_same {map : FileMap} {filename : CStr} {c : Option (List UInt8)}
    (h : map filename = c) : map.set filename c = map := by
  funext n
  rw [FileMap.set]
  split
  case isTrue hn => rw [hn, h]
  case isFalse => rfl

end ArduinoOS.Minifs
