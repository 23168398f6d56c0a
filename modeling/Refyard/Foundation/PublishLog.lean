import Mathlib.Data.List.Basic

/-! A directory whose files are only ever replaced whole. It is kept as the
publications made in it, newest first: a file holds what was last published
under its name, and a crash leaves the publications made so far. -/
namespace Refyard

abbrev PublishLog (ν κ : Type) := List (ν × κ)

namespace PublishLog

variable {ν κ : Type} [DecidableEq ν]

def publish (log : PublishLog ν κ) (name : ν) (content : κ) : PublishLog ν κ :=
  (name, content) :: log

def read (log : PublishLog ν κ) (name : ν) : Option κ :=
  (log.find? fun publication => publication.1 = name).map Prod.snd

@[simp] theorem read_nil (name : ν) : read ([] : PublishLog ν κ) name = none := rfl

theorem read_publish (log : PublishLog ν κ) (name other : ν) (content : κ) :
    (log.publish name content).read other = if name = other then some content else log.read other := by
  unfold read publish
  rw [List.find?_cons]
  by_cases h : name = other <;> simp [h]

/-- A file holds the content of its last publication. -/
theorem read_eq_some {log : PublishLog ν κ} {name : ν} {content : κ} :
    log.read name = some content ↔ ∃ later earlier, log = later ++ (name, content) :: earlier ∧
        ∀ publication ∈ later, publication.1 ≠ name := by
  unfold read
  rw [Option.map_eq_some_iff]
  constructor
  · rintro ⟨⟨found, held⟩, search, rfl⟩
    obtain ⟨same, later, earlier, split, others⟩ := List.find?_eq_some_iff_append.mp search
    obtain rfl : found = name := by simpa using same
    exact ⟨later, earlier, split, fun publication member => by simpa using others publication member⟩
  · rintro ⟨later, earlier, rfl, others⟩
    refine ⟨(name, content), ?_, rfl⟩
    rw [List.find?_eq_some_iff_append]
    exact ⟨by simp, later, earlier, rfl, fun publication member => by
      simpa using others publication member⟩

end PublishLog
end Refyard
