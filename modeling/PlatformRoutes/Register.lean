namespace PlatformRoutes

/-- Things that are told apart by a key of their own. -/
class Keyed (α : Type) where
  key : α → String

/-- Things in the order in which they were first put in, no two of one key. -/
structure Register (α : Type) [Keyed α] where
  items : List α
  distinct : (items.map Keyed.key).Nodup

namespace Register

variable {α : Type} [Keyed α]

def empty : Register α := ⟨[], by simp⟩

instance : EmptyCollection (Register α) := ⟨empty⟩

def find? (r : Register α) (key : String) : Option α :=
  r.items.find? fun a => Keyed.key a == key

def contains (r : Register α) (key : String) : Bool := (r.find? key).isSome

/-- Puts a thing in the place of the one with its key, or at the end. -/
def putInto (a : α) : List α → List α
  | [] => [a]
  | b :: rest => if Keyed.key b == Keyed.key a then a :: rest else b :: putInto a rest

theorem mem_keys_putInto {a : α} {k : String} :
    ∀ {l : List α}, k ∈ (putInto a l).map Keyed.key ↔ k = Keyed.key a ∨ k ∈ l.map Keyed.key
  | [] => by simp [putInto]
  | b :: rest => by
    unfold putInto
    split
    · rename_i h
      have h : Keyed.key b = Keyed.key a := by simpa using h
      simp [h]
    · simp only [List.map_cons, List.mem_cons, mem_keys_putInto]
      grind

theorem nodup_putInto {a : α} :
    ∀ {l : List α}, (l.map Keyed.key).Nodup → ((putInto a l).map Keyed.key).Nodup
  | [], _ => by simp [putInto]
  | b :: rest, h => by
    unfold putInto
    simp only [List.map_cons, List.nodup_cons] at h
    split
    · rename_i same
      have same : Keyed.key b = Keyed.key a := by simpa using same
      simpa [same] using h
    · rename_i other
      have other : Keyed.key b ≠ Keyed.key a := by simpa using other
      simp only [List.map_cons, List.nodup_cons]
      refine ⟨?_, nodup_putInto h.2⟩
      rw [mem_keys_putInto]
      grind

def put (r : Register α) (a : α) : Register α :=
  ⟨putInto a r.items, nodup_putInto r.distinct⟩

def erase (r : Register α) (key : String) : Register α :=
  ⟨r.items.filter fun a => Keyed.key a != key,
    (List.filter_sublist.map _).nodup r.distinct⟩

end Register

end PlatformRoutes
