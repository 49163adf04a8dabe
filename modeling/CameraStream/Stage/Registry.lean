import CameraStream.Stage.Descriptor
import CameraStream.Text.Quoted

/-!
# Stage registries

A `Registry` lists the stages that are available, in the order they were registered, each with
whatever it takes to make one (`β`). Names are unique, and the type says so: registering under a
name that is taken replaces the stage in its place (`names_put`).
-/

namespace CameraStream

/-- A registered stage and how to make one. -/
structure RegistryEntry (β : Type) where
  descriptor : StageDescriptor
  blueprint : β

namespace RegistryEntry

/-- The name a stage is registered under. -/
def name {β : Type} (x : RegistryEntry β) : String := x.descriptor.name

/-- The entries with `x` in place of the entry of its name, or at the end. -/
def put {β : Type} (x : RegistryEntry β) : List (RegistryEntry β) → List (RegistryEntry β)
  | [] => [x]
  | y :: rest => if y.name = x.name then x :: rest else y :: put x rest

theorem names_put {β : Type} (x : RegistryEntry β) (xs : List (RegistryEntry β)) :
    (x.put xs).map name =
      if x.name ∈ xs.map name then xs.map name else xs.map name ++ [x.name] := by
  induction xs with
  | nil => simp [put]
  | cons y xs ih =>
    by_cases h : y.name = x.name
    · simp [put, h]
    · have h' : x.name ≠ y.name := fun e => h e.symm
      by_cases hx : x.name ∈ xs.map name
      · simp [put, h, ih, hx]
      · simp [put, h, h', ih, hx]

theorem nodup_names_put {β : Type} (x : RegistryEntry β) {xs : List (RegistryEntry β)}
    (h : (xs.map name).Nodup) : ((x.put xs).map name).Nodup := by
  rw [names_put]
  split
  · exact h
  · next hx =>
    rw [List.nodup_append]
    refine ⟨h, by simp, ?_⟩
    intro a ha b hb e
    simp only [List.mem_singleton] at hb
    exact hx (hb ▸ e ▸ ha)

end RegistryEntry

/-- Available stages in order of registration, under names of their own. -/
structure Registry (β : Type) where
  entries : List (RegistryEntry β) := []
  nodup_names : (entries.map RegistryEntry.name).Nodup := by simp

namespace Registry

variable {β : Type}

def empty : Registry β := {}

/-- Adds a stage at the end, or in place of the stage of its name. -/
def register (r : Registry β) (d : StageDescriptor) (b : β) : Registry β where
  entries := RegistryEntry.put ⟨d, b⟩ r.entries
  nodup_names := RegistryEntry.nodup_names_put _ r.nodup_names

/-- Registers stages one after the other. -/
def registerAll (r : Registry β) (stages : List (StageDescriptor × β)) : Registry β :=
  stages.foldl (fun r x => r.register x.1 x.2) r

def descriptors (r : Registry β) : List StageDescriptor := r.entries.map (·.descriptor)

def size (r : Registry β) : Nat := r.entries.length

def isEmpty (r : Registry β) : Bool := r.entries.isEmpty

/-- The stages of a kind that take an encoding. -/
def find (r : Registry β) (k : StageKind) (e : Encoding) : List StageDescriptor :=
  r.descriptors.filter fun d => d.kind == k && d.accepts e

def fillers (r : Registry β) (role : Role) : List StageDescriptor :=
  r.descriptors.filter fun d => d.kind == .conversion role

def interpretations (r : Registry β) (e : Encoding) : List StageDescriptor :=
  r.find .interpretation e

def entry? (r : Registry β) (name : String) : Option (RegistryEntry β) :=
  r.entries.find? (·.name == name)

def descriptor? (r : Registry β) (name : String) : Option StageDescriptor :=
  (r.entry? name).map (·.descriptor)

def blueprint? (r : Registry β) (name : String) : Option β :=
  (r.entry? name).map (·.blueprint)

def inspect (r : Registry β) : String := Text.quotedList (r.entries.map (·.name))

end Registry
end CameraStream
