import Forge.Library.JsonDocument

/-! The parts of a document at every depth, and the induction over them. -/

namespace Forge.Library.JsonDocument

section Induction

theorem Json.depth {P : Json → Prop} (null : P .null) (bool : ∀ value, P (.bool value))
    (number : ∀ mantissa scale, P (.number mantissa scale)) (string : ∀ text, P (.string text))
    (array : ∀ items : List Json, (∀ item ∈ items, P item) → P (.array items))
    (object : ∀ fields : List (String × Json),
      (∀ key value, (key, value) ∈ fields → P value) → P (.object fields))
    (document : Json) : P document := by
  refine @Json.rec P (fun items => ∀ item ∈ items, P item)
    (fun fields => ∀ key value, (key, value) ∈ fields → P value) (fun field => P field.2)
    null bool number string array object nofun ?_ nofun ?_ (fun _ _ => id) document
  · intro first rest here later item member
    rcases List.mem_cons.1 member with rfl | member
    · exact here
    · exact later item member
  · intro first rest here later key value member
    rcases List.mem_cons.1 member with same | member
    · subst same
      exact here
    · exact later key value member

end Induction

section Parts

/-- A document is part of another at some depth. -/
inductive Part : Json → Json → Prop where
  | whole (document : Json) : Part document document
  | item {part item : Json} {items : List Json} (listed : item ∈ items) (inside : Part part item) :
      Part part (.array items)
  | field {part value : Json} {key : String} {fields : List (String × Json)}
      (listed : (key, value) ∈ fields) (inside : Part part value) : Part part (.object fields)

def Everywhere (P : Json → Prop) (document : Json) : Prop := ∀ part, Part part document → P part

variable {P : Json → Prop} {items : List Json} {fields : List (String × Json)}

theorem everywhere_array : Everywhere P (.array items) ↔
    P (.array items) ∧ ∀ item ∈ items, Everywhere P item := by
  constructor
  · intro all
    exact ⟨all _ (.whole _), fun item listed part inside => all part (.item listed inside)⟩
  · rintro ⟨here, below⟩ part inside
    cases inside with
    | whole => exact here
    | item listed inside => exact below _ listed part inside

theorem everywhere_object : Everywhere P (.object fields) ↔
    P (.object fields) ∧ ∀ key value, (key, value) ∈ fields → Everywhere P value := by
  constructor
  · intro all
    exact ⟨all _ (.whole _), fun key value listed part inside => all part (.field listed inside)⟩
  · rintro ⟨here, below⟩ part inside
    cases inside with
    | whole => exact here
    | field listed inside => exact below _ _ listed part inside

def IsLeaf : Json → Prop
  | .array _ | .object _ => False
  | _ => True

theorem everywhere_of_leaf {document : Json} (leaf : IsLeaf document) (here : P document) :
    Everywhere P document := by
  intro part inside
  cases inside with
  | whole => exact here
  | item | field => exact leaf.elim

end Parts

end Forge.Library.JsonDocument
