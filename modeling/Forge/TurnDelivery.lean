import Forge.TurnOrder

/-! The events of a chat as they are delivered: in any order, and more than once. -/

namespace Forge.TurnDelivery

open Forge.Library.Identifier
open Forge.Library.JsonDocument
open Forge.TurnProjection
open Forge.TurnOrder

section Members

variable {event : TurnProjectionEvent} {events others : List TurnProjectionEvent}

def Distinct (events : List TurnProjectionEvent) : Prop :=
  ∀ event ∈ events, ∀ other ∈ events, event.id = other.id → event = other

theorem exists_mem_dedupe (seen : List Uuid) (member : event ∈ events) (fresh : event.id ∉ seen) :
    ∃ kept ∈ dedupe seen events, kept.id = event.id := by
  induction events generalizing seen with
  | nil => exact absurd member List.not_mem_nil
  | cons first rest ih =>
      rw [dedupe]
      by_cases same : first.id = event.id
      · rw [if_neg (same ▸ fresh)]
        exact ⟨first, List.mem_cons_self, same⟩
      · have later : event ∈ rest := by
          rcases List.mem_cons.1 member with rfl | later
          · exact absurd rfl same
          · exact later
        split
        · exact ih seen later fresh
        · obtain ⟨kept, inside, named⟩ := ih (first.id :: seen) later fun known => by
            rcases List.mem_cons.1 known with named | known
            · exact same named.symm
            · exact fresh known
          exact ⟨kept, List.mem_cons_of_mem _ inside, named⟩

theorem mem_sorted (distinct : Distinct events) : event ∈ sorted events ↔ event ∈ events := by
  have ordered := List.mem_insertionSort (α := TurnProjectionEvent)
    (fun left right => eventLe left right = true) (x := event) (l := events)
  constructor
  · intro kept
    exact ordered.1 ((dedupe_sublist [] _).subset kept)
  · intro member
    obtain ⟨kept, inside, named⟩ := exists_mem_dedupe [] (ordered.2 member) List.not_mem_nil
    have there : kept ∈ events :=
      (List.mem_insertionSort _).1 ((dedupe_sublist [] _).subset inside)
    rwa [← distinct kept there event member named]

theorem eventLt_asymm {left right : TurnProjectionEvent} (less : eventLt left right) :
    ¬ eventLt right left := by
  rcases less with earlier | ⟨together, smaller⟩
  · rintro (later | ⟨same, -⟩)
    · exact absurd later (Int64.not_lt.2 (Int64.le_of_lt earlier))
    · rw [same] at earlier
      exact Int64.lt_irrefl earlier
  · rintro (later | ⟨-, larger⟩)
    · rw [together] at later
      exact Int64.lt_irrefl later
    · exact absurd larger (Nat.not_lt.2 (Nat.le_of_lt smaller))

theorem nodup_sorted (events : List TurnProjectionEvent) : (sorted events).Nodup := by
  refine (sorted_ordered events).imp ?_
  rintro left _ less rfl
  exact eventLt_asymm less less

theorem sorted_eq (distinct : Distinct events) (same : ∀ event, event ∈ others ↔ event ∈ events) :
    sorted others = sorted events := by
  have distinct' : Distinct others := fun event member other member' =>
    distinct event ((same event).1 member) other ((same other).1 member')
  have perm : (sorted others).Perm (sorted events) :=
    (List.perm_ext_iff_of_nodup (nodup_sorted others) (nodup_sorted events)).2 fun event => by
      rw [mem_sorted distinct', mem_sorted distinct, same]
  exact perm.eq_of_pairwise (fun _ _ _ _ less more => absurd more (eventLt_asymm less))
    (sorted_ordered others) (sorted_ordered events)

end Members

section Result

variable {print : Json → String} {events others : List TurnProjectionEvent} {nowMs : Int64}

theorem distinct_of_nodup (distinct : (events.map (·.id)).Nodup) : Distinct events :=
  fun _ member _ member' same => List.inj_on_of_nodup_map distinct member member' same

theorem length_sorted (distinct : (events.map (·.id)).Nodup) :
    (sorted events).length = events.length := by
  refine List.Perm.length_eq ?_
  exact (List.perm_ext_iff_of_nodup (nodup_sorted events) (List.Nodup.of_map _ distinct)).2 fun event =>
    mem_sorted (distinct_of_nodup distinct)

/-- Whatever order the events are delivered in and however often, the turns are the same; the
repetitions are counted. -/
theorem turns_of_deliveries (distinct : (events.map (·.id)).Nodup)
    (same : ∀ event, event ∈ others ↔ event ∈ events) :
    buildTurns print others nowMs =
      { buildTurns print events nowMs with
        deduplicatedEventCount := others.length - events.length } := by
  have left := sorted_eq (distinct_of_nodup distinct) same
  simp only [buildTurns, left, length_sorted distinct]

/-- A prompt and its answer, delivered the wrong way round and the prompt twice. -/
theorem prompt_delivered_twice :
    let prompt : TurnProjectionEvent := ⟨⟨1⟩, "user_prompt_submit", .null, none, 5⟩
    let stop : TurnProjectionEvent := ⟨⟨2⟩, "stop", .null, none, 5⟩
    buildTurns (fun _ => "") [stop, prompt, prompt] 9 =
      { buildTurns (fun _ => "") [prompt, stop] 9 with deduplicatedEventCount := 1 } :=
  turns_of_deliveries (by decide) (by simp; tauto)

end Result

end Forge.TurnDelivery
