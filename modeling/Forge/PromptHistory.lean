import Forge.LlmStreams
import Forge.SelfFixDomain

/-! The part of a conversation that goes along with a prompt: the newest messages, as far back as
the context window of the model reaches. -/

namespace Forge.PromptHistory

open Forge.SelfFixDomain (AppError)

abbrev AppResult := Except AppError

/-- `MODEL_LIMITS`. -/
def modelLimits : List (String × Nat) :=
  [("claude-sonnet-4-6", 200000), ("claude-opus-4-7", 200000), ("gpt-4o", 128000),
    ("gpt-4-turbo", 128000), ("gemini-2.0-pro", 1000000), ("llama3.2", 8192)]

def modelContextLimit (model : String) : Nat :=
  ((modelLimits.find? fun limit => limit.1 = model).map Prod.snd).getD 4096

structure PromptHistoryMessage where
  role : String
  content : String
deriving DecidableEq

def estimateTokens (text : String) : Nat := text.length / 4 + 1

structure PromptContextPolicy where
  model : String
  contextLimit : Nat
  outputTokenBudget : Nat

def outputTokenBudgetForLimit (contextLimit : Nat) : Nat := max 256 (min (contextLimit / 4) 4096)

def walk (budget used : Nat) : List PromptHistoryMessage → List PromptHistoryMessage
  | [] => []
  | message :: older =>
      let tokens := estimateTokens message.content
      if used + tokens > budget then [] else message :: walk budget (used + tokens) older

namespace PromptContextPolicy

def new (model : String) (contextLimit : Nat) : PromptContextPolicy :=
  ⟨model, contextLimit, outputTokenBudgetForLimit contextLimit⟩

variable (policy : PromptContextPolicy)

/-- What is left of four fifths of the window. The product with `0.8` in single precision is this
one for every limit of the table. -/
def left : Nat := policy.contextLimit * 4 / 5 - policy.outputTokenBudget

def historyBudget : AppResult Nat :=
  if policy.left = 0 then
    .error (.validation
      ("model '" ++ policy.model ++ "' context window too small for reserved output budget"))
  else .ok policy.left

def selectHistory (allMsgs : List PromptHistoryMessage) (systemPrompt : String) :
    AppResult (List PromptHistoryMessage) := do
  let budget ← policy.historyBudget
  let sysTokens := estimateTokens systemPrompt
  if sysTokens ≥ budget then
    .error (.validation "system_prompt alone exceeds context budget")
  else
    let kept := (walk budget sysTokens allMsgs.reverse).reverse
    if kept = [] then
      .error (.validation "message exceeds context budget; clear chat to continue")
    else .ok kept

end PromptContextPolicy

def promptContextPolicy (model : String) : PromptContextPolicy :=
  .new model (modelContextLimit model)

section Walk

variable {budget used : Nat}

def cost (messages : List PromptHistoryMessage) : Nat :=
  (messages.map fun message => estimateTokens message.content).sum

theorem walk_prefix (budget used : Nat) (messages : List PromptHistoryMessage) :
    walk budget used messages <+: messages := by
  induction messages generalizing used with
  | nil => exact List.prefix_rfl
  | cons message older ih =>
      dsimp only [walk]
      split
      · exact List.nil_prefix
      · exact List.prefix_cons_inj _ |>.2 (ih _)

theorem cost_walk (fits : used ≤ budget) (messages : List PromptHistoryMessage) :
    used + cost (walk budget used messages) ≤ budget := by
  induction messages generalizing used with
  | nil => simpa [walk, cost] using fits
  | cons message older ih =>
      dsimp only [walk]
      split
      · simpa [cost] using fits
      · rename_i room
        have rest := ih (Nat.le_of_not_lt room)
        simp only [cost, List.map_cons, List.sum_cons] at rest ⊢
        omega

/-- What fits is not cut off. -/
theorem prefix_walk {messages chosen : List PromptHistoryMessage} (part : chosen <+: messages)
    (fits : used + cost chosen ≤ budget) : chosen <+: walk budget used messages := by
  induction messages generalizing used chosen with
  | nil => exact part
  | cons message older ih =>
      cases chosen with
      | nil => exact List.nil_prefix
      | cons first rest =>
          obtain ⟨rfl, onward⟩ := List.cons_prefix_cons.1 part
          simp only [cost, List.map_cons, List.sum_cons, ← Nat.add_assoc] at fits
          have room : ¬used + estimateTokens first.content > budget :=
            Nat.not_lt.2 ((Nat.le_add_right ..).trans fits)
          rw [walk, if_neg room]
          exact List.cons_prefix_cons.2 ⟨rfl, ih onward fits⟩

theorem walk_eq_nil (message : PromptHistoryMessage) (older : List PromptHistoryMessage) :
    walk budget used (message :: older) = [] ↔
      budget < used + estimateTokens message.content := by
  dsimp only [walk]
  split
  · rename_i full
    exact iff_of_true rfl full
  · rename_i room
    exact iff_of_false (List.cons_ne_nil _ _) room

end Walk

namespace PromptContextPolicy

variable {policy : PromptContextPolicy} {allMsgs kept : List PromptHistoryMessage}
  {systemPrompt : String}

theorem selectHistory_eq_ok :
    policy.selectHistory allMsgs systemPrompt = .ok kept ↔
      estimateTokens systemPrompt < policy.left ∧ kept ≠ [] ∧
        kept = (walk policy.left (estimateTokens systemPrompt) allMsgs.reverse).reverse := by
  unfold selectHistory historyBudget
  by_cases none : policy.left = 0
  · simp [none, bind, Except.bind]
  · simp only [none, if_false, bind, Except.bind]
    by_cases full : estimateTokens systemPrompt ≥ policy.left
    · simp [full, Nat.not_lt.2 full]
    · simp only [full, if_false, Nat.lt_of_not_le full, true_and]
      split
      · rename_i empty
        exact iff_of_false nofun fun wanted => wanted.1 (wanted.2.trans empty)
      · rename_i some
        constructor
        · rintro ⟨rfl⟩
          exact ⟨some, rfl⟩
        · rintro ⟨-, rfl⟩
          rfl

theorem selectHistory_sound (selected : policy.selectHistory allMsgs systemPrompt = .ok kept) :
    kept <:+ allMsgs ∧ estimateTokens systemPrompt + cost kept ≤ policy.left := by
  obtain ⟨room, -, rfl⟩ := selectHistory_eq_ok.1 selected
  constructor
  · exact List.reverse_prefix.1 (by simpa using walk_prefix _ _ allMsgs.reverse)
  · have fits := cost_walk (Nat.le_of_lt room) allMsgs.reverse
    simpa [cost] using fits

theorem selectHistory_isOk (earlier : List PromptHistoryMessage) (newest : PromptHistoryMessage) :
    (∃ kept, policy.selectHistory (earlier ++ [newest]) systemPrompt = .ok kept) ↔
      estimateTokens systemPrompt + estimateTokens newest.content ≤ policy.left := by
  simp only [selectHistory_eq_ok, List.reverse_append, List.reverse_singleton,
    List.singleton_append]
  constructor
  · rintro ⟨kept, -, some, rfl⟩
    by_contra full
    exact some (by rw [(walk_eq_nil _ _).2 (Nat.lt_of_not_le full), List.reverse_nil])
  · intro fits
    have positive : 0 < estimateTokens newest.content := Nat.succ_pos _
    refine ⟨_, by omega, fun empty => ?_, rfl⟩
    have full := (walk_eq_nil newest earlier.reverse).1 (List.reverse_eq_nil_iff.1 empty)
    omega

/-- The newest messages fit into the window beside the system prompt, and not one more does. -/
structure Longest (policy : PromptContextPolicy) (systemPrompt : String)
    (allMsgs kept : List PromptHistoryMessage) : Prop where
  newest : kept <:+ allMsgs
  fits : estimateTokens systemPrompt + cost kept ≤ policy.left
  longest : ∀ other, other <:+ allMsgs →
    estimateTokens systemPrompt + cost other ≤ policy.left → other.length ≤ kept.length

/-- A selection succeeds exactly with the longest history that fits, if that has a message. -/
theorem selectHistory_iff : policy.selectHistory allMsgs systemPrompt = .ok kept ↔
    kept ≠ [] ∧ Longest policy systemPrompt allMsgs kept := by
  have cost_reverse (messages : List PromptHistoryMessage) :
      cost messages.reverse = cost messages := by
    rw [cost, List.map_reverse, List.sum_reverse, cost]
  have within {other : List PromptHistoryMessage} (newest : other <:+ allMsgs)
      (fits : estimateTokens systemPrompt + cost other ≤ policy.left) :
      other <:+ (walk policy.left (estimateTokens systemPrompt) allMsgs.reverse).reverse := by
    rw [← List.reverse_prefix, List.reverse_reverse]
    exact prefix_walk (List.reverse_prefix.2 newest) (by rwa [cost_reverse])
  constructor
  · intro selected
    obtain ⟨-, some_, same⟩ := selectHistory_eq_ok.1 selected
    obtain ⟨newest, fits⟩ := selectHistory_sound selected
    refine ⟨some_, newest, fits, fun other newest' fits' => ?_⟩
    exact same ▸ (within newest' fits').length_le
  · rintro ⟨some_, newest, fits, longest⟩
    obtain ⟨last, rest, rfl⟩ := List.exists_cons_of_ne_nil some_
    have positive : 0 < cost (last :: rest) := by
      rw [cost, List.map_cons, List.sum_cons]
      exact Nat.add_pos_left (Nat.succ_pos _) _
    refine selectHistory_eq_ok.2 ⟨by omega, some_, ?_⟩
    refine (within newest fits).eq_of_length_le (longest _ ?_ ?_)
    · exact List.reverse_prefix.1 (by simpa using walk_prefix _ _ allMsgs.reverse)
    · rw [cost_reverse]
      exact cost_walk (by omega) _

end PromptContextPolicy

theorem history_longest (model systemPrompt : String) (allMsgs kept : List PromptHistoryMessage) :
    (promptContextPolicy model).selectHistory allMsgs systemPrompt = .ok kept ↔
      kept ≠ [] ∧ (promptContextPolicy model).Longest systemPrompt allMsgs kept :=
  PromptContextPolicy.selectHistory_iff

end Forge.PromptHistory
