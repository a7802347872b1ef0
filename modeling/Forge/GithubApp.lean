import Forge.Library.Dialogue
import Forge.OrchestrationView
import Forge.SelfFixDomain

/-! The GitHub client of the merge: pull requests, the check runs of a commit page by page, the
ready transition and the merge of an expected head. -/

namespace Forge.GithubApp

open Forge.Library.Dialogue
open Forge.Library.Interleaving
open Forge.Library.JsonDocument
open Forge.Library.Text
open Forge.OrchestrationView
open Forge.SelfFixDomain

/-- An entry of a `Link` header; the characters that separate entries occur in neither part. -/
structure Link where
  url : List Char
  rel : List Char
  nonempty : url ≠ []
  plain : ∀ c ∈ url ++ rel, c ≠ ',' ∧ c ≠ ';' ∧ c ≠ '<' ∧ c ≠ '>' ∧ c ≠ '"' ∧ isWhitespace c = false

/-- `<url>; rel="name"`. -/
def Link.text (link : Link) : List Char :=
  '<' :: link.url ++ ">; rel=\"".toList ++ link.rel ++ ['"']

/-- The `Link` header of a response, absent without entries. -/
def linkHeader (links : List Link) : Option (List Char) :=
  if links = [] then none else some (List.intercalate ", ".toList (links.map Link.text))

structure PullRequest where
  number : Int
  nodeId : String
  headSha : String
  draft : Bool
  merged : Bool
deriving DecidableEq, Repr

structure CheckRun where
  status : String
  conclusion : Option String
deriving DecidableEq, Repr

/-- The requests of the client. -/
inductive Op where
  | getPullRequest (number : Int)
  | getCheckRuns (url : List Char)
  | markReady (nodeId : String)
  | putMerge (number : Int) (sha : String)
  | postComment (number : Int) (body : String)
deriving DecidableEq

def Op.isMerge : Op → Bool
  | .putMerge .. => true
  | _ => false

def Body : Op → Type
  | .getPullRequest _ => PullRequest
  | .getCheckRuns _ => List CheckRun
  | .markReady _ => Json
  | .putMerge .. => Unit
  | .postComment .. => Unit

/-- A response: its status, the entries of its `Link` header, and its body if that can be read. -/
structure Response (op : Op) where
  status : Nat
  links : List Link
  body : Option (Body op)

def Response.isSuccess {op : Op} (response : Response op) : Bool :=
  decide (200 ≤ response.status ∧ response.status < 300)

abbrev Client (α : Type) := Attempt Op Response AppError α

section Requests

def expect (op : Op) (endpoint : String) (response : Response op) : Client (Body op) :=
  if response.isSuccess then
    match response.body with
    | some body => pure body
    | none => Attempt.fail (requestFailed endpoint)
  else Attempt.fail (statusFailed response.status endpoint)

theorem ends_expect {op : Op} {endpoint : String} {response : Response op} {body : Body op}
    {calls : List (Call Op fun operation => Except AppError (Response operation))} :
    Ends (expect op endpoint response) calls (.ok body) ↔
      calls = [] ∧ response.isSuccess = true ∧ response.body = some body := by
  rw [expect]
  cases success : response.isSuccess with
  | false => exact ⟨fun ends => absurd ends not_ends_fail, by simp⟩
  | true =>
      cases found : response.body with
      | none => exact ⟨fun ends => absurd ends not_ends_fail, by simp⟩
      | some body' =>
          refine ends_pure.trans ?_
          simp [eq_comm]

theorem only_expect {kind : Op → Prop} (op : Op) (endpoint : String) (response : Response op) :
    (expect op endpoint response).Only kind := by
  rw [expect]
  split
  · split
    · exact .pure _
    · exact .fail _
  · exact .fail _

def fetchPullRequest (number : Int) : Client PullRequest := do
  let response ← Attempt.call (.getPullRequest number)
  expect (.getPullRequest number) "GET /repos/{repo}/pulls/{number}" response

theorem ends_fetchPullRequest {number : Int} {pr : PullRequest}
    {calls : List (Call Op fun operation => Except AppError (Response operation))} :
    Ends (fetchPullRequest number) calls (.ok pr) ↔
      ∃ response : Response (.getPullRequest number), calls = [⟨_, .ok response⟩]
        ∧ response.isSuccess = true ∧ response.body = some pr := by
  refine ends_bind.trans ⟨?_, ?_⟩
  · rintro ⟨_, rest, response, rfl, call, expected⟩
    obtain rfl := ends_call.1 call
    obtain ⟨rfl, found⟩ := ends_expect.1 expected
    exact ⟨response, rfl, found⟩
  · rintro ⟨response, rfl, found⟩
    exact ⟨_, [], response, rfl, ends_call.2 rfl, ends_expect.2 ⟨rfl, found⟩⟩

theorem only_fetchPullRequest {kind : Op → Prop} {number : Int}
    (reads : kind (.getPullRequest number)) : (fetchPullRequest number).Only kind :=
  .bind (.call reads) fun _ => only_expect _ _ _

def prHeadSha (number : Int) : Client String := do
  return (← fetchPullRequest number).headSha

def prIsMerged (number : Int) : Client Bool := do
  return (← fetchPullRequest number).merged

def prIsDraft (number : Int) : Client Bool := do
  return (← fetchPullRequest number).draft

/-- `trim_start_matches('<')` and `trim_end_matches('>')`. -/
def unbracket (text : List Char) : List Char :=
  (text.dropWhile (· = '<')).rdropWhile (· = '>')

def nextOf (part : List Char) : Option (List Char) :=
  match (strip isWhitespace part).splitOn ';' with
  | [] => none
  | urlSegment :: segments =>
      let isNext := segments.any fun segment =>
        strip isWhitespace segment = "rel=\"next\"".toList
          || strip isWhitespace segment = "rel=next".toList
      let url := unbracket (strip isWhitespace urlSegment)
      if isNext && !url.isEmpty then some url else none

/-- `parse_link_next`. -/
def parseLinkNext (header : List Char) : Option (List Char) :=
  (header.splitOn ',').findSome? nextOf

section LinkHeaders

theorem splitOn_commas {parts : List (List Char)} (plain : ∀ part ∈ parts, ',' ∉ part)
    (first : List Char) (head : ',' ∉ first) :
    (List.intercalate ", ".toList (first :: parts)).splitOn ',' =
      first :: parts.map (List.cons ' ') := by
  induction parts generalizing first with
  | nil => simpa using List.splitOn_eq_singleton head
  | cons second rest ih =>
      obtain ⟨next, others⟩ := List.forall_mem_cons.1 plain
      have spaced : ',' ∉ ' ' :: second := by simp [next]
      have split : List.intercalate ", ".toList (first :: second :: rest) =
          first ++ ',' :: List.intercalate ", ".toList ((' ' :: second) :: rest) := by
        cases rest <;> simp [List.intercalate_cons_cons]
      rw [split, List.splitOn_append_cons_self_of_not_mem head, ih others _ spaced]
      rfl

variable (link : Link)

theorem strip_text : strip isWhitespace link.text = link.text := by
  have bounded := @strip_bounded isWhitespace '<' '"' (by decide) (by decide)
    (link.url ++ ">; rel=\"".toList ++ link.rel)
  simpa [Link.text] using bounded

theorem splitOn_text :
    link.text.splitOn ';' =
      ['<' :: link.url ++ ['>'], " rel=\"".toList ++ link.rel ++ ['"']] := by
  have url : ';' ∉ '<' :: link.url ++ ['>'] := by
    intro member
    have inside : ';' ∈ link.url := by simpa using member
    exact (link.plain _ (List.mem_append_left _ inside)).2.1 rfl
  have rel : ';' ∉ " rel=\"".toList ++ link.rel ++ ['"'] := by
    intro member
    have inside : ';' ∈ link.rel := by simpa using member
    exact (link.plain _ (List.mem_append_right _ inside)).2.1 rfl
  have split : link.text =
      ('<' :: link.url ++ ['>']) ++ ';' :: (" rel=\"".toList ++ link.rel ++ ['"']) := by
    simp [Link.text]
  rw [split, List.splitOn_append_cons_self_of_not_mem url, List.splitOn_eq_singleton rel]

theorem strip_rel :
    strip isWhitespace (" rel=\"".toList ++ link.rel ++ ['"']) =
      "rel=\"".toList ++ link.rel ++ ['"'] := by
  have bounded := @strip_bounded isWhitespace 'r' '"' (by decide) (by decide)
    ("el=\"".toList ++ link.rel)
  have space : " rel=\"".toList ++ link.rel ++ ['"'] =
      ' ' :: ('r' :: ("el=\"".toList ++ link.rel) ++ ['"']) := by simp
  rw [space, strip_cons (by decide), bounded]
  simp

theorem unbracket_url :
    unbracket (strip isWhitespace ('<' :: link.url ++ ['>'])) = link.url := by
  have plain : ∀ c ∈ link.url, c ≠ '<' ∧ c ≠ '>' := fun c member =>
    ⟨(link.plain c (List.mem_append_left _ member)).2.2.1,
      (link.plain c (List.mem_append_left _ member)).2.2.2.1⟩
  have front : (link.url ++ ['>']).dropWhile (· = '<') = link.url ++ ['>'] := by
    cases url : link.url with
    | nil => rfl
    | cons first rest =>
        have head : first ≠ '<' := (plain first (by simp [url])).1
        rw [List.cons_append, List.dropWhile_cons_of_neg (by simpa using head)]
  have back : link.url.rdropWhile (· = '>') = link.url := by
    rw [List.rdropWhile_eq_self_iff]
    intro nonempty
    simpa using (plain _ (List.getLast_mem nonempty)).2
  rw [strip_bounded (by decide) (by decide), unbracket, List.cons_append,
    List.dropWhile_cons_of_pos (by simp), front, List.rdropWhile_concat_pos _ _ _ (by simp), back]

theorem nextOf_text :
    nextOf link.text = if link.rel = "next".toList then some link.url else none := by
  have bare : strip isWhitespace (" rel=\"".toList ++ link.rel ++ ['"']) ≠
      "rel=next".toList := by
    rw [strip_rel]
    intro same
    simpa using congrArg (List.take 5) same
  have quoted : strip isWhitespace (" rel=\"".toList ++ link.rel ++ ['"']) =
      "rel=\"next\"".toList ↔ link.rel = "next".toList := by
    rw [strip_rel]
    constructor
    · intro same
      have tail : link.rel ++ ['"'] = "next".toList ++ ['"'] := by simpa using same
      exact List.append_cancel_right tail
    · rintro next
      rw [next]
      rfl
  have filled : link.url.isEmpty = false := by simpa using link.nonempty
  rw [nextOf, strip_text, splitOn_text]
  simp only [List.any_cons, List.any_nil, Bool.or_false, unbracket_url, quoted, bare, filled,
    decide_false, Bool.not_false, Bool.and_true, decide_eq_true_eq]

theorem nextOf_space : nextOf (' ' :: link.text) = nextOf link.text := by
  rw [nextOf, strip_cons (by decide), nextOf]

def nextPage (links : List Link) : Option (List Char) :=
  (links.find? fun link => decide (link.rel = "next".toList)).map Link.url

theorem parseLinkNext_linkHeader (links : List Link) :
    (linkHeader links).bind parseLinkNext = nextPage links := by
  have clean : ∀ link : Link, ',' ∉ link.text := by
    intro link member
    have inside : ',' ∈ link.url ++ link.rel := by simpa [Link.text] using member
    exact (link.plain _ inside).1 rfl
  cases links with
  | nil => rfl
  | cons first rest =>
      rw [linkHeader, if_neg (List.cons_ne_nil _ _), Option.bind_some, parseLinkNext,
        List.map_cons, splitOn_commas (by simpa using fun link _ => clean link) _ (clean first)]
      have others : ((rest.map Link.text).map (List.cons ' ')).findSome? nextOf =
          (rest.map Link.text).findSome? nextOf := by
        rw [List.map_map, List.findSome?_map, List.findSome?_map]
        exact congrArg (List.findSome? · rest) (funext fun link => nextOf_space link)
      rw [List.findSome?_cons, others, ← List.findSome?_cons, ← List.map_cons, List.findSome?_map]
      generalize first :: rest = links
      unfold nextPage
      induction links with
      | nil => rfl
      | cons link rest ih =>
          rw [List.findSome?_cons, List.find?_cons, Function.comp_apply, nextOf_text, ih]
          by_cases next : link.rel = "next".toList
          · simp only [next, decide_true, if_pos, Option.map_some]
          · simp only [next, decide_false, if_false]

end LinkHeaders

def CheckRun.isGreen (run : CheckRun) : Bool :=
  run.status == "completed" && run.conclusion == some "success"

/-- The loop of `all_checks_green` from a page on, for at most a number of pages: how many runs
were seen, and whether all of them were green. -/
def checksFrom : Nat → List Char → Nat → Bool → Client Bool
  | 0, _, _, _ => Attempt.fail (.internal "page limit of the model")
  | pages + 1, url, seenRuns, allSuccess => do
      let endpoint := "GET /repos/{repo}/commits/{sha}/check-runs"
      let response ← Attempt.call (.getCheckRuns url)
      let runs : List CheckRun ← expect (.getCheckRuns url) endpoint response
      let seenRuns := seenRuns + runs.length
      let allSuccess := allSuccess && runs.all CheckRun.isGreen
      match (linkHeader response.links).bind parseLinkNext with
      | some next => checksFrom pages next seenRuns allSuccess
      | none => return decide (0 < seenRuns) && allSuccess

section Pages

abbrev Exchange := Call Op fun operation => Except AppError (Response operation)

/-- The pages of check runs from an address to the last one, and the runs on them. -/
inductive Pages : List Char → List Exchange → List CheckRun → Prop where
  | last {url : List Char} {response : Response (.getCheckRuns url)} {runs : List CheckRun}
      (success : response.isSuccess = true) (body : response.body = some runs)
      (final : nextPage response.links = none) : Pages url [⟨_, .ok response⟩] runs
  | more {url next : List Char} {response : Response (.getCheckRuns url)}
      {runs others : List CheckRun} {calls : List Exchange} (success : response.isSuccess = true)
      (body : response.body = some runs) (named : nextPage response.links = some next)
      (rest : Pages next calls others) : Pages url (⟨_, .ok response⟩ :: calls) (runs ++ others)

theorem ends_checksFrom_succ {pages seenRuns : Nat} {url : List Char} {allSuccess green : Bool}
    {calls : List Exchange} :
    Ends (checksFrom (pages + 1) url seenRuns allSuccess) calls (.ok green) ↔
      ∃ (response : Response (.getCheckRuns url)) (runs : List CheckRun) (rest : List Exchange),
        response.isSuccess = true ∧ response.body = some runs
        ∧ calls = ⟨_, .ok response⟩ :: rest
        ∧ Ends (match nextPage response.links with
            | some next => checksFrom pages next (seenRuns + runs.length)
                (allSuccess && runs.all CheckRun.isGreen)
            | none => .done (.ok (decide (0 < seenRuns + runs.length)
                && (allSuccess && runs.all CheckRun.isGreen)))) rest (.ok green) := by
  rw [checksFrom]
  refine ends_op.trans ?_
  constructor
  · rintro ⟨reply, rest, rfl, ends⟩
    cases reply with
    | error err =>
        obtain ⟨-, ⟨⟩⟩ := ends_done.1 ends
    | ok response =>
        cases success : response.isSuccess with
        | false =>
            simp only [Prog.bind, Attempt.next, expect, success] at ends
            obtain ⟨-, ⟨⟩⟩ := ends_done.1 ends
        | true =>
            cases body : response.body with
            | none =>
                simp only [Prog.bind, Attempt.next, expect, success, body] at ends
                obtain ⟨-, ⟨⟩⟩ := ends_done.1 ends
            | some runs =>
                refine ⟨response, runs, rest, success, body, rfl, ?_⟩
                simp only [Prog.bind, Attempt.next, expect, success, body, if_true,
                  parseLinkNext_linkHeader] at ends
                exact ends
  · rintro ⟨response, runs, rest, success, body, rfl, ends⟩
    refine ⟨.ok response, rest, rfl, ?_⟩
    simp only [Prog.bind, Attempt.next, expect, success, body, if_true, parseLinkNext_linkHeader]
    exact ends

theorem ends_checksFrom {pages seenRuns : Nat} {url : List Char} {allSuccess green : Bool}
    {calls : List Exchange} :
    Ends (checksFrom pages url seenRuns allSuccess) calls (.ok green) ↔
      ∃ runs, Pages url calls runs ∧ calls.length ≤ pages
        ∧ green = (decide (0 < seenRuns + runs.length)
          && (allSuccess && runs.all CheckRun.isGreen)) := by
  induction pages generalizing url seenRuns allSuccess calls with
  | zero =>
      constructor
      · rintro ends
        obtain ⟨-, ⟨⟩⟩ := ends_done.1 ends
      · rintro ⟨runs, read, short, -⟩
        cases read <;> cases short
  | succ pages ih =>
      rw [ends_checksFrom_succ]
      constructor
      · rintro ⟨response, runs, rest, success, body, rfl, ends⟩
        cases next : nextPage response.links with
        | none =>
            rw [next] at ends
            obtain ⟨rfl, same⟩ := ends_done.1 ends
            exact ⟨runs, .last success body next, by simp, Except.ok.inj same⟩
        | some url =>
            rw [next] at ends
            obtain ⟨others, read, short, same⟩ := ih.1 ends
            refine ⟨runs ++ others, .more success body next read, by simpa using short, ?_⟩
            rw [same, List.length_append, List.all_append, Nat.add_assoc, Bool.and_assoc]
      · rintro ⟨runs, read, short, same⟩
        cases read with
        | @last _ response _ success body final =>
            refine ⟨response, runs, [], success, body, rfl, ?_⟩
            rw [final, same]
            exact ends_done.2 ⟨rfl, rfl⟩
        | @more _ next response runs others rest success body named read =>
            refine ⟨response, runs, rest, success, body, rfl, ?_⟩
            rw [named]
            refine ih.2 ⟨others, read, by simpa using short, ?_⟩
            rw [same, List.length_append, List.all_append, Nat.add_assoc, Bool.and_assoc]

end Pages

variable (apiBase repo : String)

def checkRunsUrl (headSha : String) : List Char :=
  (apiBase ++ "/repos/" ++ repo ++ "/commits/" ++ headSha ++ "/check-runs?per_page=100").toList

/-- `all_checks_green`. -/
def allChecksGreen (pages : Nat) (headSha : String) : Client Bool :=
  checksFrom pages (checkRunsUrl apiBase repo headSha) 0 true

theorem ends_allChecksGreen {pages : Nat} {headSha : String} {green : Bool}
    {calls : List Exchange} :
    Ends (allChecksGreen apiBase repo pages headSha) calls (.ok green) ↔
      ∃ runs, Pages (checkRunsUrl apiBase repo headSha) calls runs ∧ calls.length ≤ pages
        ∧ (green = true ↔ runs ≠ [] ∧ ∀ run ∈ runs, run.isGreen = true) := by
  rw [allChecksGreen, ends_checksFrom]
  refine exists_congr fun runs => and_congr_right fun _ => and_congr_right fun _ => ?_
  rw [Bool.eq_iff_iff, Nat.zero_add, Bool.true_and, Bool.and_eq_true, decide_eq_true_eq,
    List.length_pos_iff, List.all_eq_true]

theorem only_checksFrom {kind : Op → Prop} (reads : ∀ url, kind (.getCheckRuns url))
    (pages : Nat) (url : List Char) (seenRuns : Nat) (allSuccess : Bool) :
    (checksFrom pages url seenRuns allSuccess).Only kind := by
  induction pages generalizing url seenRuns allSuccess with
  | zero => exact Attempt.Only.fail _
  | succ pages ih =>
      refine .bind (.call (reads url)) fun response => .bind (only_expect _ _ _) fun runs => ?_
      split
      · exact ih _ _ _
      · exact .pure _

def alreadyReady (error : Json) : Bool :=
  ((error.get "message").bind Json.asStr).any fun message =>
    decide ("not in the draft state".toList <:+: message.toList)

/-- `mark_ready_for_review`. -/
def markReadyForReview (number : Int) : Client Unit := do
  let pr ← fetchPullRequest number
  let endpoint := "POST /graphql (markPullRequestReadyForReview)"
  let response ← Attempt.call (.markReady pr.nodeId)
  let body : Json ← expect (.markReady pr.nodeId) endpoint response
  match (body.get "errors").bind Json.asArray with
  | some errors =>
      if errors.all alreadyReady then return () else Attempt.fail (requestFailed endpoint)
  | none => return ()

/-- `merge_with_expected_head`. -/
def mergeWithExpectedHead (number : Int) (expectedHead : String) : Client Unit := do
  let response ← Attempt.call (.putMerge number expectedHead)
  if response.isSuccess then return ()
  else if response.status = 409 then Attempt.fail SelfFixPolicy.headMoved
  else if response.status = 405 then Attempt.fail notMergeable
  else Attempt.fail (statusFailed response.status "PUT /repos/{repo}/pulls/{number}/merge")

def comment (number : Int) (body : String) : Client Unit := do
  let response ← Attempt.call (.postComment number body)
  if response.isSuccess then return ()
  else
    Attempt.fail (statusFailed response.status "POST /repos/{repo}/issues/{number}/comments")

end Requests

end Forge.GithubApp
