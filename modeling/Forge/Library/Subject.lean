import Forge.Library.Text

/-! Dotted subjects of a message bus: tokens, patterns whose tokens may stand for one or more
others, and permissions that allow and deny. -/

namespace Forge.Library.Subject

def tokens (subject : String) : List (List Char) :=
  subject.toList.splitOn '.'

def single : List Char := ['*']

def rest : List Char := ['>']

/-- A token of the pattern stands for itself, `*` for any token, and a last `>` for one or more. -/
def matchTokens : List (List Char) → List (List Char) → Bool
  | [], [] => true
  | [], _ :: _ => false
  | _ :: _, [] => false
  | p :: ps, t :: ts =>
      (p == rest && ps.isEmpty) || ((p == single || p == t) && matchTokens ps ts)

def isMatch (pattern subject : String) : Bool :=
  matchTokens (tokens pattern) (tokens subject)

/-- Whatever the second pattern stands for, the first one does: its own wildcards are covered by
wildcards only. -/
def coverTokens : List (List Char) → List (List Char) → Bool
  | [], [] => true
  | [], _ :: _ => false
  | _ :: _, [] => false
  | p :: ps, t :: ts =>
      (p == rest && ps.isEmpty)
        || (t != rest && (p == single || (t != single && p == t)) && coverTokens ps ts)

def covers (pattern subject : String) : Bool :=
  coverTokens (tokens pattern) (tokens subject)

def Plain (pattern : List (List Char)) : Prop :=
  single ∉ pattern ∧ rest ∉ pattern

section Tokens

variable {left right : String}

theorem tokens_append_dot (left right : String) :
    tokens (left ++ "." ++ right) = tokens left ++ tokens right := by
  have joined : (left ++ "." ++ right).toList = left.toList ++ '.' :: right.toList := by simp
  rw [tokens, joined, List.splitOn_append_cons_self]
  rfl

theorem tokens_of_plain {text : String} (plain : '.' ∉ text.toList) :
    tokens text = [text.toList] :=
  List.splitOn_eq_singleton plain

theorem tokens_ne_nil (subject : String) : tokens subject ≠ [] :=
  List.splitOn_ne_nil '.' subject.toList

end Tokens

section Patterns

variable {pattern middle subject head : List (List Char)}

theorem Plain.cons {first : List Char} (plain : Plain (first :: pattern)) :
    first ≠ single ∧ first ≠ rest ∧ Plain pattern := by
  obtain ⟨noSingle, noRest⟩ := plain
  rw [List.mem_cons, not_or] at noSingle noRest
  exact ⟨Ne.symm noSingle.1, Ne.symm noRest.1, noSingle.2, noRest.2⟩

theorem matchTokens_plain (plain : Plain pattern) :
    matchTokens pattern subject = true ↔ subject = pattern := by
  induction pattern generalizing subject with
  | nil => cases subject <;> simp [matchTokens]
  | cons first others ih =>
      obtain ⟨notSingle, notRest, tail⟩ := plain.cons
      cases subject with
      | nil => simp [matchTokens]
      | cons token tokens =>
          simp only [matchTokens, Bool.or_eq_true, Bool.and_eq_true, beq_iff_eq, ih tail]
          constructor
          · rintro (⟨isRest, -⟩ | ⟨isSingle | rfl, rfl⟩)
            · exact absurd isRest notRest
            · exact absurd isSingle notSingle
            · rfl
          · intro same
            obtain ⟨rfl, rfl⟩ := List.cons.inj same
            exact .inr ⟨.inr rfl, rfl⟩

theorem matchTokens_rest (plain : Plain head) :
    matchTokens (head ++ [rest]) subject = true ↔
      ∃ tail, tail ≠ [] ∧ subject = head ++ tail := by
  induction head generalizing subject with
  | nil => cases subject <;> simp [matchTokens]
  | cons first others ih =>
      obtain ⟨notSingle, notRest, tail⟩ := plain.cons
      cases subject with
      | nil => simp [matchTokens]
      | cons token tokens =>
          simp only [List.cons_append, matchTokens, Bool.or_eq_true, Bool.and_eq_true, beq_iff_eq,
            ih tail]
          constructor
          · rintro (⟨isRest, -⟩ | ⟨isSingle | rfl, more, some, rfl⟩)
            · exact absurd isRest notRest
            · exact absurd isSingle notSingle
            · exact ⟨more, some, rfl⟩
          · rintro ⟨more, some, same⟩
            obtain ⟨rfl, rfl⟩ := List.cons.inj same
            exact .inr ⟨.inr rfl, more, some, rfl⟩

theorem match_of_cover (covered : coverTokens pattern middle = true)
    (matched : matchTokens middle subject = true) : matchTokens pattern subject = true := by
  induction pattern generalizing middle subject with
  | nil =>
      cases middle with
      | nil => exact matched
      | cons token tokens => cases covered
  | cons first others ih =>
      cases middle with
      | nil => cases covered
      | cons token tokens =>
          cases subject with
          | nil => cases matched
          | cons name names =>
              simp only [coverTokens, matchTokens, Bool.or_eq_true, Bool.and_eq_true, beq_iff_eq,
                bne_iff_ne] at covered matched ⊢
              rcases covered with whole | ⟨⟨notRest, same⟩, covered⟩
              · exact .inl whole
              · rcases matched with ⟨isRest, -⟩ | ⟨stands, matched⟩
                · exact absurd isRest notRest
                · refine .inr ⟨?_, ih covered matched⟩
                  rcases same with isSingle | ⟨notSingle, rfl⟩
                  · exact .inl isSingle
                  · exact .inr (stands.resolve_left notSingle)

theorem matchTokens_self (pattern : List (List Char)) : matchTokens pattern pattern = true := by
  induction pattern with
  | nil => rfl
  | cons first others ih => simp [matchTokens, ih]

theorem matchTokens_of_coverTokens (covered : coverTokens pattern subject = true) :
    matchTokens pattern subject = true :=
  match_of_cover covered (matchTokens_self subject)

theorem coverTokens_plain (plain : Plain subject) :
    coverTokens pattern subject = matchTokens pattern subject := by
  induction pattern generalizing subject with
  | nil => cases subject <;> rfl
  | cons first others ih =>
      cases subject with
      | nil => rfl
      | cons token tokens =>
          obtain ⟨notSingle, notRest, tail⟩ := plain.cons
          have ordinary : (token != rest) = true ∧ (token != single) = true :=
            ⟨bne_iff_ne.2 notRest, bne_iff_ne.2 notSingle⟩
          simp only [coverTokens, matchTokens, ih tail, ordinary, Bool.true_and]

end Patterns

structure Permissions where
  pubAllow : List String
  pubDeny : List String
  subAllow : List String
  subDeny : List String

namespace Permissions

variable (permissions : Permissions)

def MayPublish (subject : String) : Prop :=
  (∃ pattern ∈ permissions.pubAllow, isMatch pattern subject = true)
    ∧ ∀ pattern ∈ permissions.pubDeny, isMatch pattern subject = false

def MaySubscribe (subject : String) : Prop :=
  (∃ pattern ∈ permissions.subAllow, covers pattern subject = true)
    ∧ ∀ pattern ∈ permissions.subDeny, covers pattern subject = false

def Receives (subject : String) : Prop :=
  ∃ subscription, permissions.MaySubscribe subscription
    ∧ isMatch subscription subject = true
    ∧ ∀ pattern ∈ permissions.subDeny, isMatch pattern subject = false

variable {permissions} {subject : String}

theorem Receives.allowed (receives : permissions.Receives subject) :
    ∃ pattern ∈ permissions.subAllow, isMatch pattern subject = true := by
  obtain ⟨subscription, ⟨⟨pattern, member, covered⟩, -⟩, matched, -⟩ := receives
  exact ⟨pattern, member, match_of_cover covered matched⟩

theorem receives_of_maySubscribe (plain : Plain (tokens subject))
    (may : permissions.MaySubscribe subject) : permissions.Receives subject := by
  refine ⟨subject, may, (matchTokens_plain plain).2 rfl, fun pattern member => ?_⟩
  rw [isMatch, ← coverTokens_plain plain]
  exact may.2 pattern member

end Permissions

end Forge.Library.Subject
